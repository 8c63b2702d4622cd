import JdPico.Lib.Run
import Mathlib.Data.BitVec

/-!
# Edges

The IO bank latches the edges of the thirty pins.  Four registers hold the latches, four bits for a
pin, and four more say which events are enabled.  `isr_io_bank0` goes through the pins; it
acknowledges the events of a pin and then calls its callback.  An edge may come at any moment.

No edge is lost, because the events are acknowledged before the callback starts: an edge that comes
before the acknowledge is followed by the callback, and one that comes later is latched again.  This
rests on every enabled pin having a callback, which is so because `exti_set_callback` stores it
before it enables anything (`EdgeState.Inv`), and on the writes for one pin leaving the others alone
(`latched_gpioAcknowledgeIrq`, `enabled_setBits`).

A function that sets up a pin is the list of its writes.  Such functions may be called in any number
of contexts at once, between any two steps of the routine, also by the callbacks.  The bits of the
level events are not in the model; they are never enabled.
-/

namespace JdPico

open Machine

/-! ### The registers -/

/-- The types of edges. -/
inductive EdgeType where
  | fall
  | rise
  deriving DecidableEq, Repr

/-- `GPIO_IRQ_EDGE_FALL` and `GPIO_IRQ_EDGE_RISE`. -/
def EdgeType.events : EdgeType → BitVec 32
  | .fall => 0x4
  | .rise => 0x8

/-- The number of the event among the four of a pin. -/
def EdgeType.index : EdgeType → Fin 4
  | .fall => 2
  | .rise => 3

/-- The registers of the IO bank that deal with interrupts. -/
structure IoBank where
  /-- The latches. -/
  intr : Fin 4 → BitVec 32
  /-- The enabled events. -/
  inte : Fin 4 → BitVec 32

/-- The register of a pin: `gpio / 8`. -/
def gpioReg (gpio : Fin 30) : Fin 4 := ⟨gpio / 8, by omega⟩

/-- The lowest bit of a pin in its register: `4 * (gpio % 8)`. -/
def gpioShift (gpio : Fin 30) : ℕ := 4 * (gpio % 8)

namespace IoBank

/-- The event is latched. -/
def latched (bank : IoBank) (gpio : Fin 30) (i : Fin 4) : Bool :=
  (bank.intr (gpioReg gpio)).getLsbD (gpioShift gpio + i)

/-- The event is enabled. -/
def enabled (bank : IoBank) (gpio : Fin 30) (i : Fin 4) : Bool :=
  (bank.inte (gpioReg gpio)).getLsbD (gpioShift gpio + i)

/-- The register `ints`: the events that are latched and enabled. -/
def ints (bank : IoBank) (n : Fin 4) : BitVec 32 := bank.intr n &&& bank.inte n

/-- An edge sets its latch. -/
def edge (bank : IoBank) (gpio : Fin 30) (type : EdgeType) : IoBank :=
  { bank with
    intr := Function.update bank.intr (gpioReg gpio)
      (bank.intr (gpioReg gpio) ||| type.events <<< gpioShift gpio) }

/-- `hw_set_bits` and `hw_clear_bits` at `inte`, for the events of a pin. -/
def setBits (bank : IoBank) (gpio : Fin 30) (events : BitVec 32) (enabled : Bool) : IoBank :=
  let inte := bank.inte (gpioReg gpio)
  { bank with
    inte := Function.update bank.inte (gpioReg gpio)
      (if enabled then inte ||| events <<< gpioShift gpio
        else inte &&& ~~~(events <<< gpioShift gpio)) }

end IoBank

/-- `gpio_acknowledge_irq_`, which is `gpio_acknowledge_irq` of the SDK: a one that is written to
`intr` clears the latch. -/
def gpioAcknowledgeIrq (gpio : Fin 30) (events : BitVec 32) (bank : IoBank) : IoBank :=
  { bank with
    intr := Function.update bank.intr (gpioReg gpio)
      (bank.intr (gpioReg gpio) &&& ~~~(events <<< gpioShift gpio)) }

/-! ### The driver -/

section

variable (κ : Type*)

/-- A write of one of the functions that set up a pin. -/
inductive ExtiWrite where
  /-- To `exti_cb[pin]`. -/
  | cb (pin : Fin 30) (callback : κ)
  /-- To `exti_ev[pin]`. -/
  | ev (pin : Fin 30) (events : BitVec 8)
  /-- `gpio_acknowledge_irq_`. -/
  | intr (pin : Fin 30) (events : BitVec 32)
  /-- `hw_set_bits` or `hw_clear_bits`. -/
  | inte (pin : Fin 30) (events : BitVec 32) (enabled : Bool)
  deriving DecidableEq, Repr

/-- Where `isr_io_bank0` is. -/
inductive IsrPc where
  /-- It is not running. -/
  | idle
  /-- The test `gpio < NUM_BANK0_GPIOS` and the read of the status come next. -/
  | scan (gpio : ℕ)
  /-- It has read these events, which are not zero. -/
  | read (gpio : Fin 30) (events : BitVec 32)
  /-- It has acknowledged the events; the callback comes next. -/
  | acked (gpio : Fin 30)
  /-- The callback is running. -/
  | callback (gpio : Fin 30)
  deriving DecidableEq, Repr

/-- What happens to the pins. -/
inductive EdgeEvent where
  /-- There is an edge of an enabled type. -/
  | edge (pin : Fin 30) (type : EdgeType)
  /-- The events are acknowledged because they are being enabled or disabled. -/
  | cleared (pin : Fin 30) (events : BitVec 32)
  /-- The callback of the pin starts. -/
  | callback (pin : Fin 30) (callback : κ)
  deriving DecidableEq, Repr

/-- The registers, the variables of `pins.c`, where its functions are, and what has happened. -/
structure EdgeState where
  bank : IoBank
  extiCb : Fin 30 → Option κ
  extiEv : Fin 30 → BitVec 8
  isr : IsrPc
  /-- The writes that are left of the call in each context. -/
  calls : ℕ → List (ExtiWrite κ)
  /-- Newest first. -/
  log : List (EdgeEvent κ)

/-- The calls that set up a pin. -/
inductive ExtiCall where
  /-- `exti_set_callback(pin, callback, flags)`. -/
  | setCallback (pin : Fin 30) (callback : κ) (flags : BitVec 32)
  /-- `exti_enable(pin)`. -/
  | enable (pin : Fin 30)
  /-- `exti_disable(pin)`. -/
  | disable (pin : Fin 30)
  deriving DecidableEq, Repr

/-- The steps of the system. -/
inductive EdgeAct where
  /-- There is an edge at a pin. -/
  | edge (pin : Fin 30) (type : EdgeType)
  /-- `isr_io_bank0` is entered or takes its next step. -/
  | isr
  /-- A function is called in a context. -/
  | call (context : ℕ) (call : ExtiCall κ)
  /-- The call in a context makes its next write. -/
  | write (context : ℕ)
  deriving DecidableEq, Repr

end

variable {κ : Type*}

/-- The writes of `gpio_set_irq_enabled_`, which is `gpio_set_irq_enabled` of the SDK. -/
def gpioSetIrqEnabled (gpio : Fin 30) (events : BitVec 32) (enabled : Bool) :
    List (ExtiWrite κ) :=
  [.intr gpio events, .inte gpio events enabled]

/-- The events that `exti_set_callback` takes from its flags: `EXTI_FALLING` is `0x01` and
`EXTI_RISING` is `0x02`. -/
def extiEvents (flags : BitVec 32) : BitVec 8 :=
  (if flags &&& 0x01 ≠ 0 then 0x4 else 0) ||| if flags &&& 0x02 ≠ 0 then 0x8 else 0

/-- The writes of `exti_set_callback`. -/
def extiSetCallback (pin : Fin 30) (callback : κ) (flags : BitVec 32) : List (ExtiWrite κ) :=
  .cb pin callback :: .ev pin (extiEvents flags) ::
    gpioSetIrqEnabled pin ((extiEvents flags).setWidth 32) true

/-- The pin that a write is for. -/
def ExtiWrite.pin : ExtiWrite κ → Fin 30
  | .cb pin _ | .ev pin _ | .intr pin _ | .inte pin _ _ => pin

namespace EdgeState

/-- The writes of `exti_disable`, which reads `exti_ev[pin]` first. -/
def extiDisable (pin : Fin 30) (s : EdgeState κ) : List (ExtiWrite κ) :=
  gpioSetIrqEnabled pin ((s.extiEv pin).setWidth 32) false

/-- The writes of `exti_enable`. -/
def extiEnable (pin : Fin 30) (s : EdgeState κ) : List (ExtiWrite κ) :=
  gpioSetIrqEnabled pin ((s.extiEv pin).setWidth 32) true

/-- The writes of a call. -/
def writes (s : EdgeState κ) : ExtiCall κ → List (ExtiWrite κ)
  | .setCallback pin callback flags => extiSetCallback pin callback flags
  | .enable pin => s.extiEnable pin
  | .disable pin => s.extiDisable pin

/-- One write. -/
def write (s : EdgeState κ) : ExtiWrite κ → EdgeState κ
  | .cb pin callback => { s with extiCb := Function.update s.extiCb pin (some callback) }
  | .ev pin events => { s with extiEv := Function.update s.extiEv pin events }
  | .intr pin events =>
    { s with bank := gpioAcknowledgeIrq pin events s.bank, log := .cleared pin events :: s.log }
  | .inte pin events enabled => { s with bank := s.bank.setBits pin events enabled }

/-- The events of a pin that `isr_io_bank0` reads from the status. -/
def status (s : EdgeState κ) (gpio : Fin 30) : BitVec 32 :=
  s.bank.ints (gpioReg gpio) >>> gpioShift gpio &&& 0xf

/-- The next step of `isr_io_bank0`. -/
def isrIoBank0 (s : EdgeState κ) : EdgeState κ :=
  match s.isr with
  | .idle => { s with isr := .scan 0 }
  | .scan gpio =>
    if h : gpio < 30 then
      let events := s.status ⟨gpio, h⟩
      { s with isr := if events ≠ 0 then .read ⟨gpio, h⟩ events else .scan (gpio + 1) }
    else { s with isr := .idle }
  | .read gpio events =>
    { s with bank := gpioAcknowledgeIrq gpio events s.bank, isr := .acked gpio }
  | .acked gpio =>
    match s.extiCb gpio with
    | none => { s with isr := .scan (gpio + 1) }
    | some callback => { s with isr := .callback gpio, log := .callback gpio callback :: s.log }
  | .callback gpio => { s with isr := .scan (gpio + 1) }

/-- An edge sets its latch, and is logged if its type is enabled. -/
def edge (s : EdgeState κ) (pin : Fin 30) (type : EdgeType) : EdgeState κ :=
  { s with
    bank := s.bank.edge pin type
    log := if s.bank.enabled pin type.index then .edge pin type :: s.log else s.log }

/-- One step of the system; `none` if it is not possible. -/
def step (s : EdgeState κ) : EdgeAct κ → Option (EdgeState κ)
  | .edge pin type => some (s.edge pin type)
  | .isr => some s.isrIoBank0
  | .call context call =>
    if s.calls context = [] then
      some { s with calls := Function.update s.calls context (s.writes call) }
    else none
  | .write context =>
    match s.calls context with
    | [] => none
    | w :: ws => some ({ s with calls := Function.update s.calls context ws }.write w)

/-- The state after reset. -/
def initial : EdgeState κ :=
  ⟨⟨fun _ => 0, fun _ => 0⟩, fun _ => none, fun _ => 0, .idle, fun _ => [], []⟩

/-! ### No lost edge -/

/-- Every edge of an enabled type, since the type was last enabled or disabled, is followed by the
start of the callback, or is latched, or was acknowledged and the callback comes next. -/
def NoLostEdge (s : EdgeState κ) : Prop :=
  ∀ pin type newer older, s.log = newer ++ .edge pin type :: older →
    (∀ events, .cleared pin events ∈ newer → events.getLsbD type.index = false) →
    (∃ callback, .callback pin callback ∈ newer) ∨ s.bank.latched pin type.index = true ∨
      s.isr = .acked pin

/-- The pin that a step is about. -/
def pinOf (s : EdgeState κ) : EdgeAct κ → Option (Fin 30)
  | .edge pin _ => some pin
  | .isr =>
    match s.isr with
    | .read gpio _ => some gpio
    | _ => none
  | .call _ _ => none
  | .write context => (s.calls context).head?.map ExtiWrite.pin

end EdgeState

/-! ### The bits of a pin -/

section

variable {bank : IoBank} {p q : Fin 30} {events : BitVec 32} {i : Fin 4}

/-- The events of a pin are four bits. -/
def IsEvents (events : BitVec 32) : Prop := events.toNat < 16

instance : Decidable (IsEvents events) := inferInstanceAs (Decidable (_ < _))

lemma IsEvents.getLsbD_of_le (h : IsEvents events) {j : ℕ} (hj : 4 ≤ j) :
    events.getLsbD j = false :=
  Nat.testBit_lt_two_pow (lt_of_lt_of_le h (Nat.pow_le_pow_right Nat.two_pos hj))

/-- The bits of a pin are in its register. -/
lemma gpioShift_add_lt (q : Fin 30) (i : Fin 4) : gpioShift q + i < 32 := by
  unfold gpioShift
  omega

/-- Two pins have the same place in the same register only if they are the same. -/
lemma gpioShift_eq_iff (hreg : gpioReg q = gpioReg p) : gpioShift p = gpioShift q ↔ p = q := by
  have hdiv : (q : ℕ) / 8 = p / 8 := congrArg Fin.val hreg
  unfold gpioShift
  omega

/-- Shifted to the place of a pin, the events of the pin are not at the place of another one of the
same register. -/
lemma getLsbD_shiftLeft_gpioShift (h : IsEvents events) (hreg : gpioReg q = gpioReg p) :
    (events <<< gpioShift p).getLsbD (gpioShift q + i) =
      (decide (p = q) && events.getLsbD i) := by
  have hi : (i : ℕ) < 4 := i.isLt
  have hsame : decide (p = q) = decide (gpioShift p = gpioShift q) :=
    decide_eq_decide.mpr (gpioShift_eq_iff hreg).symm
  rw [BitVec.getLsbD_shiftLeft, hsame]
  rcases lt_trichotomy (gpioShift p) (gpioShift q) with hlt | heq | hgt
  · have hhigh : 4 ≤ gpioShift q + i - gpioShift p := by
      unfold gpioShift at hlt ⊢
      omega
    simp [h.getLsbD_of_le hhigh, hlt.ne]
  · have hq := gpioShift_add_lt q i
    simp [heq, hq]
  · have hlow : gpioShift q + i < gpioShift p := by
      unfold gpioShift at hgt ⊢
      omega
    simp [hlow, hgt.ne']

/-- An acknowledge clears the given events of its pin and nothing else. -/
lemma latched_gpioAcknowledgeIrq (h : IsEvents events) :
    (gpioAcknowledgeIrq p events bank).latched q i =
      (bank.latched q i && !(decide (p = q) && events.getLsbD i)) := by
  by_cases hreg : gpioReg q = gpioReg p
  · simp only [gpioAcknowledgeIrq, IoBank.latched, hreg, Function.update_self, BitVec.getLsbD_and,
      BitVec.getLsbD_not, gpioShift_add_lt, getLsbD_shiftLeft_gpioShift h hreg, decide_true,
      Bool.true_and]
  · have hne : p ≠ q := fun h => hreg (h ▸ rfl)
    simp [gpioAcknowledgeIrq, IoBank.latched, hreg, hne]

/-- Enabling or disabling changes the given events of its pin and nothing else. -/
lemma enabled_setBits (h : IsEvents events) (on : Bool) :
    (bank.setBits p events on).enabled q i =
      if p = q ∧ events.getLsbD i = true then on else bank.enabled q i := by
  by_cases hreg : gpioReg q = gpioReg p
  · cases on <;>
      simp only [IoBank.setBits, IoBank.enabled, hreg, Function.update_self, BitVec.getLsbD_and,
        BitVec.getLsbD_or, BitVec.getLsbD_not, gpioShift_add_lt, decide_true, Bool.true_and,
        getLsbD_shiftLeft_gpioShift h hreg, if_true, Bool.false_eq_true, if_false] <;>
      by_cases hpq : p = q <;> cases events.getLsbD i <;> simp [hpq]
  · have hne : p ≠ q := fun h => hreg (h ▸ rfl)
    simp [IoBank.setBits, IoBank.enabled, hreg, hne]

/-- An edge sets its own latch and no other. -/
lemma latched_edge (type : EdgeType) :
    (bank.edge p type).latched q i =
      (bank.latched q i || (decide (p = q) && decide (type.index = i))) := by
  have hevents : IsEvents type.events := by cases type <;> decide
  have hbit : type.events.getLsbD i = decide (type.index = i) := by
    revert i
    cases type <;> decide
  by_cases hreg : gpioReg q = gpioReg p
  · simp only [IoBank.edge, IoBank.latched, hreg, Function.update_self, BitVec.getLsbD_or,
      getLsbD_shiftLeft_gpioShift hevents hreg, hbit]
  · have hne : p ≠ q := fun h => hreg (h ▸ rfl)
    simp [IoBank.edge, IoBank.latched, hreg, hne]

lemma isEvents_status (s : EdgeState κ) (p : Fin 30) : IsEvents (s.status p) := by
  rw [IsEvents, EdgeState.status, BitVec.toNat_and]
  exact lt_of_le_of_lt Nat.and_le_right (by decide)

/-- If the events that are read from the status are not zero, one of them is enabled. -/
lemma exists_enabled_of_status {s : EdgeState κ} (h : s.status p ≠ 0) :
    ∃ i, s.bank.enabled p i = true := by
  by_contra hnone
  push Not at hnone
  refine h (BitVec.eq_of_getLsbD_eq fun j hj => ?_)
  by_cases hlow : j < 4
  · have hbit : (s.bank.inte (gpioReg p)).getLsbD (gpioShift p + j) = false :=
      Bool.eq_false_iff.mpr (hnone ⟨j, hlow⟩)
    simp [EdgeState.status, IoBank.ints, hbit]
  · rw [(isEvents_status s p).getLsbD_of_le (not_lt.mp hlow), BitVec.ofNat_eq_ofNat,
      BitVec.getLsbD_zero]

lemma isEvents_extiEvents (flags : BitVec 32) : IsEvents ((extiEvents flags).setWidth 32) := by
  unfold extiEvents
  split_ifs <;> decide

end

/-! ### One step -/

/-- An edge has been neither followed by the start of the callback nor cleared. -/
def Outstanding (pin : Fin 30) (type : EdgeType) : List (EdgeEvent κ) → Prop
  | [] => False
  | .edge p σ :: log => p = pin ∧ σ = type ∨ Outstanding pin type log
  | .cleared p events :: log =>
    ¬(p = pin ∧ events.getLsbD type.index = true) ∧ Outstanding pin type log
  | .callback p _ :: log => p ≠ pin ∧ Outstanding pin type log

/-- An edge stays outstanding until its callback starts or it is cleared. -/
lemma outstanding_append {pin : Fin 30} {type : EdgeType} {newer older : List (EdgeEvent κ)}
    (hcleared : ∀ events, .cleared pin events ∈ newer → events.getLsbD type.index = false)
    (hcallback : ∀ callback, .callback pin callback ∉ newer) :
    Outstanding pin type (newer ++ .edge pin type :: older) := by
  induction newer with
  | nil => exact .inl ⟨rfl, rfl⟩
  | cons e newer ih =>
    have hrest := ih (fun events hmem => hcleared events (List.mem_cons_of_mem _ hmem))
      fun callback hmem => hcallback callback (List.mem_cons_of_mem _ hmem)
    cases e with
    | edge p σ => exact .inr hrest
    | cleared p events =>
      refine ⟨?_, hrest⟩
      rintro ⟨rfl, hbit⟩
      exact absurd (hcleared events List.mem_cons_self) (by simp [hbit])
    | callback p callback =>
      refine ⟨?_, hrest⟩
      rintro rfl
      exact hcallback callback List.mem_cons_self

/-- The writes that are left of a call: a pin is not enabled before it has a callback. -/
def SoundWrites (registered : Fin 30 → Prop) : List (ExtiWrite κ) → Prop
  | [] => True
  | .cb pin _ :: ws => SoundWrites (fun p => registered p ∨ p = pin) ws
  | .ev pin events :: ws => IsEvents (events.setWidth 32) ∧ (events ≠ 0 → registered pin) ∧
      SoundWrites registered ws
  | .intr _ events :: ws => IsEvents events ∧ SoundWrites registered ws
  | .inte pin events _ :: ws => IsEvents events ∧ (events ≠ 0 → registered pin) ∧
      SoundWrites registered ws

lemma SoundWrites.mono {R R' : Fin 30 → Prop} (hR : ∀ p, R p → R' p) {ws : List (ExtiWrite κ)}
    (h : SoundWrites R ws) : SoundWrites R' ws := by
  induction ws generalizing R R' with
  | nil => trivial
  | cons w ws ih =>
    cases w with
    | cb pin callback => exact ih (fun p hp => hp.imp_left (hR p)) h
    | ev pin events => exact ⟨h.1, fun hne => hR pin (h.2.1 hne), ih hR h.2.2⟩
    | intr pin events => exact ⟨h.1, ih hR h.2⟩
    | inte pin events enabled => exact ⟨h.1, fun hne => hR pin (h.2.1 hne), ih hR h.2.2⟩

/-- The routine deals with a pin that has a callback. -/
def IsrPc.Sound (registered : Fin 30 → Prop) : IsrPc → Prop
  | .read gpio events => IsEvents events ∧ registered gpio
  | .acked gpio => registered gpio
  | _ => True

lemma IsrPc.Sound.mono {R R' : Fin 30 → Prop} (hR : ∀ p, R p → R' p) {isr : IsrPc}
    (h : isr.Sound R) : isr.Sound R' := by
  cases isr with
  | idle | scan | callback => trivial
  | read gpio events => exact ⟨h.1, hR gpio h.2⟩
  | acked gpio => exact hR gpio h

namespace EdgeState

variable {s t : EdgeState κ}

/-- The pin has a callback. -/
def Registered (s : EdgeState κ) (pin : Fin 30) : Prop := (s.extiCb pin).isSome = true

/-- Every enabled pin has a callback, and so does every pin that is about to be enabled; edges that
are outstanding are latched, or their callback comes next. -/
structure Inv (s : EdgeState κ) : Prop where
  registered : ∀ p i, s.bank.enabled p i = true → s.Registered p
  ev : ∀ p, IsEvents ((s.extiEv p).setWidth 32) ∧ (s.extiEv p ≠ 0 → s.Registered p)
  isr : s.isr.Sound s.Registered
  calls : ∀ context, SoundWrites s.Registered (s.calls context)
  outstanding : ∀ p type, Outstanding p type s.log →
    s.bank.latched p type.index = true ∨ s.isr = .acked p

lemma inv_initial : (initial : EdgeState κ).Inv where
  registered p i h := absurd h (by simp [initial, IoBank.enabled])
  ev p := ⟨by simp [initial, IsEvents], fun h => absurd rfl h⟩
  isr := trivial
  calls _ := trivial
  outstanding _ _ h := h.elim

/-- The writes of a call are sound. -/
lemma Inv.soundWrites (h : s.Inv) (call : ExtiCall κ) :
    SoundWrites s.Registered (s.writes call) := by
  have hset : ∀ pin enabled, SoundWrites s.Registered
      (gpioSetIrqEnabled pin ((s.extiEv pin).setWidth 32) enabled : List (ExtiWrite κ)) := by
    intro pin enabled
    obtain ⟨hevents, hreg⟩ := h.ev pin
    refine ⟨hevents, hevents, fun hne => hreg ?_, trivial⟩
    rintro h0
    rw [h0] at hne
    exact hne rfl
  cases call with
  | setCallback pin callback flags =>
    have hevents := isEvents_extiEvents flags
    exact ⟨hevents, fun _ => .inr rfl, hevents, hevents, fun _ => .inr rfl, trivial⟩
  | enable pin => exact hset pin true
  | disable pin => exact hset pin false

/-- When a call goes on, the rest of it has to be sound; the other calls are as before. -/
lemma Inv.soundWrites_update (h : s.Inv) {R : Fin 30 → Prop} (hR : ∀ p, s.Registered p → R p)
    (context : ℕ) {ws : List (ExtiWrite κ)} (hws : SoundWrites R ws) (c : ℕ) :
    SoundWrites R (Function.update s.calls context ws c) := by
  by_cases hc : c = context
  · subst hc
    rwa [Function.update_self]
  · rw [Function.update_of_ne hc]
    exact (h.calls c).mono hR

/-- A write keeps the invariant. -/
lemma Inv.write (h : s.Inv) {context : ℕ} {w : ExtiWrite κ} {ws : List (ExtiWrite κ)}
    (hcall : s.calls context = w :: ws) :
    (EdgeState.write { s with calls := Function.update s.calls context ws } w).Inv := by
  have hw := h.calls context
  rw [hcall] at hw
  cases w with
  | cb pin callback =>
    have hmono : ∀ p, s.Registered p ∨ p = pin →
        (Function.update s.extiCb pin (some callback) p).isSome = true := by
      intro p hp
      by_cases heq : p = pin
      · simp [heq]
      · rw [Function.update_of_ne heq]
        exact hp.resolve_right heq
    have hmono' := fun p hp => hmono p (.inl hp)
    exact ⟨fun p i hi => hmono' p (h.registered p i hi),
      fun p => ⟨(h.ev p).1, fun hne => hmono' p ((h.ev p).2 hne)⟩, h.isr.mono hmono',
      h.soundWrites_update hmono' context (SoundWrites.mono hmono hw), h.outstanding⟩
  | ev pin events =>
    refine ⟨h.registered, fun p => ?_, h.isr,
      h.soundWrites_update (fun _ => id) context hw.2.2, h.outstanding⟩
    dsimp only [EdgeState.write]
    by_cases hp : p = pin
    · subst hp
      rw [Function.update_self]
      exact ⟨hw.1, hw.2.1⟩
    · rw [Function.update_of_ne hp]
      exact h.ev p
  | intr pin events =>
    refine ⟨h.registered, h.ev, h.isr,
      h.soundWrites_update (fun _ => id) context hw.2, fun p type hout => ?_⟩
    obtain ⟨hnot, hrest⟩ := hout
    refine (h.outstanding p type hrest).imp_left fun hlatched => ?_
    simp only [EdgeState.write]
    rw [latched_gpioAcknowledgeIrq hw.1, hlatched]
    simpa [imp_iff_not_or] using hnot
  | inte pin events enabled =>
    refine ⟨fun p i hi => ?_, h.ev, h.isr,
      h.soundWrites_update (fun _ => id) context hw.2.2, h.outstanding⟩
    simp only [EdgeState.write] at hi
    rw [enabled_setBits hw.1] at hi
    split_ifs at hi with hbit
    · obtain ⟨rfl, hbit⟩ := hbit
      refine hw.2.1 ?_
      rintro rfl
      simp at hbit
    · exact h.registered p i hi

/-- The routine, at a pin that it has not acknowledged, does not wait for a callback. -/
lemma Inv.latched (h : s.Inv) (hacked : ∀ p, s.isr ≠ .acked p) {p : Fin 30} {type : EdgeType}
    (hout : Outstanding p type s.log) : s.bank.latched p type.index = true :=
  (h.outstanding p type hout).resolve_right (hacked p)

/-- A step of the routine that only moves on keeps the invariant. -/
lemma Inv.with_isr (h : s.Inv) (hacked : ∀ p, s.isr ≠ .acked p) {isr : IsrPc}
    (hisr : isr.Sound s.Registered) : Inv { s with isr := isr } :=
  ⟨h.registered, h.ev, hisr, h.calls, fun _ _ hout => .inl (h.latched hacked hout)⟩

/-- A step of `isr_io_bank0` keeps the invariant. -/
lemma Inv.isrIoBank0 (h : s.Inv) : s.isrIoBank0.Inv := by
  have hisr := h.isr
  rcases hpc : s.isr with _ | gpio | ⟨gpio, events⟩ | gpio | gpio <;>
    rw [hpc] at hisr <;> simp only [EdgeState.isrIoBank0, hpc]
  · exact h.with_isr (by simp [hpc]) trivial
  · split_ifs with hgpio hevents
    · obtain ⟨i, hi⟩ := exists_enabled_of_status hevents
      exact h.with_isr (by simp [hpc]) ⟨isEvents_status s _, h.registered _ i hi⟩
    · exact h.with_isr (by simp [hpc]) trivial
    · exact h.with_isr (by simp [hpc]) trivial
  · refine ⟨h.registered, h.ev, hisr.2, h.calls, fun p type hout => ?_⟩
    by_cases hp : gpio = p
    · exact .inr (hp ▸ rfl)
    · refine .inl ?_
      rw [latched_gpioAcknowledgeIrq hisr.1, h.latched (by simp [hpc]) hout]
      simp [hp]
  · obtain ⟨callback, hcb⟩ := Option.isSome_iff_exists.mp hisr
    rw [hcb]
    refine ⟨h.registered, h.ev, trivial, h.calls, fun p type hout => .inl ?_⟩
    obtain ⟨hne, hrest⟩ := hout
    refine (h.outstanding p type hrest).resolve_right fun hacked => hne ?_
    exact IsrPc.acked.inj (hpc.symm.trans hacked)
  · exact h.with_isr (by simp [hpc]) trivial

/-- An edge keeps the invariant. -/
lemma Inv.edge (h : s.Inv) (pin : Fin 30) (type : EdgeType) : (s.edge pin type).Inv := by
  refine ⟨h.registered, h.ev, h.isr, h.calls, fun p σ hout => ?_⟩
  have hkeep : Outstanding p σ s.log →
      (s.bank.edge pin type).latched p σ.index = true ∨ s.isr = .acked p := by
    intro hold
    refine (h.outstanding p σ hold).imp_left fun hlatched => ?_
    rw [latched_edge, hlatched, Bool.true_or]
  by_cases henabled : s.bank.enabled pin type.index = true
  · simp only [EdgeState.edge, if_pos henabled] at hout ⊢
    rcases hout with ⟨rfl, rfl⟩ | hold
    · exact .inl (by simp [latched_edge])
    · exact hkeep hold
  · simp only [EdgeState.edge, if_neg henabled] at hout ⊢
    exact hkeep hout

lemma Inv.step (h : s.Inv) {a : EdgeAct κ} (hst : s.step a = some t) : t.Inv := by
  cases a with
  | edge pin type =>
    obtain rfl := Option.some.inj hst
    exact h.edge pin type
  | isr =>
    obtain rfl := Option.some.inj hst
    exact h.isrIoBank0
  | call context call =>
    simp only [EdgeState.step] at hst
    split_ifs at hst
    obtain rfl := Option.some.inj hst
    exact ⟨h.registered, h.ev, h.isr,
      h.soundWrites_update (fun _ => id) context (h.soundWrites call), h.outstanding⟩
  | write context =>
    rcases hcall : s.calls context with _ | ⟨w, ws⟩ <;> simp only [EdgeState.step, hcall] at hst
    · simp at hst
    · obtain rfl := Option.some.inj hst
      exact h.write hcall

/-- No edge is lost in a state that satisfies the invariant. -/
lemma Inv.noLostEdge (h : s.Inv) : s.NoLostEdge := by
  intro pin type newer older hlog hcleared
  by_cases hcallback : ∃ callback, .callback pin callback ∈ newer
  · exact .inl hcallback
  · refine .inr (h.outstanding pin type ?_)
    rw [hlog]
    exact outstanding_append hcleared (not_exists.mp hcallback)

/-- The events of a pin are as they were. -/
def SameEvents (q : Fin 30) (s t : EdgeState κ) : Prop :=
  ∀ i, t.bank.latched q i = s.bank.latched q i ∧ t.bank.enabled q i = s.bank.enabled q i

/-- A write changes the events of its own pin only. -/
lemma sameEvents_write {R : Fin 30 → Prop} {w : ExtiWrite κ} {ws : List (ExtiWrite κ)}
    (hw : SoundWrites R (w :: ws)) {q : Fin 30} (hq : w.pin ≠ q) :
    SameEvents q s (s.write w) := by
  intro i
  cases w with
  | cb pin callback => exact ⟨rfl, rfl⟩
  | ev pin events => exact ⟨rfl, rfl⟩
  | intr pin events =>
    have hne : pin ≠ q := hq
    exact ⟨by simp [EdgeState.write, latched_gpioAcknowledgeIrq hw.1, hne], rfl⟩
  | inte pin events enabled =>
    have hne : pin ≠ q := hq
    exact ⟨rfl, by simp [EdgeState.write, enabled_setBits hw.1, hne]⟩

/-- The routine changes the events of the pin that it acknowledges only. -/
lemma Inv.sameEvents_isrIoBank0 (h : s.Inv) {q : Fin 30} (hq : s.pinOf .isr ≠ some q) :
    SameEvents q s s.isrIoBank0 := by
  intro i
  have hisr := h.isr
  rcases hpc : s.isr with _ | gpio | ⟨gpio, events⟩ | gpio | gpio <;>
    rw [hpc] at hisr <;> simp only [EdgeState.isrIoBank0, pinOf, hpc] at hq ⊢
  · trivial
  · split_ifs <;> trivial
  · have hne : gpio ≠ q := fun heq => hq (congrArg some heq)
    exact ⟨by simp [latched_gpioAcknowledgeIrq hisr.1, hne], rfl⟩
  · cases s.extiCb gpio <;> trivial
  · trivial

/-- A step changes the events of the pin that it is about, and of no other. -/
lemma Inv.sameEvents_step (h : s.Inv) {a : EdgeAct κ} (hst : s.step a = some t) {q : Fin 30}
    (hq : s.pinOf a ≠ some q) : SameEvents q s t := by
  cases a with
  | edge pin type =>
    obtain rfl := Option.some.inj hst
    have hne : pin ≠ q := fun heq => hq (congrArg some heq)
    exact fun i => ⟨by simp [EdgeState.edge, latched_edge, hne], rfl⟩
  | isr =>
    obtain rfl := Option.some.inj hst
    exact h.sameEvents_isrIoBank0 hq
  | call context call =>
    simp only [EdgeState.step] at hst
    split_ifs at hst
    obtain rfl := Option.some.inj hst
    exact fun i => ⟨rfl, rfl⟩
  | write context =>
    rcases hcall : s.calls context with _ | ⟨w, ws⟩ <;> simp only [EdgeState.step, hcall] at hst
    · simp at hst
    · obtain rfl := Option.some.inj hst
      have hw := h.calls context
      rw [hcall] at hw
      have hne : w.pin ≠ q := fun heq => hq (by simp [pinOf, hcall, heq])
      exact sameEvents_write hw hne

end EdgeState

/-! ### Runs -/

/-- **No lost edge.**  In every state of every run, with edges at any pins at any moment: every edge
of an enabled type, since the type was last enabled or disabled, is followed by the start of the
callback of the pin, or is latched, or was acknowledged and the callback comes next.  And no step
that is about one pin changes the latched or the enabled events of another. -/
theorem no_lost_edge (acts : List (EdgeAct κ)) (s : EdgeState κ)
    (hrun : exec EdgeState.step .initial acts = some s) :
    s.NoLostEdge ∧
      ∀ a t, s.step a = some t → ∀ q, s.pinOf a ≠ some q → ∀ i,
        t.bank.latched q i = s.bank.latched q i ∧ t.bank.enabled q i = s.bank.enabled q i := by
  have h : s.Inv := exec_inv (fun _ _ _ h hst => h.step hst) EdgeState.inv_initial hrun
  exact ⟨h.noLostEdge, fun a t hst q hq => h.sameEvents_step hst hq⟩

/-- Pins 1 and 2 are enabled.  There is an edge at pin 1, and another one after the routine has read
the status; it is in the callback of pin 1 when there is a third one, and an edge at pin 2. -/
def edgesAtTwoPins : List (EdgeAct ℕ) :=
  [.call 0 (.setCallback 1 100 0x01), .write 0, .write 0, .write 0, .write 0,
    .call 0 (.setCallback 2 200 0x03), .write 0, .write 0, .write 0, .write 0,
    .edge 1 .fall, .isr, .isr, .isr, .edge 1 .fall, .isr, .isr, .edge 1 .fall, .edge 2 .rise]

/-- The edges that come in the callback are latched. -/
theorem no_lost_edge_during_callback :
    ∃ s, exec EdgeState.step .initial edgesAtTwoPins = some s ∧ s.isr = .callback 1 ∧
      s.bank.latched 1 2 = true ∧ s.bank.latched 2 3 = true ∧ s.NoLostEdge :=
  ⟨_, rfl, rfl, rfl, rfl, (no_lost_edge edgesAtTwoPins _ rfl).1⟩

end JdPico
