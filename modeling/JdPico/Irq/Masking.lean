import JdPico.Lib.Run

/-!
# The interrupt mask

`target_disable_irq` and `target_enable_irq` of `platform.c` are used in pairs, which may be nested.
The mask of the processor and the counter `irq_disabled` are two pieces of state that are updated
one after the other, and a handler may start before any instruction that finds the mask clear.  So
the system is a stack of executions: the one on top runs, those below it were interrupted, and each
is somewhere in one of the two functions or outside of them (`IrqPc`).

An execution that is interrupted has no pair open, because a handler only starts while the mask is
clear.  What holds of the mask and the counter is therefore decided by the execution on top
(`IrqState.Inv`): they agree with its open pairs whenever it is in neither function, and in between
they are one instruction behind.  The counter is a signed byte, so at most 127 pairs may be open.
-/

namespace JdPico

open Machine

/-- Where an execution is with respect to the two functions. -/
inductive IrqPc where
  /-- In neither function. -/
  | out
  /-- `target_disable_irq` is called; `cpsid` comes next. -/
  | disable
  /-- After `cpsid`; `irq_disabled++` comes next. -/
  | masked
  /-- `target_enable_irq` is called; `irq_disabled--` comes next. -/
  | enable
  /-- After `irq_disabled--`; the test comes next. -/
  | decremented
  /-- The test found `irq_disabled <= 0`; `irq_disabled = 0` comes next. -/
  | released
  /-- After `irq_disabled = 0`; `cpsie` comes next. -/
  | cleared
  deriving DecidableEq, Repr

/-- An execution: the thread code or a handler. -/
structure IrqExec where
  pc : IrqPc
  /-- The pairs it has open: a pair is open from the return of `target_disable_irq` to the call of
  the matching `target_enable_irq`. -/
  openPairs : ℕ
  deriving DecidableEq, Repr

/-- The processor. -/
structure IrqState where
  /-- The mask of the processor: set by `cpsid`, cleared by `cpsie`. -/
  mask : Bool
  /-- `irq_disabled`. -/
  irqDisabled : Int8
  /-- The execution that runs. -/
  running : IrqExec
  /-- The executions that were interrupted, the latest first. -/
  suspended : List IrqExec
  deriving DecidableEq, Repr

namespace IrqState

/-- The thread code starts with interrupts enabled. -/
def initial : IrqState := ⟨false, 0, ⟨.out, 0⟩, []⟩

/-- The number of pairs that are open. -/
def openPairs (s : IrqState) : ℕ := s.running.openPairs + (s.suspended.map (·.openPairs)).sum

end IrqState

/-- The steps of the processor. -/
inductive IrqAct where
  /-- The running execution calls `target_disable_irq`. -/
  | callDisable
  /-- The running execution calls `target_enable_irq`, to close its innermost pair. -/
  | callEnable
  /-- The next instruction of the function that was called. -/
  | advance
  /-- A handler starts. -/
  | enter
  /-- The running handler, which has closed its pairs, returns. -/
  | leave
  deriving DecidableEq, Repr

namespace IrqState

/-- The next instruction of `target_disable_irq` or `target_enable_irq`. -/
def advance (s : IrqState) : Option IrqState :=
  match s.running.pc with
  | .out => none
  | .disable => some { s with mask := true, running := { s.running with pc := .masked } }
  | .masked =>
    some { s with
      irqDisabled := s.irqDisabled + 1
      running := ⟨.out, s.running.openPairs + 1⟩ }
  | .enable =>
    some { s with
      irqDisabled := s.irqDisabled - 1
      running := { s.running with pc := .decremented } }
  | .decremented =>
    some { s with
      running := { s.running with pc := if s.irqDisabled ≤ 0 then .released else .out } }
  | .released => some { s with irqDisabled := 0, running := { s.running with pc := .cleared } }
  | .cleared => some { s with mask := false, running := { s.running with pc := .out } }

/-- One step of the processor; `none` if it is not possible. -/
def step (s : IrqState) : IrqAct → Option IrqState
  | .callDisable =>
    if s.running.pc = .out then some { s with running := { s.running with pc := .disable } }
    else none
  | .callEnable =>
    if s.running.pc = .out ∧ 0 < s.running.openPairs then
      some { s with running := ⟨.enable, s.running.openPairs - 1⟩ }
    else none
  | .advance => s.advance
  | .enter =>
    if s.mask then none
    else some { s with running := ⟨.out, 0⟩, suspended := s.running :: s.suspended }
  | .leave =>
    match s.suspended with
    | [] => none
    | e :: es =>
      if s.running.pc = .out ∧ s.running.openPairs = 0 then
        some { s with running := e, suspended := es }
      else none

/-- What the drivers rely on. -/
structure Masking (s : IrqState) : Prop where
  /-- Interrupts are masked while a pair is open. -/
  masked : 0 < s.openPairs → s.mask = true
  /-- No handler starts while a pair is open. -/
  quiet : 0 < s.openPairs → s.step .enter = none
  /-- Outside of the two functions the counter is the number of open pairs. -/
  counter : s.running.pc = .out → s.irqDisabled.toInt = s.openPairs
  /-- Outside of the two functions the mask is clear exactly when no pair is open. -/
  clear : s.running.pc = .out → (s.mask = false ↔ s.openPairs = 0)

/-- The mask and the counter, when the running execution is at `pc` with `n` pairs open. -/
def Agrees (mask : Bool) (counter : Int8) (n : ℕ) : IrqPc → Prop
  | .out => counter = Int8.ofNat n ∧ mask = decide (0 < n)
  | .disable => counter = Int8.ofNat n ∧ mask = decide (0 < n)
  | .masked => counter = Int8.ofNat n ∧ mask = true
  -- the pair that is being closed is counted no more, but the counter still has it
  | .enable => counter = Int8.ofNat (n + 1) ∧ mask = true
  | .decremented => counter = Int8.ofNat n ∧ mask = true
  | .released => n = 0 ∧ mask = true
  | .cleared => n = 0 ∧ counter = 0 ∧ mask = true

/-- The mask and the counter follow the running execution, and those that were interrupted have no
pair open and are not past `cpsid`. -/
structure Inv (s : IrqState) : Prop where
  agrees : Agrees s.mask s.irqDisabled s.running.openPairs s.running.pc
  suspended : ∀ e ∈ s.suspended, e.openPairs = 0 ∧ (e.pc = .out ∨ e.pc = .disable)

lemma inv_initial : initial.Inv := ⟨⟨rfl, rfl⟩, by simp [initial]⟩

variable {s t : IrqState}

/-- Only the running execution has pairs open. -/
lemma Inv.openPairs_eq (h : s.Inv) : s.openPairs = s.running.openPairs := by
  have hzero : (s.suspended.map (·.openPairs)).sum = 0 := by
    rw [List.sum_eq_zero_iff]
    intro n hn
    obtain ⟨e, he, rfl⟩ := List.mem_map.mp hn
    exact (h.suspended e he).1
  rw [openPairs, hzero, Nat.add_zero]

/-- An execution that finds the mask clear has no pair open and is not past `cpsid`. -/
lemma Agrees.of_clear {counter : Int8} {n : ℕ} {pc : IrqPc} (h : Agrees false counter n pc) :
    n = 0 ∧ (pc = .out ∨ pc = .disable) ∧ counter = 0 := by
  cases pc with
  | out =>
    obtain ⟨hc, hm⟩ := h
    have hn : n = 0 := by simpa using hm
    exact ⟨hn, .inl rfl, by rw [hc, hn]; rfl⟩
  | disable =>
    obtain ⟨hc, hm⟩ := h
    have hn : n = 0 := by simpa using hm
    exact ⟨hn, .inr rfl, by rw [hc, hn]; rfl⟩
  | masked | enable | decremented | released => exact absurd h.2 (by decide)
  | cleared => exact absurd h.2.2 (by decide)

/-- The test of `target_enable_irq` tells whether the last pair was closed. -/
lemma ofNat_le_zero_iff {n : ℕ} (hn : n ≤ 127) : Int8.ofNat n ≤ 0 ↔ n = 0 := by
  rw [show (0 : Int8) = Int8.ofNat 0 from rfl, Int8.ofNat_le_iff_le (by omega) (by omega)]
  exact Nat.le_zero

/-- One instruction keeps the agreement, as long as the counter has room for the open pairs. -/
lemma Inv.advance (h : s.Inv) (hroom : s.openPairs ≤ 127) (hst : s.advance = some t) : t.Inv := by
  rw [h.openPairs_eq] at hroom
  obtain ⟨mask, counter, ⟨pc, n⟩, suspended⟩ := s
  obtain ⟨hag, hsus⟩ := h
  dsimp only at hroom hag hsus
  cases pc with
  | out => exact absurd hst (by simp [IrqState.advance])
  | disable =>
    obtain rfl := Option.some.inj hst
    exact ⟨⟨hag.1, rfl⟩, hsus⟩
  | masked =>
    obtain rfl := Option.some.inj hst
    refine ⟨⟨?_, ?_⟩, hsus⟩
    · rw [Int8.ofNat_add, ← hag.1]
      rfl
    · simpa using hag.2
  | enable =>
    obtain rfl := Option.some.inj hst
    refine ⟨⟨?_, hag.2⟩, hsus⟩
    have hcounter : counter = Int8.ofNat n + 1 := by
      rw [hag.1, Int8.ofNat_add]
      rfl
    rw [hcounter]
    exact Int8.add_sub_cancel _ _
  | decremented =>
    obtain rfl := Option.some.inj hst
    refine ⟨?_, hsus⟩
    have htest : counter ≤ 0 ↔ n = 0 := hag.1 ▸ ofNat_le_zero_iff hroom
    by_cases hzero : n = 0
    · rw [if_pos (htest.mpr hzero)]
      exact ⟨hzero, hag.2⟩
    · rw [if_neg (htest.not.mpr hzero)]
      exact ⟨hag.1, hag.2.trans (decide_eq_true (Nat.pos_of_ne_zero hzero)).symm⟩
  | released =>
    obtain rfl := Option.some.inj hst
    exact ⟨⟨hag.1, rfl, hag.2⟩, hsus⟩
  | cleared =>
    obtain rfl := Option.some.inj hst
    obtain ⟨rfl, hcounter, -⟩ : n = 0 ∧ counter = 0 ∧ mask = true := hag
    exact ⟨⟨hcounter, rfl⟩, hsus⟩

/-- One step keeps the invariant. -/
lemma Inv.step {a : IrqAct} (h : s.Inv) (hroom : s.openPairs ≤ 127) (hst : s.step a = some t) :
    t.Inv := by
  have hag := h.agrees
  cases a with
  | callDisable =>
    obtain ⟨hpc, ht⟩ := Option.ite_none_right_eq_some.mp hst
    obtain rfl := Option.some.inj ht
    rw [hpc] at hag
    exact ⟨hag, h.suspended⟩
  | callEnable =>
    obtain ⟨⟨hpc, hpos⟩, ht⟩ := Option.ite_none_right_eq_some.mp hst
    obtain rfl := Option.some.inj ht
    rw [hpc] at hag
    refine ⟨⟨?_, ?_⟩, h.suspended⟩
    · rw [hag.1, Nat.sub_add_cancel hpos]
    · simpa using hag.2.trans (decide_eq_true hpos)
  | advance => exact h.advance hroom hst
  | enter =>
    obtain ⟨hmask, ht⟩ := Option.ite_none_left_eq_some.mp hst
    obtain rfl := Option.some.inj ht
    rw [Bool.not_eq_true] at hmask
    rw [hmask] at hag
    obtain ⟨hzero, hout, hcounter⟩ := hag.of_clear
    refine ⟨⟨hcounter, hmask⟩, ?_⟩
    intro e he
    rcases List.mem_cons.mp he with rfl | he
    · exact ⟨hzero, hout⟩
    · exact h.suspended e he
  | leave =>
    cases hsus : s.suspended with
    | nil => simp [IrqState.step, hsus] at hst
    | cons e es =>
      simp only [IrqState.step, hsus] at hst
      obtain ⟨⟨hpc, hzero⟩, ht⟩ := Option.ite_none_right_eq_some.mp hst
      obtain rfl := Option.some.inj ht
      rw [hpc, hzero] at hag
      have hsuspended := h.suspended
      rw [hsus] at hsuspended
      obtain ⟨hopen, hout⟩ := hsuspended e List.mem_cons_self
      refine ⟨?_, fun e' he' => hsuspended e' (List.mem_cons_of_mem _ he')⟩
      rcases hout with hout | hout <;> (rw [hopen, hout]; exact hag)

/-- The mask is set while the running execution has a pair open. -/
lemma Inv.masked (h : s.Inv) (hpos : 0 < s.openPairs) : s.mask = true := by
  rw [h.openPairs_eq] at hpos
  by_contra hmask
  have hag := h.agrees
  rw [Bool.not_eq_true] at hmask
  rw [hmask] at hag
  exact absurd hag.of_clear.1 hpos.ne'

lemma Inv.masking (h : s.Inv) (hroom : s.openPairs ≤ 127) : s.Masking where
  masked := h.masked
  quiet hpos := if_pos (h.masked hpos)
  counter hpc := by
    have hag := h.agrees
    rw [hpc] at hag
    rw [hag.1, h.openPairs_eq] at *
    exact Int8.toInt_ofNat_of_lt (by omega)
  clear hpc := by
    have hag := h.agrees
    rw [hpc] at hag
    rw [hag.2, h.openPairs_eq]
    simp

end IrqState

/-- **Nested masking.**  In every run in which never more than 127 pairs are open, whatever is
interrupted by what: interrupts are masked and no handler starts while a pair is open, and outside
of the two functions the counter is the number of open pairs and the mask is clear exactly when
there is none. -/
theorem irq_masking (acts : List IrqAct) (s : IrqState)
    (hrun : exec IrqState.step .initial acts = some s)
    (hroom : AllStates IrqState.step (fun s => s.openPairs ≤ 127) .initial acts) : s.Masking := by
  obtain ⟨hinv, hlast⟩ := exec_inv_of_allStates (fun _ _ _ h hQ hst => IrqState.Inv.step h hQ hst)
    IrqState.inv_initial hroom hrun
  exact hinv.masking hlast

/-- A handler that starts before the `cpsid` of the thread code and uses a pair of its own; the
thread code then opens two. -/
def interruptedDisable : List IrqAct :=
  [.callDisable, .enter, .callDisable, .advance, .advance, .callEnable, .advance, .advance,
    .advance, .advance, .leave, .advance, .advance, .callDisable, .advance, .advance]

theorem irq_masking_interrupted :
    ∃ s, exec IrqState.step .initial interruptedDisable = some s ∧ s.openPairs = 2 ∧ s.Masking := by
  refine ⟨_, rfl, rfl, ?_⟩
  exact irq_masking interruptedDisable _ rfl (by decide)

end JdPico
