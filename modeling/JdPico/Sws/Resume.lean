import JdPico.Lib.Run
import JdPico.Sws.Receive

/-!
# Receptions one after the other

`uart_disable` stops the receiver where it is and `uart_start_rx` lets it go on from there; the call
that would initialise it again is commented out.  What the next reception starts from is therefore
what the last one left: the place in the program, the bits in the input shift register and the words
in the RX FIFO (`RxUnit`).

Where the receiver is in its program is decided by the line alone (`RxPhase`): a low level while it
waits starts a character, which takes 77 cycles to the end of the stop bit.  If the receiver is only
stopped between two characters, and no character is completed after the buffer is full
(`BetweenCharacters`), it is stopped at one of its two waits with nothing left over.  What the next
reception stores then depends on the line only, provided the line is high in its first two cycles:
at one of the waits a low level is taken for a start bit, at the other one for the rest of a break.
-/

namespace JdPico

open Pio

/-! ### The receiver and its DMA channel -/

/-- The depth of the RX FIFO, which takes the place of the TX FIFO too (`PIO_FIFO_JOIN_RX`). -/
def rxFifoSize : ℕ := 8

/-- The receiver with its DMA channel. -/
structure RxUnit where
  sm : Sm
  enabled : Bool
  /-- The words taken from the RX FIFO so far. -/
  read : ℕ
  /-- The transfers the DMA channel has left. -/
  count : ℕ
  /-- The bytes stored since `uart_start_rx`. -/
  stored : List (BitVec 8)

namespace RxUnit

/-- The receiver after `uart_init_`. -/
def initial : RxUnit := ⟨smStart, false, 0, 0, []⟩

/-- The words in the RX FIFO. -/
def fifo (u : RxUnit) : List (BitVec 32) := u.sm.pushed.drop u.read

/-- The DMA channel takes what is in the FIFO, as far as it has transfers left. -/
def drain (u : RxUnit) : RxUnit :=
  let ws := u.fifo.take u.count
  { u with
    read := u.read + ws.length
    count := u.count - ws.length
    stored := u.stored ++ ws.map dmaByte }

/-- The next cycle shifts in the bit that completes a byte. -/
def completes (u : RxUnit) : Prop := u.sm.delay = 0 ∧ u.sm.pc = 3 ∧ u.sm.isrCount = 7

instance (u : RxUnit) : Decidable u.completes :=
  inferInstanceAs (Decidable (u.sm.delay = 0 ∧ u.sm.pc = 3 ∧ u.sm.isrCount = 7))

/-- One cycle of the receiver.  The `in` that completes a byte waits while the FIFO is full. -/
def cycle (line : Bool) (u : RxUnit) : RxUnit :=
  if u.enabled = false ∨ (u.completes ∧ rxFifoSize ≤ u.fifo.length) then u
  else drain { u with sm := Pio.cycle jdRx jdRxConfig ⟨line, []⟩ u.sm }

/-- `uart_start_rx`, as far as the receiver is concerned: it goes on, and its DMA channel is
started. -/
def uartStartRx (len : ℕ) (u : RxUnit) : RxUnit :=
  drain { u with enabled := true, count := len, stored := [] }

/-- `uart_disable`, as far as the receiver is concerned: it stops, and its DMA channel is
aborted. -/
def uartDisable (u : RxUnit) : RxUnit := { u with enabled := false, count := 0 }

/-- The receiver is at one of its line waits, with no bits in its input shift register and an empty
RX FIFO. -/
structure Clean (u : RxUnit) : Prop where
  pc : u.sm.pc = 0 ∨ u.sm.pc = 8
  delay : u.sm.delay = 0
  isrCount : u.sm.isrCount = 0
  isr : u.sm.isr = 0
  fifo : u.fifo = []

/-- The bytes a reception stores while the line takes the given levels. -/
def receive (len : ℕ) (levels : List Bool) (u : RxUnit) : List (BitVec 8) :=
  (levels.foldl (fun u line => u.cycle line) (u.uartStartRx len)).stored

end RxUnit

/-! ### What a character does to the receiver -/

/-- The part of the receiver that decides where it goes next. -/
structure RxCtl where
  pc : ℕ
  delay : ℕ
  isrCount : ℕ
  x : BitVec 32
  deriving DecidableEq, Repr

/-- The control part of a state. -/
def rxCtl (s : Sm) : RxCtl := ⟨s.pc, s.delay, s.isrCount, s.x⟩

/-- A state with a given control part. -/
def RxCtl.toSm (c : RxCtl) : Sm :=
  { smStart with pc := c.pc, delay := c.delay, isrCount := c.isrCount, x := c.x }

/-- One cycle of the receiver program. -/
def rxCycle (line : Bool) (s : Sm) : Sm := cycle jdRx jdRxConfig ⟨line, []⟩ s

/-- The control part after one cycle. -/
def RxCtl.next (line : Bool) (c : RxCtl) : RxCtl := rxCtl (rxCycle line c.toSm)

/-- At its first instruction the receiver waits while the line is high. -/
lemma RxCtl.next_wait (line : Bool) (isrCount : ℕ) (x : BitVec 32) :
    RxCtl.next line ⟨0, 0, isrCount, x⟩ = ⟨if line then 0 else 1, 0, isrCount, x⟩ := by
  cases line <;> rfl

/-- The second instruction sets the bit counter. -/
lemma RxCtl.next_set (line : Bool) (isrCount : ℕ) (x : BitVec 32) :
    RxCtl.next line ⟨1, 0, isrCount, x⟩ = ⟨2, 7, isrCount, 7⟩ := rfl

/-- The receiver program does not look at the TX FIFO. -/
lemma jdRx_op_ne_pull (pc : ℕ) : (jdRx.getD pc ⟨.nop, none, 0⟩).op ≠ .pull := by
  by_cases hpc : pc < 11
  · interval_cases pc <;> decide
  · have hnone : jdRx[pc]? = none := List.getElem?_eq_none (by simpa [jdRx] using hpc)
    simp [List.getD, hnone]

/-- What an operation other than `pull` does to the control part is decided by the control part. -/
lemma rxCtl_issue {op : Op} (hop : op ≠ .pull) {s t : Sm} (h : rxCtl s = rxCtl t) (len delay : ℕ)
    (pin : Bool) :
    rxCtl (op.issue jdRxConfig len delay pin s) = rxCtl (op.issue jdRxConfig len delay pin t) := by
  simp only [rxCtl, RxCtl.mk.injEq] at h
  obtain ⟨hpc, hdelay, hcount, hx⟩ := h
  cases op with
  | jmp cond target =>
    cases cond with
    | always => simp [Op.issue, rxCtl, hcount, hx]
    | xDec =>
      simp only [Op.issue, hx]
      split <;> simp [rxCtl, Sm.next, hpc, hcount]
    | pin =>
      simp only [Op.issue]
      split <;> simp [rxCtl, Sm.next, hpc, hcount, hx]
  | wait level =>
    simp only [Op.issue]
    split <;> simp [rxCtl, Sm.next, hpc, hdelay, hcount, hx]
  | inPin =>
    by_cases hfull : some (t.isrCount + 1) = jdRxConfig.autopush <;>
      simp [Op.issue, Sm.autopush, Sm.shiftIn, rxCtl, Sm.next, hpc, hcount, hx, hfull]
  | outPin => simp [Op.issue, Sm.shiftOut, jdRxConfig, rxCtl, Sm.next, hpc, hcount, hx]
  | pull => exact absurd rfl hop
  | setX v => simp [Op.issue, rxCtl, Sm.next, hpc, hcount]
  | irq n => simp [Op.issue, rxCtl, Sm.next, hpc, hcount, hx]
  | nop => simp [Op.issue, rxCtl, Sm.next, hpc, hcount, hx]

/-- The control part goes its own way. -/
lemma rxCtl_rxCycle (line : Bool) (s : Sm) : rxCtl (rxCycle line s) = (rxCtl s).next line := by
  have hside : ∀ (s : Sm) side, rxCtl (s.sideSet side) = rxCtl s := by
    intro s side
    cases side <;> rfl
  unfold RxCtl.next rxCycle cycle issue
  by_cases hd : s.delay = 0
  · rw [if_pos hd, if_pos (show (rxCtl s).toSm.delay = 0 from hd), Sm.feed_nil, Sm.feed_nil]
    have hpc : (rxCtl s).toSm.pc = s.pc := rfl
    rw [hpc]
    refine rxCtl_issue (jdRx_op_ne_pull _) ?_ _ _ _
    rw [hside, hside]
    rfl
  · rw [if_neg hd, if_neg (show ¬ (rxCtl s).toSm.delay = 0 from hd), Sm.feed_nil, Sm.feed_nil]
    rfl

/-- How far the receiver is, as the line tells. -/
inductive RxPhase where
  /-- It waits for a start bit. -/
  | idle
  /-- It found the line low `k` cycles ago and has not looked at the stop bit. -/
  | char (k : ℕ)
  /-- It found a stop bit. -/
  | good
  /-- It found none. -/
  | bad
  /-- It waits for the line to go high. -/
  | broken
  /-- It found the line high again. -/
  | recover
  deriving DecidableEq, Repr

/-- The phase after one more cycle. -/
def RxPhase.next (line : Bool) : RxPhase → RxPhase
  | .idle => if line then .idle else .char 1
  | .char k => if k = 75 then (if line then .good else .bad) else .char (k + 1)
  | .good => .idle
  | .bad => .broken
  | .broken => if line then .recover else .broken
  | .recover => .idle

/-- The control part of the receiver in the middle of a character, once its bit counter is set. -/
def charCtl (k : ℕ) : RxCtl :=
  let x := 7 - BitVec.ofNat 32 ((k - 6) / 8)
  if k ≤ 9 then ⟨2, 9 - k, 0, x⟩
  else if k ≤ 11 then ⟨3, 11 - k, 0, x⟩
  else
    let bits := ((k - 12) / 8 + 1) % 8
    match (k - 12) % 8 with
    | 0 => ⟨4, 0, bits, x⟩
    | 1 => ⟨5, 0, bits, x⟩
    | j => ⟨if k < 70 then 3 else 6, 7 - j, bits, x⟩

/-- The receiver is in the phase. -/
def RxPhase.At (c : RxCtl) : RxPhase → Prop
  | .idle => c.pc = 0 ∧ c.delay = 0 ∧ c.isrCount = 0
  | .char 1 => c.pc = 1 ∧ c.delay = 0 ∧ c.isrCount = 0
  | .char k => 2 ≤ k ∧ k ≤ 75 ∧ c = charCtl k
  | .good => c.pc = 10 ∧ c.delay = 0 ∧ c.isrCount = 0
  | .bad => c.pc = 7 ∧ c.delay = 0 ∧ c.isrCount = 0
  | .broken => c.pc = 8 ∧ c.delay = 0 ∧ c.isrCount = 0
  | .recover => c.pc = 9 ∧ c.delay = 0 ∧ c.isrCount = 0

/-- The receiver is at the `set` of a character, or where the cycle of the character says. -/
lemma RxPhase.At.char_cases {c : RxCtl} {k : ℕ} (h : (RxPhase.char k).At c) :
    k = 1 ∧ c.pc = 1 ∨ 2 ≤ k ∧ k ≤ 75 ∧ c = charCtl k := by
  rcases k with - | - | k
  · exact absurd h.1 (by decide)
  · exact .inl ⟨rfl, h.1⟩
  · exact .inr h

/-- The cycles of a character, up to the one that looks at the stop bit. -/
lemma charCtl_next (line : Bool) : ∀ k < 75, 2 ≤ k → (charCtl k).next line = charCtl (k + 1) := by
  cases line <;> decide +kernel

/-- The phase follows the receiver. -/
lemma RxPhase.At.next {c : RxCtl} {ph : RxPhase} (h : ph.At c) (line : Bool) :
    (ph.next line).At (c.next line) := by
  obtain ⟨pc, delay, isrCount, x⟩ := c
  cases ph with
  | char k =>
    rcases k with - | - | k
    · exact absurd h.1 (by decide)
    · obtain ⟨rfl, rfl, rfl⟩ : pc = 1 ∧ delay = 0 ∧ isrCount = 0 := h
      exact ⟨by decide, by decide, rfl⟩
    · obtain ⟨-, hk, hc⟩ : 2 ≤ k + 2 ∧ k + 2 ≤ 75 ∧ _ = charCtl (k + 2) := h
      rw [hc]
      by_cases hlast : k + 2 = 75
      · rw [RxPhase.next, if_pos hlast, hlast]
        cases line <;> exact ⟨rfl, rfl, rfl⟩
      · rw [RxPhase.next, if_neg hlast, charCtl_next line _ (by omega) (by omega)]
        exact ⟨by omega, by omega, rfl⟩
  | idle =>
    obtain ⟨rfl, rfl, rfl⟩ : pc = 0 ∧ delay = 0 ∧ isrCount = 0 := h
    cases line <;> exact ⟨rfl, rfl, rfl⟩
  | good =>
    obtain ⟨rfl, rfl, rfl⟩ : pc = 10 ∧ delay = 0 ∧ isrCount = 0 := h
    exact ⟨rfl, rfl, rfl⟩
  | bad =>
    obtain ⟨rfl, rfl, rfl⟩ : pc = 7 ∧ delay = 0 ∧ isrCount = 0 := h
    exact ⟨rfl, rfl, rfl⟩
  | broken =>
    obtain ⟨rfl, rfl, rfl⟩ : pc = 8 ∧ delay = 0 ∧ isrCount = 0 := h
    cases line <;> exact ⟨rfl, rfl, rfl⟩
  | recover =>
    obtain ⟨rfl, rfl, rfl⟩ : pc = 9 ∧ delay = 0 ∧ isrCount = 0 := h
    exact ⟨rfl, rfl, rfl⟩

/-- The `in` is the fourth instruction of the receiver. -/
lemma jdRx_op_eq_inPin (pc : ℕ) : (jdRx.getD pc ⟨.nop, none, 0⟩).op = .inPin ↔ pc = 3 := by
  by_cases hpc : pc < 11
  · interval_cases pc <;> decide
  · have hnone : jdRx[pc]? = none := List.getElem?_eq_none (by simpa [jdRx] using hpc)
    have hne : pc ≠ 3 := by omega
    simp [List.getD, hnone, hne]

/-- Operations other than `in` and `pull` leave the shift register and the RX FIFO alone. -/
lemma issue_data {op : Op} (hpull : op ≠ .pull) (hin : op ≠ .inPin) (len delay : ℕ) (pin : Bool)
    (s : Sm) :
    (op.issue jdRxConfig len delay pin s).isr = s.isr ∧
      (op.issue jdRxConfig len delay pin s).isrCount = s.isrCount ∧
      (op.issue jdRxConfig len delay pin s).pushed = s.pushed := by
  cases op with
  | jmp cond target =>
    cases cond with
    | always => exact ⟨rfl, rfl, rfl⟩
    | xDec =>
      simp only [Op.issue]
      split <;> exact ⟨rfl, rfl, rfl⟩
    | pin =>
      simp only [Op.issue]
      split <;> exact ⟨rfl, rfl, rfl⟩
  | wait level =>
    simp only [Op.issue]
    split <;> exact ⟨rfl, rfl, rfl⟩
  | inPin => exact absurd rfl hin
  | outPin => exact ⟨rfl, rfl, rfl⟩
  | pull => exact absurd rfl hpull
  | setX v => exact ⟨rfl, rfl, rfl⟩
  | irq n => exact ⟨rfl, rfl, rfl⟩
  | nop => exact ⟨rfl, rfl, rfl⟩

/-- A cycle that does not issue the `in` leaves the shift register and the RX FIFO alone. -/
lemma rxCycle_other (line : Bool) {s : Sm} (h : ¬ (s.delay = 0 ∧ s.pc = 3)) :
    (rxCycle line s).isr = s.isr ∧ (rxCycle line s).isrCount = s.isrCount ∧
      (rxCycle line s).pushed = s.pushed := by
  unfold rxCycle cycle issue
  by_cases hd : s.delay = 0
  · rw [if_pos hd, Sm.feed_nil]
    have hin : (jdRx.getD s.pc ⟨.nop, none, 0⟩).op ≠ .inPin := fun hin =>
      h ⟨hd, (jdRx_op_eq_inPin s.pc).mp hin⟩
    have hside : ∀ side, (s.sideSet side).isr = s.isr ∧ (s.sideSet side).isrCount = s.isrCount ∧
        (s.sideSet side).pushed = s.pushed := by
      intro side
      cases side <;> exact ⟨rfl, rfl, rfl⟩
    obtain ⟨h₁, h₂, h₃⟩ := hside (jdRx.getD s.pc ⟨.nop, none, 0⟩).side
    obtain ⟨g₁, g₂, g₃⟩ := issue_data (jdRx_op_ne_pull s.pc) hin jdRx.length
      (jdRx.getD s.pc ⟨.nop, none, 0⟩).delay line (s.sideSet (jdRx.getD s.pc ⟨.nop, none, 0⟩).side)
    exact ⟨g₁.trans h₁, g₂.trans h₂, g₃.trans h₃⟩
  · rw [if_neg hd, Sm.feed_nil]
    exact ⟨rfl, rfl, rfl⟩

/-- A cycle that issues the `in` shifts a bit in, and pushes the eighth. -/
lemma rxCycle_in (line : Bool) {s : Sm} (hd : s.delay = 0) (hpc : s.pc = 3) :
    (rxCycle line s).isr = (if s.isrCount = 7 then 0 else shiftRight s.isr line) ∧
      (rxCycle line s).isrCount = (if s.isrCount = 7 then 0 else s.isrCount + 1) ∧
      (rxCycle line s).pushed =
        s.pushed ++ (if s.isrCount = 7 then [shiftRight s.isr line] else []) := by
  by_cases hcount : s.isrCount = 7 <;>
    simp [rxCycle, cycle, issue, jdRx, jdRxConfig, hd, hpc, Op.issue, Sm.sideSet, Sm.next,
      Sm.shiftIn, Sm.autopush, shiftRight, hcount]

/-! ### Runs -/

/-- The receiver and its phase. -/
structure RxRun where
  unit : RxUnit
  phase : RxPhase

/-- What happens to the receiver. -/
inductive RxAct where
  /-- A cycle, with the level of the line. -/
  | cycle (line : Bool)
  | uartStartRx (len : ℕ)
  /-- `uart_disable`: after a break, after the last byte of the buffer, or by a timeout. -/
  | uartDisable

/-- One step of the receiver; a reception is started only when none is in progress. -/
def RxRun.step (p : RxRun) : RxAct → Option RxRun
  | .cycle line => some ⟨p.unit.cycle line, if p.unit.enabled then p.phase.next line else p.phase⟩
  | .uartStartRx len => if p.unit.enabled then none else some ⟨p.unit.uartStartRx len, p.phase⟩
  | .uartDisable => some ⟨p.unit.uartDisable, p.phase⟩

/-- The receiver after `uart_init_`. -/
def RxRun.initial : RxRun := ⟨.initial, .idle⟩

/-- The reception is not ended in the middle of a character, and no character is completed when the
buffer is full: its last bit comes 67 cycles after the start bit. -/
def BetweenCharacters (p : RxRun) : RxAct → Prop
  | .cycle _ => p.unit.enabled = true → p.phase = .char 67 → 0 < p.unit.count
  | .uartStartRx _ => True
  | .uartDisable => p.unit.enabled = true → p.phase = .idle ∨ p.phase = .broken

instance (p : RxRun) (a : RxAct) : Decidable (BetweenCharacters p a) :=
  match a with
  | .cycle _ => inferInstanceAs (Decidable (p.unit.enabled = true → p.phase = .char 67 →
    0 < p.unit.count))
  | .uartStartRx _ => .isTrue trivial
  | .uartDisable =>
    inferInstanceAs (Decidable (p.unit.enabled = true → p.phase = .idle ∨ p.phase = .broken))

/-- The receiver is where its phase says, nothing is left in the FIFO, and a receiver that is
stopped is between two characters. -/
structure RxRun.Inv (p : RxRun) : Prop where
  at_phase : p.phase.At (rxCtl p.unit.sm)
  isr : p.unit.sm.isrCount = 0 → p.unit.sm.isr = 0
  read : p.unit.read = p.unit.sm.pushed.length
  stopped : p.unit.enabled = false → p.phase = .idle ∨ p.phase = .broken

/-- The bit that completes a byte is the one 67 cycles after the start bit. -/
lemma RxPhase.At.completes_iff {u : RxUnit} {ph : RxPhase} (h : ph.At (rxCtl u.sm)) :
    u.completes ↔ ph = .char 67 := by
  have hchar : ∀ k < 76, 2 ≤ k →
      ((charCtl k).delay = 0 ∧ (charCtl k).pc = 3 ∧ (charCtl k).isrCount = 7 ↔ k = 67) := by
    decide +kernel
  have hpc : u.sm.pc ≠ 3 → (u.completes ↔ False) := fun hne => ⟨fun hc => hne hc.2.1, False.elim⟩
  cases ph with
  | char k =>
    rcases h.char_cases with ⟨rfl, h1⟩ | ⟨hlow, hhigh, hc⟩
    · have h1 : u.sm.pc = 1 := h1
      simp [hpc (by omega)]
    · have := hchar k (by omega) hlow
      rw [← hc] at this
      rw [RxPhase.char.injEq]
      exact this
  | idle | good | bad | broken | recover =>
    have h1 := h.1
    rw [show (rxCtl u.sm).pc = u.sm.pc from rfl] at h1
    simp [hpc (by omega)]

/-- The shift register is empty when it holds no bits. -/
lemma isr_rxCycle {line : Bool} {s : Sm} (h : s.isrCount = 0 → s.isr = 0) :
    (rxCycle line s).isrCount = 0 → (rxCycle line s).isr = 0 := by
  by_cases hin : s.delay = 0 ∧ s.pc = 3
  · obtain ⟨hisr, hcount, -⟩ := rxCycle_in line hin.1 hin.2
    rw [hisr, hcount]
    split
    · exact fun _ => rfl
    · exact fun hne => absurd hne (Nat.succ_ne_zero _)
  · obtain ⟨hisr, hcount, -⟩ := rxCycle_other line hin
    rwa [hisr, hcount]

/-- The words pushed by a cycle are those it completes. -/
lemma pushed_rxCycle (line : Bool) (u : RxUnit) :
    (rxCycle line u.sm).pushed =
      u.sm.pushed ++ (if u.completes then [shiftRight u.sm.isr line] else []) := by
  by_cases hin : u.sm.delay = 0 ∧ u.sm.pc = 3
  · rw [(rxCycle_in line hin.1 hin.2).2.2]
    simp [RxUnit.completes, hin]
  · rw [(rxCycle_other line hin).2.2, if_neg fun hc => hin ⟨hc.1, hc.2.1⟩, List.append_nil]

/-- The channel has nothing to do while the FIFO is empty. -/
lemma RxUnit.drain_of_fifo_nil {u : RxUnit} (h : u.fifo = []) : u.drain = u := by
  simp [RxUnit.drain, h]

lemma RxRun.Inv.fifo {p : RxRun} (h : p.Inv) : p.unit.fifo = [] := by
  simp [RxUnit.fifo, h.read]

/-- A cycle keeps the invariant, if there is room in the buffer for a character it completes. -/
lemma RxRun.Inv.cycle {p : RxRun} (h : p.Inv) (line : Bool)
    (hC : BetweenCharacters p (.cycle line)) :
    RxRun.Inv ⟨p.unit.cycle line, if p.unit.enabled then p.phase.next line else p.phase⟩ := by
  cases hen : p.unit.enabled with
  | false =>
    have hsame : p.unit.cycle line = p.unit := if_pos (.inl hen)
    rw [hsame]
    exact h
  | true =>
    have hroom : ¬ (p.unit.enabled = false ∨ (p.unit.completes ∧
      rxFifoSize ≤ p.unit.fifo.length)) := by
      simp [hen, h.fifo, rxFifoSize]
    have hcycle : p.unit.cycle line = RxUnit.drain { p.unit with sm := rxCycle line p.unit.sm } :=
      if_neg hroom
    have hpush := pushed_rxCycle line p.unit
    rw [hcycle, if_pos rfl]
    refine ⟨?_, isr_rxCycle h.isr, ?_, fun hoff => absurd (hen.symm.trans hoff) (by decide)⟩
    · have := h.at_phase.next line
      rwa [← rxCtl_rxCycle] at this
    · simp only [RxUnit.drain, RxUnit.fifo, hpush, h.read, List.drop_left]
      by_cases hc : p.unit.completes
      · have hcount := hC hen (h.at_phase.completes_iff.mp hc)
        have htake : List.take p.unit.count [shiftRight p.unit.sm.isr line] =
          [shiftRight p.unit.sm.isr line] :=
          List.take_of_length_le (Nat.succ_le_of_lt hcount)
        simp [hc, htake]
      · simp [hc]

/-- One step keeps the invariant. -/
lemma RxRun.Inv.step {p q : RxRun} {a : RxAct} (h : p.Inv) (hC : BetweenCharacters p a)
    (hst : p.step a = some q) : q.Inv := by
  cases a with
  | cycle line => exact Option.some.inj hst ▸ h.cycle line hC
  | uartStartRx len =>
    obtain ⟨hen, hq⟩ := Option.ite_none_left_eq_some.mp hst
    obtain rfl := Option.some.inj hq
    have hfifo : RxUnit.fifo { p.unit with enabled := true, count := len, stored := [] } = [] :=
      h.fifo
    rw [RxUnit.uartStartRx, RxUnit.drain_of_fifo_nil hfifo]
    exact ⟨h.at_phase, h.isr, h.read, fun hoff => absurd hoff (by simp)⟩
  | uartDisable =>
    obtain rfl := Option.some.inj hst
    refine ⟨h.at_phase, h.isr, h.read, fun _ => ?_⟩
    cases hen : p.unit.enabled with
    | false => exact h.stopped hen
    | true => exact hC hen

/-- A receiver that is stopped is clean. -/
lemma RxRun.Inv.clean {p : RxRun} (h : p.Inv) (hoff : p.unit.enabled = false) : p.unit.Clean := by
  have hat := h.at_phase
  rcases h.stopped hoff with hph | hph
  · rw [hph] at hat
    obtain ⟨hpc, hdelay, hcount⟩ := hat
    exact ⟨.inl hpc, hdelay, hcount, h.isr hcount, h.fifo⟩
  · rw [hph] at hat
    obtain ⟨hpc, hdelay, hcount⟩ := hat
    exact ⟨.inr hpc, hdelay, hcount, h.isr hcount, h.fifo⟩

/-! ### Two histories -/

/-- Two receivers that do the same with the line from now on.  The bit counter matters only within a
character. -/
structure RxUnit.Alike (u v : RxUnit) : Prop where
  pc : u.sm.pc = v.sm.pc
  delay : u.sm.delay = v.sm.delay
  isrCount : u.sm.isrCount = v.sm.isrCount
  isr : u.sm.isr = v.sm.isr
  x : u.sm.x = v.sm.x ∨ (u.sm.pc = 0 ∨ u.sm.pc = 1) ∧ u.sm.delay = 0
  enabled : u.enabled = v.enabled
  fifo : u.fifo = v.fifo
  count : u.count = v.count
  stored : u.stored = v.stored
  read_left : u.read ≤ u.sm.pushed.length
  read_right : v.read ≤ v.sm.pushed.length

/-- The FIFO after the channel took what it could. -/
lemma RxUnit.fifo_drain (u : RxUnit) : u.drain.fifo = u.fifo.drop (u.fifo.take u.count).length := by
  simp [RxUnit.drain, RxUnit.fifo, List.drop_drop]

lemma RxUnit.read_drain {u : RxUnit} (h : u.read ≤ u.sm.pushed.length) :
    u.drain.read ≤ u.drain.sm.pushed.length := by
  have hlen : u.fifo.length = u.sm.pushed.length - u.read := by simp [RxUnit.fifo]
  simp only [RxUnit.drain, List.length_take, hlen]
  omega

lemma RxUnit.Alike.drain {u v : RxUnit} (h : u.Alike v) : u.drain.Alike v.drain := by
  refine ⟨h.pc, h.delay, h.isrCount, h.isr, h.x, h.enabled, ?_, ?_, ?_, u.read_drain h.read_left,
    v.read_drain h.read_right⟩
  · rw [RxUnit.fifo_drain, RxUnit.fifo_drain, h.fifo, h.count]
  · simp only [RxUnit.drain, h.fifo, h.count]
  · simp only [RxUnit.drain, h.fifo, h.count, h.stored]

/-- The same level makes alike receivers go the same way. -/
lemma RxUnit.Alike.ctl {u v : RxUnit} (h : u.Alike v) (line : Bool) :
    (rxCycle line u.sm).pc = (rxCycle line v.sm).pc ∧
      (rxCycle line u.sm).delay = (rxCycle line v.sm).delay ∧
      ((rxCycle line u.sm).x = (rxCycle line v.sm).x ∨
        ((rxCycle line u.sm).pc = 0 ∨ (rxCycle line u.sm).pc = 1) ∧
        (rxCycle line u.sm).delay = 0) := by
  have hu := rxCtl_rxCycle line u.sm
  have hv := rxCtl_rxCycle line v.sm
  have hctl : ∀ s : Sm, rxCtl s = ⟨s.pc, s.delay, s.isrCount, s.x⟩ := fun _ => rfl
  rw [hctl u.sm, h.pc, h.delay, h.isrCount] at hu
  rw [hctl v.sm] at hv
  rcases h.x with hx | ⟨hpc, hd⟩
  · rw [hx, ← hv, hctl, hctl, RxCtl.mk.injEq] at hu
    exact ⟨hu.1, hu.2.1, .inl hu.2.2.2⟩
  · rw [h.pc] at hpc
    rw [h.delay] at hd
    rw [hd] at hu hv
    -- at the first two instructions the bit counter is not looked at, and the second one sets it
    rcases hpc with hpc | hpc
    · rw [hpc, RxCtl.next_wait, hctl, RxCtl.mk.injEq] at hu hv
      refine ⟨hu.1.trans hv.1.symm, hu.2.1.trans hv.2.1.symm, .inr ⟨?_, hu.2.1⟩⟩
      rw [hu.1]
      cases line <;> decide
    · rw [hpc, RxCtl.next_set, hctl, RxCtl.mk.injEq] at hu hv
      exact ⟨hu.1.trans hv.1.symm, hu.2.1.trans hv.2.1.symm, .inl (hu.2.2.2.trans hv.2.2.2.symm)⟩

/-- The same level makes alike receivers shift in and push the same. -/
lemma RxUnit.Alike.data {u v : RxUnit} (h : u.Alike v) (line : Bool) :
    (rxCycle line u.sm).isr = (rxCycle line v.sm).isr ∧
      (rxCycle line u.sm).isrCount = (rxCycle line v.sm).isrCount := by
  by_cases hin : u.sm.delay = 0 ∧ u.sm.pc = 3
  · obtain ⟨h₁, h₂, -⟩ := rxCycle_in line hin.1 hin.2
    obtain ⟨g₁, g₂, -⟩ := rxCycle_in line (h.delay ▸ hin.1) (h.pc ▸ hin.2)
    exact ⟨by rw [h₁, g₁, h.isr, h.isrCount], by rw [h₂, g₂, h.isrCount]⟩
  · obtain ⟨h₁, h₂, -⟩ := rxCycle_other line hin
    obtain ⟨g₁, g₂, -⟩ := rxCycle_other line (s := v.sm) (by rwa [← h.delay, ← h.pc])
    exact ⟨by rw [h₁, g₁, h.isr], by rw [h₂, g₂, h.isrCount]⟩

/-- A cycle keeps receivers alike. -/
lemma RxUnit.Alike.cycle {u v : RxUnit} (h : u.Alike v) (line : Bool) :
    (u.cycle line).Alike (v.cycle line) := by
  have hcomp : u.completes ↔ v.completes := by
    unfold RxUnit.completes
    rw [h.delay, h.pc, h.isrCount]
  unfold RxUnit.cycle
  by_cases hstall : u.enabled = false ∨ (u.completes ∧ rxFifoSize ≤ u.fifo.length)
  · rw [if_pos hstall, if_pos (by rwa [← h.enabled, ← hcomp, ← h.fifo])]
    exact h
  · rw [if_neg hstall, if_neg (by rwa [← h.enabled, ← hcomp, ← h.fifo])]
    obtain ⟨hpc, hdelay, hx⟩ := h.ctl line
    obtain ⟨hisr, hcount⟩ := h.data line
    have hpu := pushed_rxCycle line u
    have hpv := pushed_rxCycle line v
    refine RxUnit.Alike.drain ⟨hpc, hdelay, hcount, hisr, hx, h.enabled, ?_, h.count,
      h.stored, ?_, ?_⟩
    · have hfifo := h.fifo
      unfold RxUnit.fifo at hfifo ⊢
      simp only [rxCycle] at hpu hpv
      simp only [hpu, hpv, List.drop_append_of_le_length h.read_left,
        List.drop_append_of_le_length h.read_right, hfifo, hcomp, h.isr]
    · simp only [rxCycle] at hpu
      simp only [hpu, List.length_append]
      exact h.read_left.trans (Nat.le_add_right _ _)
    · simp only [rxCycle] at hpv
      simp only [hpv, List.length_append]
      exact h.read_right.trans (Nat.le_add_right _ _)

/-- Alike receivers store the same. -/
lemma RxUnit.Alike.stored_foldl {u v : RxUnit} (h : u.Alike v) (levels : List Bool) :
    (levels.foldl (fun u line => u.cycle line) u).stored =
      (levels.foldl (fun u line => u.cycle line) v).stored := by
  induction levels generalizing u v with
  | nil => exact h.stored
  | cons line levels ih => exact ih (h.cycle line)

/-- A reception of `len` bytes that has received nothing yet; the receiver is at the
instruction `pc`. -/
structure RxUnit.Waits (len pc : ℕ) (u : RxUnit) : Prop where
  pc : u.sm.pc = pc
  delay : u.sm.delay = 0
  isrCount : u.sm.isrCount = 0
  isr : u.sm.isr = 0
  enabled : u.enabled = true
  fifo : u.fifo = []
  count : u.count = len
  stored : u.stored = []
  read : u.read ≤ u.sm.pushed.length

/-- While the line is high, the receiver stays at its first wait or goes there from the second. -/
lemma RxUnit.Waits.cycle_high {len pc : ℕ} {u : RxUnit} (h : u.Waits len pc)
    (hpc : pc = 0 ∨ pc = 8 ∨ pc = 9) : (u.cycle true).Waits len (if pc = 8 then 9 else 0) := by
  have hin : ¬ (u.sm.delay = 0 ∧ u.sm.pc = 3) := by
    rw [h.pc]
    omega
  have hgo : ¬ (u.enabled = false ∨ (u.completes ∧ rxFifoSize ≤ u.fifo.length)) := by
    simp [h.enabled, h.fifo, rxFifoSize]
  have hcycle : u.cycle true = RxUnit.drain { u with sm := rxCycle true u.sm } := if_neg hgo
  obtain ⟨hisr, hcount, hpushed⟩ := rxCycle_other true hin
  have hfifo : RxUnit.fifo { u with sm := rxCycle true u.sm } = [] := by
    have := h.fifo
    unfold RxUnit.fifo at this ⊢
    rwa [hpushed]
  have hctl : rxCtl (rxCycle true u.sm) = ⟨if pc = 8 then 9 else 0, 0, 0, u.sm.x⟩ := by
    rw [rxCtl_rxCycle]
    simp only [rxCtl, h.pc, h.delay, h.isrCount]
    rcases hpc with rfl | rfl | rfl <;> rfl
  rw [hcycle, RxUnit.drain_of_fifo_nil hfifo]
  simp only [rxCtl, RxCtl.mk.injEq] at hctl
  exact ⟨hctl.1, hctl.2.1, hctl.2.2.1, hisr.trans h.isr, h.enabled, hfifo, h.count, h.stored,
    hpushed ▸ h.read⟩

/-- Two receptions that have received nothing yet are alike. -/
lemma RxUnit.Waits.alike {len : ℕ} {u v : RxUnit} (hu : u.Waits len 0) (hv : v.Waits len 0) :
    u.Alike v :=
  ⟨hu.pc.trans hv.pc.symm, hu.delay.trans hv.delay.symm, hu.isrCount.trans hv.isrCount.symm,
    hu.isr.trans hv.isr.symm, .inr ⟨.inl hu.pc, hu.delay⟩, hu.enabled.trans hv.enabled.symm,
    hu.fifo.trans hv.fifo.symm, hu.count.trans hv.count.symm, hu.stored.trans hv.stored.symm,
    hu.read, hv.read⟩

/-- A reception started on a clean receiver, with the line high for two cycles, is at its
first wait. -/
lemma RxUnit.Clean.waits {u : RxUnit} (h : u.Clean) (hread : u.read ≤ u.sm.pushed.length)
    (len : ℕ) :
    (((u.uartStartRx len).cycle true).cycle true).Waits len 0 := by
  have hstart : u.uartStartRx len = { u with enabled := true, count := len, stored := [] } :=
    RxUnit.drain_of_fifo_nil h.fifo
  have hwaits : ∀ pc, u.sm.pc = pc → (u.uartStartRx len).Waits len pc := by
    intro pc hpc
    rw [hstart]
    exact ⟨hpc, h.delay, h.isrCount, h.isr, rfl, h.fifo, rfl, rfl, hread⟩
  rcases h.pc with hpc | hpc
  · exact ((hwaits 0 hpc).cycle_high (.inl rfl)).cycle_high (.inl rfl)
  · exact ((hwaits 8 hpc).cycle_high (.inr (.inl rfl))).cycle_high (.inr (.inr rfl))

lemma RxRun.inv_initial : RxRun.initial.Inv :=
  ⟨⟨rfl, rfl, rfl⟩, fun _ => rfl, rfl, fun _ => .inl rfl⟩

/-- **Each reception starts from a clean receiver.**  After any history whose receptions were ended
between two characters and got no more characters than their buffers hold, the receiver is clean
when it is stopped, and two such histories make no difference to what the next reception stores,
whatever the line does once it has been high for two cycles. -/
theorem receptions_start_clean {acts₁ acts₂ : List RxAct} {p₁ p₂ : RxRun}
    (hC₁ : Machine.AllSteps RxRun.step BetweenCharacters .initial acts₁)
    (hrun₁ : Machine.exec RxRun.step .initial acts₁ = some p₁) (hoff₁ : p₁.unit.enabled = false)
    (hC₂ : Machine.AllSteps RxRun.step BetweenCharacters .initial acts₂)
    (hrun₂ : Machine.exec RxRun.step .initial acts₂ = some p₂) (hoff₂ : p₂.unit.enabled = false)
    (len : ℕ) (levels : List Bool) :
    p₁.unit.Clean ∧
      p₁.unit.receive len (true :: true :: levels) =
        p₂.unit.receive len (true :: true :: levels) := by
  have hinv : ∀ {acts p}, Machine.AllSteps RxRun.step BetweenCharacters .initial acts →
      Machine.exec RxRun.step .initial acts = some p → RxRun.Inv p := fun hC hrun =>
    Machine.exec_inv_of_allSteps (fun _ _ _ h hC hst => h.step hC hst) RxRun.inv_initial hC hrun
  have h₁ := hinv hC₁ hrun₁
  have h₂ := hinv hC₂ hrun₂
  have hwait₁ := (h₁.clean hoff₁).waits h₁.read.le len
  have hwait₂ := (h₂.clean hoff₂).waits h₂.read.le len
  exact ⟨h₁.clean hoff₁, (hwait₁.alike hwait₂).stored_foldl levels⟩

/-- A character on the line, eight cycles a bit: start bit, data bits, stop bit. -/
def charLevels (b : BitVec 8) : List Bool :=
  [false, b.getLsbD 0, b.getLsbD 1, b.getLsbD 2, b.getLsbD 3, b.getLsbD 4, b.getLsbD 5, b.getLsbD 6,
    b.getLsbD 7, true].flatMap (List.replicate 8)

/-- A reception that is ended by a timeout after a number of cycles of a character. -/
def timeoutAfter (k : ℕ) (b : BitVec 8) : List RxAct :=
  (.uartStartRx 4 :: ((charLevels b).take k).map .cycle) ++ [.uartDisable]

/-- A timeout after a whole character leaves nothing behind: the next reception stores what a
receiver that was just initialised stores. -/
theorem receptions_start_clean_after_character :
    ∃ p, Machine.exec RxRun.step .initial (timeoutAfter 80 0xa5) = some p ∧ p.unit.enabled = false ∧
      p.unit.Clean ∧
      p.unit.receive 4 (true :: true :: charLevels 0x3c) =
        RxUnit.initial.receive 4 (true :: true :: charLevels 0x3c) := by
  have hrun : (Machine.exec RxRun.step .initial (timeoutAfter 80 0xa5)).map
    (·.unit.enabled) = some false := by
    decide +kernel
  obtain ⟨p, hp, hoff⟩ := Option.map_eq_some_iff.mp hrun
  have hC : Machine.AllSteps RxRun.step BetweenCharacters .initial (timeoutAfter 80 0xa5) := by
    decide +kernel
  have hnone : Machine.AllSteps RxRun.step BetweenCharacters .initial [] := trivial
  exact ⟨p, hp, hoff, receptions_start_clean hC hp hoff hnone rfl rfl 4 (charLevels 0x3c)⟩

/-- A timeout in the middle of a character leaves four bits in the shift register; the next
reception stores 0x85 where a receiver that was just initialised stores the 0x3c that was sent. -/
theorem receptions_not_clean_after_timeout :
    ∃ p, Machine.exec RxRun.step .initial (timeoutAfter 40 0xa5) = some p ∧ p.unit.enabled = false ∧
      ¬ p.unit.Clean ∧
      p.unit.receive 4 (true :: true :: charLevels 0x3c) = [0x85] ∧
      RxUnit.initial.receive 4 (true :: true :: charLevels 0x3c) = [0x3c] := by
  have hrun : (Machine.exec RxRun.step .initial (timeoutAfter 40 0xa5)).map
      (fun p => (p.unit.enabled, p.unit.sm.isrCount,
        p.unit.receive 4 (true :: true :: charLevels 0x3c))) =
      some (false, 4, [0x85]) := by
    decide +kernel
  obtain ⟨p, hp, heq⟩ := Option.map_eq_some_iff.mp hrun
  simp only [Prod.mk.injEq] at heq
  obtain ⟨hoff, hcount, hstored⟩ := heq
  refine ⟨p, hp, hoff, fun hclean => ?_, hstored, by decide +kernel⟩
  exact absurd (hcount.symm.trans hclean.isrCount) (by decide)

end JdPico
