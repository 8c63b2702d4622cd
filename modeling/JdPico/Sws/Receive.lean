import JdPico.Sws.Transmit
import Mathlib.Algebra.Order.Floor.Ring
import Mathlib.Data.Rat.Floor

/-!
# What the receiver makes of the line

The receiver runs on its own clock: its cycle `n` is at the time `φ + r * n`, measured in cycles of
the transmitter, and samples the level the line has then.  For a clock ratio within two percent each
of its samples of a character falls into the cell it is meant for, and it is back at its `wait`
before the next start bit, so the receiver takes every character of the line and raises no
interrupt.
-/

namespace JdPico

open Pio

/-- The inputs of the receiver for a sequence of samples of the line; nothing is written to
its FIFO. -/
def rxInput (sample : ℕ → Bool) (n : ℕ) : Input := ⟨sample n, []⟩

/-- The receiver before its cycle `n`. -/
def rxRun (sample : ℕ → Bool) : ℕ → Sm :=
  run jdRx jdRxConfig (rxInput sample) smStart

/-- Before cycle `n` the receiver is about to issue the instruction at `pc`. -/
structure RxAt (sample : ℕ → Bool) (n pc : ℕ) (x isr : BitVec 32) (isrCount : ℕ)
    (pushed : List (BitVec 32)) (raised : List ℕ) : Prop where
  pc : (rxRun sample n).pc = pc
  delay : (rxRun sample n).delay = 0
  x : (rxRun sample n).x = x
  isr : (rxRun sample n).isr = isr
  isrCount : (rxRun sample n).isrCount = isrCount
  pushed : (rxRun sample n).pushed = pushed
  raised : (rxRun sample n).raised = raised

variable {sample : ℕ → Bool} {n pc isrCount : ℕ} {x isr : BitVec 32}
  {out : List (BitVec 32)} {irqs : List ℕ}

/-- One instruction of the receiver. -/
lemma RxAt.instr (h : RxAt sample n pc x isr isrCount out irqs) {u : Sm}
    (hu : issue jdRx jdRxConfig (sample n) (rxRun sample n) = u) :
    RxAt sample (n + 1 + u.delay) u.pc u.x u.isr u.isrCount u.pushed u.raised := by
  have hissue : issue jdRx jdRxConfig (rxInput sample n).pin
      ((rxRun sample n).feed (rxInput sample n).feed) = u := by
    simpa [rxInput] using hu
  have hrun := run_issue
    (show run jdRx jdRxConfig (rxInput sample) smStart n = rxRun sample n from rfl)
    h.delay hissue le_rfl
  constructor <;> simp [rxRun, hrun, Sm.feed]

/-- At the `wait` for a start bit, with nothing in the shift register. -/
def RxIdle (sample : ℕ → Bool) (n : ℕ) (out : List (BitVec 32)) (irqs : List ℕ) : Prop :=
  ∃ x, RxAt sample n 0 x 0 0 out irqs

/-- The receiver waits while the line is high. -/
lemma RxIdle.wait_high (h : RxIdle sample n out irqs) (hs : sample n = true) :
    RxIdle sample (n + 1) out irqs := by
  obtain ⟨x, h⟩ := h
  have hwait : issue jdRx jdRxConfig (sample n) (rxRun sample n) = rxRun sample n := by
    simp [issue, jdRx, h.pc, Op.issue, Sm.sideSet, hs]
  exact ⟨x, by simpa [h.pc, h.delay, h.x, h.isr, h.isrCount, h.pushed, h.raised]
    using h.instr hwait⟩

/-- A low sample starts a character: the next instruction is the `set`. -/
lemma RxIdle.wait_low (h : RxIdle sample n out irqs) (hs : sample n = false) :
    ∃ x, RxAt sample (n + 1) 1 x 0 0 out irqs := by
  obtain ⟨x, h⟩ := h
  have hwait : issue jdRx jdRxConfig (sample n) (rxRun sample n) =
      { rxRun sample n with pc := 1, delay := 0 } := by
    simp [issue, jdRx, h.pc, Op.issue, Sm.sideSet, Sm.next, hs]
  exact ⟨x, by simpa [h.x, h.isr, h.isrCount, h.pushed, h.raised] using h.instr hwait⟩

/-- The ten cycles from the `set` to the first data bit. -/
lemma RxAt.skip (h : RxAt sample n 1 x isr isrCount out irqs) :
    RxAt sample (n + 10) 3 7 isr isrCount out irqs := by
  have hset : issue jdRx jdRxConfig (sample n) (rxRun sample n) =
      { rxRun sample n with pc := 2, delay := 7, x := 7, pin := false } := by
    simp [issue, jdRx, h.pc, Op.issue, Sm.sideSet, Sm.next]
  have h₁ : RxAt sample (n + 8) 2 7 isr isrCount out irqs := by
    simpa [h.isr, h.isrCount, h.pushed, h.raised] using h.instr hset
  have hnop : issue jdRx jdRxConfig (sample (n + 8)) (rxRun sample (n + 8)) =
      { rxRun sample (n + 8) with pc := 3, delay := 1 } := by
    simp [issue, jdRx, h₁.pc, Op.issue, Sm.sideSet, Sm.next]
  simpa [h₁.x, h₁.isr, h₁.isrCount, h₁.pushed, h₁.raised] using h₁.instr hnop

/-- The two instructions that follow the `in` of the bit loop take seven cycles. -/
lemma RxAt.loop (h : RxAt sample n 4 x isr isrCount out irqs) :
    RxAt sample (n + 7) (if x = 0 then 6 else 3) (x - 1) isr isrCount out irqs := by
  have hnop : issue jdRx jdRxConfig (sample n) (rxRun sample n) =
      { rxRun sample n with pc := 5, delay := 0, pin := false } := by
    simp [issue, jdRx, h.pc, Op.issue, Sm.sideSet, Sm.next]
  have h₁ : RxAt sample (n + 1) 5 x isr isrCount out irqs := by
    simpa [h.x, h.isr, h.isrCount, h.pushed, h.raised] using h.instr hnop
  have hjmp : issue jdRx jdRxConfig (sample (n + 1)) (rxRun sample (n + 1)) =
      { rxRun sample (n + 1) with pc := if x = 0 then 6 else 3, delay := 5, x := x - 1 } := by
    by_cases hx : x = 0#32 <;>
      simp [issue, jdRx, h₁.pc, Op.issue, Sm.sideSet, Sm.next, h₁.x, hx]
  simpa [h₁.isr, h₁.isrCount, h₁.pushed, h₁.raised] using h₁.instr hjmp

/-- The shift register after one more bit. -/
def shiftRight (isr : BitVec 32) (b : Bool) : BitVec 32 := BitVec.cons b (isr.extractLsb' 1 31)

/-- A data bit that does not complete a byte. -/
lemma RxAt.bit (h : RxAt sample n 3 x isr isrCount out irqs) (hcount : isrCount + 1 ≠ 8) :
    RxAt sample (n + 8) (if x = 0 then 6 else 3) (x - 1) (shiftRight isr (sample n)) (isrCount + 1)
      out irqs := by
  have hin : issue jdRx jdRxConfig (sample n) (rxRun sample n) =
      { rxRun sample n with
        pc := 4, delay := 0, isr := shiftRight isr (sample n), isrCount := isrCount + 1,
        pin := true } := by
    simp [issue, jdRx, jdRxConfig, h.pc, Op.issue, Sm.sideSet, Sm.next, Sm.shiftIn, Sm.autopush,
      h.isr, h.isrCount, hcount, shiftRight]
  have h₁ : RxAt sample (n + 1) 4 x (shiftRight isr (sample n)) (isrCount + 1) out irqs := by
    simpa [h.x, h.pushed, h.raised] using h.instr hin
  exact h₁.loop

/-- The data bit that completes a byte pushes it. -/
lemma RxAt.last_bit (h : RxAt sample n 3 x isr 7 out irqs) :
    RxAt sample (n + 8) (if x = 0 then 6 else 3) (x - 1) 0 0 (out ++ [shiftRight isr (sample n)])
      irqs := by
  have hin : issue jdRx jdRxConfig (sample n) (rxRun sample n) =
      { rxRun sample n with
        pc := 4, delay := 0, isr := 0, isrCount := 0, pin := true,
        pushed := out ++ [shiftRight isr (sample n)] } := by
    simp [issue, jdRx, jdRxConfig, h.pc, Op.issue, Sm.sideSet, Sm.next, Sm.shiftIn, Sm.autopush,
      h.isr, h.isrCount, h.pushed, shiftRight]
  have h₁ : RxAt sample (n + 1) 4 x 0 0 (out ++ [shiftRight isr (sample n)]) irqs := by
    simpa [h.x, h.raised] using h.instr hin
  exact h₁.loop

/-- A high stop bit brings the receiver back to its `wait` in two cycles. -/
lemma RxAt.stop_high (h : RxAt sample n 6 x 0 0 out irqs) (hs : sample n = true) :
    RxIdle sample (n + 2) out irqs := by
  have hjmp : issue jdRx jdRxConfig (sample n) (rxRun sample n) =
      { rxRun sample n with pc := 10, delay := 0, pin := true } := by
    simp [issue, jdRx, h.pc, Op.issue, Sm.sideSet, hs]
  have h₁ : RxAt sample (n + 1) 10 x 0 0 out irqs := by
    simpa [h.x, h.isr, h.isrCount, h.pushed, h.raised] using h.instr hjmp
  have hnop : issue jdRx jdRxConfig (sample (n + 1)) (rxRun sample (n + 1)) =
      { rxRun sample (n + 1) with pc := 0, delay := 0 } := by
    simp [issue, jdRx, h₁.pc, Op.issue, Sm.sideSet, Sm.next]
  exact ⟨x, by simpa [h₁.x, h₁.isr, h₁.isrCount, h₁.pushed, h₁.raised] using h₁.instr hnop⟩

/-! ### One character -/

/-- The shift register after the first `i` bits of `b`. -/
def isrAfter (b : BitVec 8) : ℕ → BitVec 32
  | 0 => 0
  | i + 1 => shiftRight (isrAfter b i) (b.getLsbD i)

/-- Eight bits shifted in stand in bits 24 to 31. -/
lemma isrAfter_eight (b : BitVec 8) : isrAfter b 8 = rxWord b := by
  revert b
  decide +kernel

/-- The first `i` data bits of a character. -/
lemma RxAt.bits {b : BitVec 8} (h : RxAt sample n 3 7 0 0 out irqs) {i : ℕ} (hi : i < 8)
    (hs : ∀ k < i, sample (n + 8 * k) = b.getLsbD k) :
    RxAt sample (n + 8 * i) 3 (BitVec.ofNat 32 (7 - i)) (isrAfter b i) i out irqs := by
  induction i with
  | zero => exact h
  | succ i ih =>
    have hbit := (ih (by omega) fun k hk => hs k (by omega)).bit (by omega)
    have hne : BitVec.ofNat 32 (7 - i) ≠ 0 := by
      intro h0
      have := congrArg BitVec.toNat h0
      simp at this
      omega
    have hpred : BitVec.ofNat 32 (7 - i) - 1 = BitVec.ofNat 32 (7 - (i + 1)) := by
      rw [show 7 - i = 7 - (i + 1) + 1 by omega, BitVec.ofNat_add]
      exact BitVec.add_sub_cancel _ _
    rw [if_neg hne, hpred, hs i (by omega)] at hbit
    exact hbit

/-- **One character.**  If the receiver finds the line low, then samples the bits of `b` and then a
high stop bit, it pushes `b` and is back at its `wait` after 77 cycles. -/
lemma RxIdle.frame {b : BitVec 8} (h : RxIdle sample n out irqs) (hstart : sample n = false)
    (hdata : ∀ i < 8, sample (n + 11 + 8 * i) = b.getLsbD i) (hstop : sample (n + 75) = true) :
    RxIdle sample (n + 77) (out ++ [rxWord b]) irqs := by
  obtain ⟨x, hset⟩ := h.wait_low hstart
  have hlast := (hset.skip.bits (b := b) (i := 7) (by omega)
    fun k hk => hdata k (by omega)).last_bit
  rw [hdata 7 (by omega)] at hlast
  have hword : shiftRight (isrAfter b 7) (b.getLsbD 7) = rxWord b := isrAfter_eight b
  rw [hword] at hlast
  exact RxAt.stop_high hlast hstop

end JdPico
