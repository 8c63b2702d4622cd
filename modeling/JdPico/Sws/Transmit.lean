import JdPico.Sws.Program

/-!
# What the transmitter puts on the line

The environment of the transmitter is a schedule `feed` that says which bytes the DMA writes to the
TX FIFO in which cycle.  Whatever the schedule, the line carries the bytes as 8N1 characters with
eight cycles per bit and an idle level of any length between them; this is the predicate `Serial`.
-/

namespace JdPico

open Pio

/-- From cycle `n` on, the line carries exactly the given bytes: each is a low start bit, eight data
bits, least significant first, and a high stop bit, of eight cycles each, and outside of characters
the line is high. -/
inductive Serial (line : ℕ → Bool) : ℕ → List (BitVec 8) → Prop
  | idle {n : ℕ} (h : ∀ k, n ≤ k → line k = true) : Serial line n []
  | wait {n : ℕ} {bs : List (BitVec 8)} (h : line n = true) (t : Serial line (n + 1) bs) :
      Serial line n bs
  | frame {n : ℕ} {b : BitVec 8} {bs : List (BitVec 8)}
      (start : ∀ k < 8, line (n + k) = false)
      (data : ∀ i < 8, ∀ k < 8, line (n + 8 + 8 * i + k) = b.getLsbD i)
      (stop : ∀ k < 8, line (n + 72 + k) = true)
      (t : Serial line (n + 80) bs) : Serial line n (b :: bs)

/-- The inputs of the transmitter for a schedule of bytes; it reads no pin. -/
def txInput (feed : ℕ → List (BitVec 8)) (n : ℕ) : Input :=
  ⟨false, (feed n).map dmaWord⟩

/-- The transmitter before cycle `n`. -/
def txRun (feed : ℕ → List (BitVec 8)) : ℕ → Sm :=
  run jdTx jdTxConfig (txInput feed) smStart

/-- The level of the line during cycle `n`. -/
def txLine (feed : ℕ → List (BitVec 8)) (n : ℕ) : Bool :=
  (txRun feed (n + 1)).pin

/-- Before cycle `n` the transmitter is about to issue the instruction at `pc`. -/
structure TxAt (feed : ℕ → List (BitVec 8)) (n pc : ℕ) (x osr : BitVec 32)
    (fifo : List (BitVec 32)) : Prop where
  pc : (txRun feed n).pc = pc
  delay : (txRun feed n).delay = 0
  x : (txRun feed n).x = x
  osr : (txRun feed n).osr = osr
  txFifo : (txRun feed n).txFifo = fifo

variable {feed : ℕ → List (BitVec 8)} {n : ℕ} {x osr w : BitVec 32} {fifo ws : List (BitVec 32)}

/-- One instruction of the transmitter: if issuing it gives `u`, then `u` is on the pin for the
whole instruction, and the machine is at `u.pc` after it. -/
lemma TxAt.instr {pc : ℕ} (h : TxAt feed n pc x osr fifo) {u : Sm}
    (hu : issue jdTx jdTxConfig (txInput feed n).pin
      ((txRun feed n).feed (txInput feed n).feed) = u) :
    TxAt feed (n + 1 + u.delay) u.pc u.x u.osr (u.txFifo ++ fed (txInput feed) (n + 1) u.delay) ∧
      ∀ k ≤ u.delay, txLine feed (n + k) = u.pin := by
  have hrun := fun k (hk : k ≤ u.delay) =>
    run_issue (show run jdTx jdTxConfig (txInput feed) smStart n = txRun feed n from rfl)
      h.delay hu hk
  constructor
  · constructor <;> simp [txRun, hrun u.delay le_rfl, Sm.feed]
  · intro k hk
    have := congrArg Sm.pin (hrun k hk)
    rwa [Nat.add_right_comm] at this

/-- A `pull` that finds nothing stalls with the line high. -/
lemma TxAt.stall (h : TxAt feed n 0 x osr fifo) (hfifo : fifo ++ (feed n).map dmaWord = []) :
    TxAt feed (n + 1) 0 x osr [] ∧ txLine feed n = true := by
  have hu : issue jdTx jdTxConfig (txInput feed n).pin
      ((txRun feed n).feed (txInput feed n).feed) =
        { txRun feed n with txFifo := [], pin := true, txStall := true } := by
    simp [issue, jdTx, h.pc, Op.issue, Sm.feed, Sm.sideSet, txInput, h.txFifo, hfifo]
  obtain ⟨hat, hline⟩ := h.instr hu
  simp only [h.delay, h.pc, h.x, h.osr, fed, List.append_nil, Nat.add_zero] at hat hline
  exact ⟨hat, hline 0 le_rfl⟩

/-- A `pull` that finds a word takes it, and the line is high for eight cycles. -/
lemma TxAt.pull (h : TxAt feed n 0 x osr fifo) (hfifo : fifo ++ (feed n).map dmaWord = w :: ws) :
    TxAt feed (n + 8) 1 x w (ws ++ fed (txInput feed) (n + 1) 7) ∧
      ∀ k < 8, txLine feed (n + k) = true := by
  have hu : issue jdTx jdTxConfig (txInput feed n).pin
      ((txRun feed n).feed (txInput feed n).feed) =
        { txRun feed n with pc := 1, delay := 7, osr := w, txFifo := ws, pin := true } := by
    simp [issue, jdTx, h.pc, Op.issue, Sm.feed, Sm.sideSet, Sm.next, txInput, h.txFifo, hfifo]
  obtain ⟨hat, hline⟩ := h.instr hu
  simp only [h.x] at hat
  exact ⟨hat, fun k hk => hline k (by dsimp only; omega)⟩

/-- The start bit. -/
lemma TxAt.start (h : TxAt feed n 1 x osr fifo) :
    TxAt feed (n + 8) 2 7 osr (fifo ++ fed (txInput feed) n 8) ∧
      ∀ k < 8, txLine feed (n + k) = false := by
  have hu : issue jdTx jdTxConfig (txInput feed n).pin
      ((txRun feed n).feed (txInput feed n).feed) =
        { txRun feed n with
          pc := 2, delay := 7, x := 7, txFifo := fifo ++ (txInput feed n).feed, pin := false } := by
    simp [issue, jdTx, h.pc, Op.issue, Sm.feed, Sm.sideSet, Sm.next, h.txFifo]
  obtain ⟨hat, hline⟩ := h.instr hu
  refine ⟨?_, fun k hk => hline k (by dsimp only; omega)⟩
  simp only [h.osr, List.append_assoc] at hat
  rwa [show fed (txInput feed) n 8 = (txInput feed n).feed ++ fed (txInput feed) (n + 1) 7 from
    fed_add n 1 7]

/-- One data bit: the loop shows the low bit of `osr` for eight cycles. -/
lemma TxAt.bit (h : TxAt feed n 2 x osr fifo) :
    TxAt feed (n + 8) (if x = 0 then 0 else 2) (x - 1) (osr >>> 1)
        (fifo ++ fed (txInput feed) n 8) ∧
      ∀ k < 8, txLine feed (n + k) = osr.getLsbD 0 := by
  have hout : issue jdTx jdTxConfig (txInput feed n).pin
      ((txRun feed n).feed (txInput feed n).feed) =
        { txRun feed n with
          pc := 3, delay := 0, osr := osr >>> 1, txFifo := fifo ++ (txInput feed n).feed,
          pin := osr.getLsbD 0 } := by
    simp [issue, jdTx, jdTxConfig, h.pc, Op.issue, Sm.feed, Sm.sideSet, Sm.next, Sm.shiftOut,
      h.txFifo, h.osr]
  obtain ⟨hat, hline⟩ := h.instr hout
  simp only [h.x, fed, List.append_nil, Nat.add_zero] at hat hline
  have hpin : (txRun feed (n + 1)).pin = osr.getLsbD 0 := hline 0 le_rfl
  have hjmp : issue jdTx jdTxConfig (txInput feed (n + 1)).pin
      ((txRun feed (n + 1)).feed (txInput feed (n + 1)).feed) =
        { txRun feed (n + 1) with
          pc := if x = 0 then 0 else 2, delay := 6, x := x - 1,
          txFifo := fifo ++ (txInput feed n).feed ++ (txInput feed (n + 1)).feed } := by
    by_cases hx : x = 0#32 <;>
      simp [issue, jdTx, hat.pc, Op.issue, Sm.feed, Sm.sideSet, Sm.next, hat.x, hx, hat.txFifo]
  obtain ⟨hat', hline'⟩ := hat.instr hjmp
  constructor
  · simp only [hat.osr, List.append_assoc] at hat'
    rwa [show fed (txInput feed) n 8 = (txInput feed n).feed ++ ((txInput feed (n + 1)).feed ++
      fed (txInput feed) (n + 2) 6) from by rw [fed_add n 1 7, fed_add (n + 1) 1 6]; simp [fed]]
  · intro k hk
    cases k with
    | zero => exact hpin
    | succ k =>
      have := hline' k (by dsimp only; omega)
      rw [Nat.add_right_comm] at this
      exact this.trans hpin

/-- The data bits that are left when `x` is `j`, and the way back to the `pull`. -/
lemma TxAt.bits {j : ℕ} (hj : j < 8) (h : TxAt feed n 2 (BitVec.ofNat 32 j) osr fifo) :
    (∃ x' osr', TxAt feed (n + 8 * (j + 1)) 0 x' osr'
      (fifo ++ fed (txInput feed) n (8 * (j + 1)))) ∧
      ∀ i ≤ j, ∀ k < 8, txLine feed (n + 8 * i + k) = osr.getLsbD i := by
  induction j generalizing n osr fifo with
  | zero =>
    obtain ⟨hat, hline⟩ := h.bit
    refine ⟨⟨_, _, by simpa using hat⟩, ?_⟩
    intro i hi k hk
    obtain rfl := Nat.le_zero.mp hi
    exact hline k hk
  | succ j ih =>
    obtain ⟨hat, hline⟩ := h.bit
    have hne : BitVec.ofNat 32 (j + 1) ≠ 0 := by
      intro h0
      have := congrArg BitVec.toNat h0
      simp at this
      omega
    have hpred : BitVec.ofNat 32 (j + 1) - 1 = BitVec.ofNat 32 j := by
      rw [BitVec.ofNat_add]
      exact BitVec.add_sub_cancel _ _
    rw [if_neg hne, hpred] at hat
    obtain ⟨⟨x', osr', hend⟩, hrest⟩ := ih (by omega) hat
    refine ⟨⟨x', osr', ?_⟩, ?_⟩
    · rw [List.append_assoc, ← fed_add] at hend
      rwa [show n + 8 * (j + 1 + 1) = n + 8 + 8 * (j + 1) by omega,
        show 8 * (j + 1 + 1) = 8 + 8 * (j + 1) by omega]
    · intro i hi k hk
      cases i with
      | zero => exact hline k hk
      | succ i =>
        have := hrest i (by omega) k hk
        rw [show n + 8 * (i + 1) + k = n + 8 + 8 * i + k by omega, this]
        simp [BitVec.getLsbD_ushiftRight, Nat.add_comm]

/-- A whole character, from a `pull` that finds a word to the next `pull`. -/
lemma TxAt.frame (h : TxAt feed n 0 x osr fifo) (hfifo : fifo ++ (feed n).map dmaWord = w :: ws) :
    (∃ x' osr', TxAt feed (n + 80) 0 x' osr' (ws ++ fed (txInput feed) (n + 1) 79)) ∧
      (∀ k < 8, txLine feed (n + k) = true) ∧ (∀ k < 8, txLine feed (n + 8 + k) = false) ∧
      ∀ i < 8, ∀ k < 8, txLine feed (n + 8 + 8 + 8 * i + k) = w.getLsbD i := by
  obtain ⟨hpull, hhigh⟩ := h.pull hfifo
  obtain ⟨hstart, hlow⟩ := hpull.start
  obtain ⟨⟨x', osr', hend⟩, hbits⟩ := TxAt.bits (j := 7) (by omega) hstart
  refine ⟨⟨x', osr', ?_⟩, hhigh, hlow, fun i hi => hbits i (by omega)⟩
  rwa [List.append_assoc, List.append_assoc, ← fed_add (n + 8) 8, ← fed_add (n + 1) 7] at hend

/-! ### The whole schedule -/

/-- What is still to be sent before cycle `n`, with `fifo` in the FIFO and a schedule that has ended
by cycle `m`, is `bs`. -/
def Pending (feed : ℕ → List (BitVec 8)) (m n : ℕ) (fifo : List (BitVec 32))
    (bs : List (BitVec 8)) : Prop :=
  ∀ d, m ≤ n + d → fifo ++ fed (txInput feed) n d = bs.map dmaWord

variable {m : ℕ} {b : BitVec 8} {bs : List (BitVec 8)}

/-- One cycle of the schedule moves to the FIFO. -/
lemma Pending.succ (h : Pending feed m n fifo bs) :
    Pending feed m (n + 1) (fifo ++ (feed n).map dmaWord) bs := by
  intro d hd
  have := h (1 + d) (by omega)
  rwa [fed_add, ← List.append_assoc] at this

/-- Several cycles of the schedule move to the FIFO. -/
lemma Pending.add (h : Pending feed m n fifo bs) (k : ℕ) :
    Pending feed m (n + k) (fifo ++ fed (txInput feed) n k) bs := by
  intro d hd
  have := h (k + d) (by omega)
  rwa [fed_add, ← List.append_assoc] at this

/-- Sending the first word leaves the rest of the bytes. -/
lemma Pending.tail (h : Pending feed m n (dmaWord b :: ws) (b :: bs)) : Pending feed m n ws bs :=
  fun d hd => (List.cons.inj (h d hd)).2

/-- If nothing is pending, the line stays high for good. -/
lemma TxAt.idle (h : TxAt feed n 0 x osr fifo) (hp : Pending feed m n fifo []) (k : ℕ) :
    txLine feed (n + k) = true := by
  induction k generalizing n fifo with
  | zero => exact (h.stall (List.append_eq_nil_iff.mp (hp.succ (m + n) (by omega))).1).2
  | succ k ih =>
    have hnil := (List.append_eq_nil_iff.mp (hp.succ (m + n) (by omega))).1
    have hp' := hp.succ
    rw [hnil] at hp'
    have := ih (h.stall hnil).1 hp'
    rwa [Nat.add_assoc, Nat.add_comm 1 k] at this

/-- What a `pull` before cycle `n` promises: the line is high for eight cycles and then
carries `bs`. -/
def Promise (feed : ℕ → List (BitVec 8)) (n : ℕ) (bs : List (BitVec 8)) : Prop :=
  (∀ k < 8, txLine feed (n + k) = true) ∧ Serial (txLine feed) (n + 8) bs

/-- A `pull` that finds a word sends it; the eight high cycles of the next `pull` are its
stop bit. -/
lemma TxAt.promise_of_ready (h : TxAt feed n 0 x osr fifo)
    (hfifo : fifo ++ (feed n).map dmaWord = w :: ws) (hp : Pending feed m n fifo (b :: bs))
    (ih : ∀ n x osr fifo, TxAt feed n 0 x osr fifo → Pending feed m n fifo bs → Promise feed n bs) :
    Promise feed n (b :: bs) := by
  have hp' := hp.succ
  rw [hfifo] at hp'
  obtain rfl : w = dmaWord b := (List.cons.inj (hp' m (by omega))).1
  obtain ⟨⟨x', osr', hend⟩, hhigh, hlow, hbits⟩ := h.frame hfifo
  obtain ⟨hstop, hrest⟩ := ih (n + 80) x' osr' _ hend (by
    have := hp'.tail.add 79
    rwa [Nat.add_assoc] at this)
  refine ⟨hhigh, .frame hlow ?_ ?_ ?_⟩
  · intro i hi k hk
    rw [hbits i hi k hk, getLsbD_dmaWord b hi]
  · intro k hk
    rw [Nat.add_assoc n 8 72]
    exact hstop k hk
  · rwa [Nat.add_assoc n 8 80, Nat.add_comm 8 80, ← Nat.add_assoc]

/-- From a `pull` on, the line is high for eight cycles and then carries what is pending. -/
lemma TxAt.promise (h : TxAt feed n 0 x osr fifo) (hp : Pending feed m n fifo bs) :
    Promise feed n bs := by
  induction bs generalizing n x osr fifo with
  | nil =>
    refine ⟨fun k _ => h.idle hp k, .idle ?_⟩
    intro k hk
    have := h.idle hp (k - n)
    rwa [Nat.add_sub_cancel' (by omega)] at this
  | cons b bs ih =>
    -- How long the `pull` stalls is bounded by the end of the schedule.
    induction hwait : m - n generalizing n x osr fifo with
    | zero =>
      cases hfifo : fifo ++ (feed n).map dmaWord with
      | nil =>
        have hnone := hp 0 (by omega)
        simp [(List.append_eq_nil_iff.mp hfifo).1, fed] at hnone
      | cons w ws => exact h.promise_of_ready hfifo hp fun _ _ _ _ => ih
    | succ wait ihwait =>
      cases hfifo : fifo ++ (feed n).map dmaWord with
      | nil =>
        obtain ⟨hnext, hline⟩ := h.stall hfifo
        have hp' := hp.succ
        rw [hfifo] at hp'
        obtain ⟨hhigh, hrest⟩ := ihwait hnext hp' (by omega)
        refine ⟨?_, .wait ?_ ?_⟩
        · intro k hk
          cases k with
          | zero => exact hline
          | succ k =>
            rw [Nat.add_comm k, ← Nat.add_assoc]
            exact hhigh k (by omega)
        · exact hhigh 7 (by omega)
        · rwa [Nat.add_right_comm]
      | cons w ws => exact h.promise_of_ready hfifo hp fun _ _ _ _ => ih

/-- A schedule that has ended by cycle `m` has delivered its bytes. -/
lemma fed_txInput (hfeed : ∀ k, m ≤ k → feed k = []) {d : ℕ} (hd : m ≤ d) :
    fed (txInput feed) 0 d = ((List.range m).flatMap feed).map dmaWord := by
  have hall : ∀ d, fed (txInput feed) 0 d = ((List.range d).flatMap feed).map dmaWord := by
    intro d
    induction d with
    | zero => rfl
    | succ d ih => simp [fed, ih, List.range_succ, txInput]
  induction d, hd using Nat.le_induction with
  | base => exact hall m
  | succ d hd ih => simp [fed, ih, txInput, hfeed d hd]

/-- **What the transmitter sends.**  For every schedule that ends, the line is high for eight cycles
and then carries exactly the scheduled bytes. -/
lemma txLine_serial (feed : ℕ → List (BitVec 8)) (m : ℕ) (hfeed : ∀ k, m ≤ k → feed k = []) :
    (∀ k < 8, txLine feed k = true) ∧ Serial (txLine feed) 8 ((List.range m).flatMap feed) := by
  have hstart : TxAt feed 0 0 0 0 [] := ⟨rfl, rfl, rfl, rfl, rfl⟩
  have hp : Pending feed m 0 [] ((List.range m).flatMap feed) :=
    fun d hd => fed_txInput hfeed (by omega)
  simpa [Promise] using hstart.promise hp

end JdPico
