import JdPico.Lib.Run
import JdPico.Sws.Program

/-!
# The end of a frame

When the DMA has written the last byte of a frame to the TX FIFO, `tx_handler` is called.  It has to
wait until the bytes are sent before it takes over the pin and makes the closing break.  It waits
for the flag that the transmitter sets when its `pull` finds the FIFO empty.  The flag is sticky,
and may have been set before, when the DMA was slow; so the handler clears it first.

A flag that is set after that was set with nothing more to come from the DMA, and so with all bytes
sent (`TxUnit.Inv`).  Nothing depends on how late the handler is called; if everything is sent
already, the flag is set again in the next cycle.  The same holds if `uart_start_tx`, which clears
the flag too, is so late that it does it while the handler waits.

In between, the invariant follows the transmitter through its character, cycle by cycle (`InChar`).
-/

namespace JdPico

open Machine Pio

/-! ### What is on the line -/

/-- The level of the line in cycle `k` of a character: eight high cycles, the start bit and the data
bits, least significant first. -/
def charLevel (b : BitVec 8) (k : ℕ) : Bool :=
  if k < 8 then true else if k < 16 then false else b.getLsbD ((k - 16) / 8)

/-- The first `k` cycles of a character. -/
def charWave (b : BitVec 8) (k : ℕ) : List Bool := (List.range k).map (charLevel b)

/-- The levels of the line, cycle by cycle, are the characters of the bytes, with the line high in
between. -/
inductive SerialLevels : List (BitVec 8) → List Bool → Prop
  | nil : SerialLevels [] []
  | idle {bs : List (BitVec 8)} {levels : List Bool} (h : SerialLevels bs levels) :
      SerialLevels bs (levels ++ [true])
  | char {bs : List (BitVec 8)} {levels : List Bool} (h : SerialLevels bs levels)
      (b : BitVec 8) : SerialLevels (bs ++ [b]) (levels ++ charWave b 80)

/-! ### The driver -/

/-- Where the transmission of a frame is. -/
inductive ClosingPc where
  /-- There is none. -/
  | idle
  /-- `uart_start_tx` has enabled the transmitter. -/
  | armed
  /-- It has started the DMA. -/
  | sending
  /-- `tx_handler` has cleared the flag and waits. -/
  | waiting
  /-- Its loop has ended. -/
  | exited
  deriving DecidableEq, Repr

/-- The transmitter with its DMA channel. -/
structure TxUnit where
  sm : Sm
  enabled : Bool
  /-- The bytes that the DMA has not written yet. -/
  dma : List (BitVec 8)
  /-- The DMA has written the last byte and `tx_handler` was not called yet. -/
  completion : Bool
  pc : ClosingPc
  /-- The bytes of the frame. -/
  frame : List (BitVec 8)
  /-- The levels of the line since the transmitter was enabled. -/
  levels : List Bool

/-- The steps of the system. -/
inductive TxAct where
  /-- `uart_start_tx` sets up the pin and enables the transmitter. -/
  | arm
  /-- It starts the DMA. -/
  | transfer (data : List (BitVec 8))
  /-- It clears the flag. -/
  | clearStall
  /-- A cycle of the transmitter. -/
  | cycle
  /-- The DMA writes a byte. -/
  | dma
  /-- `tx_handler` is called and clears the flag. -/
  | enter
  /-- The test of its loop. -/
  | poll
  /-- It makes the break and calls `uart_disable`. -/
  | finish
  deriving DecidableEq, Repr

/-- The TX FIFO is not joined with the RX FIFO. -/
def txFifoSize : ℕ := 4

/-- A cycle of the transmitter, which reads no pin. -/
def txCycle (sm : Sm) : Sm := cycle jdTx jdTxConfig ⟨false, []⟩ sm

namespace TxUnit

/-- The transmitter as `uart_init_` leaves it. -/
def initial : TxUnit := ⟨smStart, false, [], false, .idle, [], []⟩

/-- `jd_tx_arm_pin` and `pio_sm_set_enabled`. -/
def arm (u : TxUnit) : TxUnit :=
  { u with
    sm := { u.sm with pin := true }, enabled := true, pc := .armed, frame := [], levels := [] }

/-- `dma_channel_transfer_from_buffer_now`. -/
def transfer (data : List (BitVec 8)) (u : TxUnit) : TxUnit :=
  { u with dma := data, completion := false, pc := .sending, frame := data }

/-- A one is written to the flag in `fdebug`. -/
def clearStall (u : TxUnit) : TxUnit := { u with sm := { u.sm with txStall := false } }

/-- A cycle. -/
def cycle (u : TxUnit) : TxUnit :=
  { u with sm := txCycle u.sm, levels := u.levels ++ [(txCycle u.sm).pin] }

/-- The pin is released, and the transmitter and the DMA are stopped. -/
def uartDisable (u : TxUnit) : TxUnit :=
  { u with enabled := false, dma := [], completion := false, pc := .idle }

/-- One step of the system; `none` if it is not possible. -/
def step (u : TxUnit) : TxAct → Option TxUnit
  | .arm => if u.pc = .idle then some u.arm else none
  | .transfer data => if u.pc = .armed ∧ data ≠ [] then some (u.transfer data) else none
  | .clearStall => some u.clearStall
  | .cycle => if u.enabled then some u.cycle else none
  | .dma =>
    match u.dma with
    | [] => none
    | b :: rest =>
      if u.sm.txFifo.length < txFifoSize then
        some { u with sm := u.sm.feed [dmaWord b], dma := rest, completion := rest.isEmpty }
      else none
  | .enter =>
    if u.completion then some { u.clearStall with completion := false, pc := .waiting } else none
  | .poll =>
    if u.pc = .waiting then some { u with pc := if u.sm.txStall then .exited else .waiting }
    else none
  | .finish => if u.pc = .exited then some u.uartDisable else none

end TxUnit

/-! ### The transmitter, cycle by cycle -/

variable {sm : Sm} {b : BitVec 8} {k : ℕ}

/-- The transmitter is about to issue its `pull`. -/
structure AtPull (sm : Sm) : Prop where
  pc : sm.pc = 0
  delay : sm.delay = 0

lemma txCycle_of_delay (h : sm.delay ≠ 0) : txCycle sm = { sm with delay := sm.delay - 1 } := by
  simp [txCycle, cycle, h]

/-- A `pull` that finds nothing sets the flag, with the line high. -/
lemma AtPull.txCycle_of_nil (h : AtPull sm) (hfifo : sm.txFifo = []) :
    txCycle sm = { sm with pin := true, txStall := true } := by
  simp [txCycle, cycle, issue, jdTx, Op.issue, Sm.sideSet, h.pc, h.delay, hfifo]

/-- A `pull` that finds a word takes it. -/
lemma AtPull.txCycle_of_cons (h : AtPull sm) {w : BitVec 32} {ws : List (BitVec 32)}
    (hfifo : sm.txFifo = w :: ws) :
    txCycle sm = { sm with pc := 1, delay := 7, osr := w, txFifo := ws, pin := true } := by
  simp [txCycle, cycle, issue, jdTx, Op.issue, Sm.sideSet, Sm.next, h.pc, h.delay, hfifo]

/-- The start bit. -/
lemma txCycle_start (hpc : sm.pc = 1) (hdelay : sm.delay = 0) :
    txCycle sm = { sm with pc := 2, delay := 7, x := 7, pin := false } := by
  simp [txCycle, cycle, issue, jdTx, Op.issue, Sm.sideSet, Sm.next, hpc, hdelay]

/-- A data bit. -/
lemma txCycle_out (hpc : sm.pc = 2) (hdelay : sm.delay = 0) :
    txCycle sm = { sm with pc := 3, delay := 0, osr := sm.osr >>> 1, pin := sm.osr.getLsbD 0 } := by
  simp [txCycle, cycle, issue, jdTx, jdTxConfig, Op.issue, Sm.sideSet, Sm.next, Sm.shiftOut, hpc,
    hdelay]

/-- The end of the loop. -/
lemma txCycle_jmp (hpc : sm.pc = 3) (hdelay : sm.delay = 0) :
    txCycle sm = { sm with pc := if sm.x = 0 then 0 else 2, delay := 6, x := sm.x - 1 } := by
  by_cases hx : sm.x = 0#32 <;>
    simp [txCycle, cycle, issue, jdTx, Op.issue, Sm.sideSet, Sm.next, hpc, hdelay, hx]

/-- The transmitter has put out `k` cycles of the character of `b`. -/
inductive InChar (b : BitVec 8) (k : ℕ) (sm : Sm) : Prop
  /-- In the eight high cycles. -/
  | stop (pc : sm.pc = 1) (cycles : k + sm.delay = 8) (delay : sm.delay < 8)
      (osr : sm.osr = dmaWord b) (pin : sm.pin = true)
  /-- In the start bit. -/
  | start (pc : sm.pc = 2) (cycles : k + sm.delay = 16) (delay : sm.delay < 8) (x : sm.x = 7)
      (osr : sm.osr = dmaWord b) (pin : sm.pin = false)
  /-- In the first cycle of bit `i`. -/
  | out (i : ℕ) (hi : i < 8) (pc : sm.pc = 3) (cycles : k = 17 + 8 * i) (delay : sm.delay = 0)
      (x : sm.x = BitVec.ofNat 32 (7 - i)) (osr : sm.osr = dmaWord b >>> (i + 1))
      (pin : sm.pin = b.getLsbD i)
  /-- In the other cycles of bit `i`. -/
  | hold (i : ℕ) (hi : i < 8) (pc : sm.pc = if i = 7 then 0 else 2)
      (cycles : k + sm.delay = 24 + 8 * i) (delay : sm.delay < 7) (last : k < 80)
      (x : i < 7 → sm.x = BitVec.ofNat 32 (6 - i)) (osr : sm.osr = dmaWord b >>> (i + 1))
      (pin : sm.pin = b.getLsbD i)

lemma charLevel_of_bit {i : ℕ} (hlow : 16 + 8 * i ≤ k) (hhigh : k < 24 + 8 * i) :
    charLevel b k = b.getLsbD i := by
  have hdiv : (k - 16) / 8 = i := by omega
  have h8 : ¬k < 8 := by omega
  have h16 : ¬k < 16 := by omega
  simp [charLevel, h8, h16, hdiv]

/-- What one cycle in a character does: it puts out the next level, and leads to the next cycle of
the character or to the `pull`. -/
structure NextInChar (b : BitVec 8) (k : ℕ) (sm sm' : Sm) : Prop where
  pin : sm'.pin = charLevel b k
  next : k + 1 < 80 ∧ InChar b (k + 1) sm' ∨ k + 1 = 80 ∧ AtPull sm'
  txFifo : sm'.txFifo = sm.txFifo
  txStall : sm'.txStall = sm.txStall

/-- The cycle that puts out bit `i`. -/
lemma nextInChar_out {i : ℕ} (hi : i < 8) (hpc : sm.pc = 2) (hdelay : sm.delay = 0)
    (hk : k = 16 + 8 * i) (hx : sm.x = BitVec.ofNat 32 (7 - i)) (hosr : sm.osr = dmaWord b >>> i) :
    NextInChar b k sm (txCycle sm) := by
  have hbit : (dmaWord b >>> i).getLsbD 0 = b.getLsbD i := by
    rw [BitVec.getLsbD_ushiftRight, Nat.add_zero, getLsbD_dmaWord b hi]
  rw [txCycle_out hpc hdelay, hosr]
  refine ⟨?_, .inl ⟨by omega, .out i hi rfl (by omega) rfl hx ?_ hbit⟩, rfl, rfl⟩
  · rw [charLevel_of_bit (i := i) (by omega) (by omega)]
    exact hbit
  · exact (BitVec.shiftRight_add ..).symm

/-- The last cycle of the loop. -/
lemma nextInChar_jmp {i : ℕ} (hi : i < 8) (hpc : sm.pc = 3) (hdelay : sm.delay = 0)
    (hk : k = 17 + 8 * i) (hx : sm.x = BitVec.ofNat 32 (7 - i))
    (hosr : sm.osr = dmaWord b >>> (i + 1)) (hpin : sm.pin = b.getLsbD i) :
    NextInChar b k sm (txCycle sm) := by
  have hzero : sm.x = 0 ↔ i = 7 := by
    rw [hx]
    interval_cases i <;> decide
  have hpred : i < 7 → sm.x - 1 = BitVec.ofNat 32 (6 - i) := by
    rw [hx]
    interval_cases i <;> decide
  rw [txCycle_jmp hpc hdelay]
  have hlt : 6 < 7 := by decide
  refine ⟨?_, .inl ⟨by omega, .hold i hi (if_congr hzero rfl rfl) (by dsimp only; omega) hlt
    (by omega) hpred hosr hpin⟩, rfl, rfl⟩
  rw [charLevel_of_bit (i := i) (by omega) (by omega)]
  exact hpin

/-- **A cycle in a character.** -/
lemma InChar.next (h : InChar b k sm) : NextInChar b k sm (txCycle sm) := by
  by_cases hdelay : sm.delay = 0
  · cases h with
    | stop pc cycles delay osr pin =>
      rw [txCycle_start pc hdelay]
      obtain rfl : k = 8 := by omega
      have hlt : 7 < 8 := by decide
      exact ⟨rfl, .inl ⟨by omega, .start rfl rfl hlt rfl osr rfl⟩, rfl, rfl⟩
    | start pc cycles delay x osr pin =>
      exact nextInChar_out (i := 0) (by omega) pc hdelay (by omega) x (by simpa using osr)
    | out i hi pc cycles delay x osr pin => exact nextInChar_jmp hi pc hdelay cycles x osr pin
    | hold i hi pc cycles delay last x osr pin =>
      have hlt : i < 7 := by omega
      rw [if_neg hlt.ne] at pc
      refine nextInChar_out (i := i + 1) (by omega) pc hdelay (by omega) ?_ osr
      rw [x hlt, show 7 - (i + 1) = 6 - i by omega]
  · rw [txCycle_of_delay hdelay]
    cases h with
    | stop pc cycles delay osr pin =>
      refine ⟨?_, .inl ⟨by omega,
        .stop pc (by dsimp only; omega) (by dsimp only; omega) osr pin⟩, rfl, rfl⟩
      have hlt : k < 8 := by omega
      simp [pin, charLevel, hlt]
    | start pc cycles delay x osr pin =>
      refine ⟨?_, .inl ⟨by omega,
        .start pc (by dsimp only; omega) (by dsimp only; omega) x osr pin⟩, rfl, rfl⟩
      have hle : ¬k < 8 := by omega
      have hlt : k < 16 := by omega
      simp [pin, charLevel, hle, hlt]
    | out i hi pc cycles delay x osr pin => exact absurd delay hdelay
    | hold i hi pc cycles delay last x osr pin =>
      refine ⟨?_, ?_, rfl, rfl⟩
      · rw [charLevel_of_bit (i := i) (by omega) (by omega)]
        exact pin
      · by_cases hend : k + 1 = 80
        · obtain rfl : i = 7 := by omega
          exact .inr ⟨hend, pc, by dsimp only; omega⟩
        · exact .inl ⟨by omega,
            .hold i hi pc (by dsimp only; omega) (by dsimp only; omega) (by omega) x osr pin⟩

/-- In a character the transmitter is not at its `pull`. -/
lemma InChar.not_atPull (h : InChar b k sm) : ¬AtPull sm := by
  rintro ⟨hpc, hdelay⟩
  cases h with
  | stop pc => omega
  | start pc => omega
  | out i hi pc => omega
  | hold i hi pc cycles delay last =>
    split_ifs at pc <;> omega

/-- The FIFO and the flag are not looked at in a character. -/
lemma InChar.with_fifo (h : InChar b k sm) (txFifo : List (BitVec 32)) (txStall : Bool) :
    InChar b k { sm with txFifo := txFifo, txStall := txStall } := by
  cases h with
  | stop pc cycles delay osr pin => exact .stop pc cycles delay osr pin
  | start pc cycles delay x osr pin => exact .start pc cycles delay x osr pin
  | out i hi pc cycles delay x osr pin => exact .out i hi pc cycles delay x osr pin
  | hold i hi pc cycles delay last x osr pin =>
    exact .hold i hi pc cycles delay last x osr pin

/-- The transmitter is about to issue its `pull`, which finds nothing. -/
structure Drained (sm : Sm) : Prop extends AtPull sm where
  txFifo : sm.txFifo = []

lemma Drained.txCycle (h : Drained sm) : Drained (txCycle sm) := by
  rw [h.txCycle_of_nil h.txFifo]
  exact ⟨⟨h.pc, h.delay⟩, h.txFifo⟩

/-! ### One step -/

namespace TxUnit

variable {u v : TxUnit}

/-- How far the frame has come: some bytes are sent, one may be in the transmitter, some are in the
FIFO and the rest is with the DMA. -/
inductive Progress (u : TxUnit) : Prop
  | ready (sent queue : List (BitVec 8)) (atPull : AtPull u.sm)
      (txFifo : u.sm.txFifo = queue.map dmaWord) (levels : SerialLevels sent u.levels)
      (frame : u.frame = sent ++ (queue ++ u.dma))
  | inChar (sent queue : List (BitVec 8)) (b : BitVec 8) (k : ℕ) (levels : List Bool)
      (char : InChar b k u.sm) (txFifo : u.sm.txFifo = queue.map dmaWord)
      (done : SerialLevels sent levels) (now : u.levels = levels ++ charWave b k)
      (frame : u.frame = sent ++ b :: (queue ++ u.dma))

/-- Where the handler is does not matter for the progress. -/
lemma Progress.of_eq (h : u.Progress) (hsm : v.sm = u.sm) (hdma : v.dma = u.dma)
    (hframe : v.frame = u.frame) (hlevels : v.levels = u.levels) : v.Progress := by
  cases h with
  | ready sent queue atPull txFifo levels frame =>
    rw [← hsm] at atPull txFifo
    rw [← hlevels] at levels
    exact .ready sent queue atPull txFifo levels (by rw [hframe, hdma, frame])
  | inChar sent queue b k levels char txFifo done now frame =>
    rw [← hsm] at char txFifo
    exact .inChar sent queue b k levels char txFifo done (hlevels.trans now)
      (by rw [hframe, hdma, frame])

lemma charWave_succ : charWave b (k + 1) = charWave b k ++ [charLevel b k] := by
  simp [charWave, List.range_succ]

/-- A cycle moves the frame on. -/
lemma Progress.cycle (h : u.Progress) : u.cycle.Progress := by
  cases h with
  | ready sent queue atPull txFifo levels frame =>
    cases queue with
    | nil =>
      have hcycle := atPull.txCycle_of_nil txFifo
      refine .ready sent [] ?_ ?_ ?_ frame
      · exact ⟨by simp [TxUnit.cycle, hcycle, atPull.pc],
          by simp [TxUnit.cycle, hcycle, atPull.delay]⟩
      · simpa [TxUnit.cycle, hcycle] using txFifo
      · simpa [TxUnit.cycle, hcycle] using levels.idle
    | cons b queue =>
      have hcycle := atPull.txCycle_of_cons txFifo
      have hlt : 7 < 8 := by decide
      refine .inChar sent queue b 1 u.levels ?_ ?_ levels ?_ frame
      · simp only [TxUnit.cycle, hcycle]
        exact .stop rfl rfl hlt rfl rfl
      · simp [TxUnit.cycle, hcycle]
      · simp [TxUnit.cycle, hcycle, charWave, charLevel]
  | inChar sent queue b k levels char txFifo done now frame =>
    obtain ⟨hpin, hnext, hfifo, -⟩ := char.next
    have hnow : u.cycle.levels = levels ++ charWave b (k + 1) := by
      rw [TxUnit.cycle, now, hpin, charWave_succ, List.append_assoc]
    rcases hnext with ⟨-, hchar⟩ | ⟨hend, hpull⟩
    · exact .inChar sent queue b (k + 1) levels hchar (hfifo.trans txFifo) done hnow frame
    · refine .ready (sent ++ [b]) queue hpull (hfifo.trans txFifo) ?_ ?_
      · rw [hnow, hend]
        exact done.char b
      · simpa [TxUnit.cycle] using frame

/-- A cycle that sets the flag finds nothing in the FIFO. -/
lemma Progress.drained_of_txStall (h : u.Progress) (hstall : u.sm.txStall = false)
    (hnext : (txCycle u.sm).txStall = true) : Drained u.sm := by
  cases h with
  | ready sent queue atPull txFifo levels frame =>
    cases queue with
    | nil => exact ⟨atPull, txFifo⟩
    | cons b queue =>
      rw [atPull.txCycle_of_cons txFifo] at hnext
      exact absurd hnext (by simp [hstall])
  | inChar sent queue b k levels char txFifo done now frame =>
    rw [char.next.txStall, hstall] at hnext
    exact absurd hnext (by decide)

/-- If the transmitter is drained and the DMA is done, the frame is sent. -/
lemma Progress.serialLevels (h : u.Progress) (hdrained : Drained u.sm) (hdma : u.dma = []) :
    SerialLevels u.frame u.levels := by
  cases h with
  | ready sent queue atPull txFifo levels frame =>
    have hqueue : queue = [] := List.map_eq_nil_iff.mp (txFifo.symm.trans hdrained.txFifo)
    rw [frame, hqueue, hdma, List.append_nil, List.append_nil]
    exact levels
  | inChar sent queue b k levels char txFifo done now frame =>
    exact absurd hdrained.toAtPull char.not_atPull

/-- Clearing the flag changes nothing else. -/
lemma Progress.clearStall (h : u.Progress) : u.clearStall.Progress := by
  cases h with
  | ready sent queue atPull txFifo levels frame =>
    exact .ready sent queue ⟨atPull.pc, atPull.delay⟩ txFifo levels frame
  | inChar sent queue b k levels char txFifo done now frame =>
    exact .inChar sent queue b k levels (char.with_fifo _ _) txFifo done now frame

/-- The invariant: once the handler has cleared the flag, the flag means that everything is sent. -/
structure Inv (u : TxUnit) : Prop where
  progress : u.Progress
  idle : u.pc = .idle → Drained u.sm ∧ u.dma = []
  armed : u.pc = .armed → u.frame = []
  completion : u.completion = true → u.pc = .sending ∧ u.dma = []
  handler : u.pc = .waiting ∨ u.pc = .exited → u.dma = []
  stalled : u.pc = .waiting ∧ u.sm.txStall = true ∨ u.pc = .exited →
    Drained u.sm ∧ u.sm.pin = true

lemma inv_initial : initial.Inv where
  progress := .ready [] [] ⟨rfl, rfl⟩ rfl .nil rfl
  idle _ := ⟨⟨⟨rfl, rfl⟩, rfl⟩, rfl⟩
  armed h := absurd h (by decide)
  completion h := absurd h (by decide)
  handler h := absurd h (by decide)
  stalled h := absurd h (by decide)

lemma Inv.arm (h : u.Inv) (hpc : u.pc = .idle) : u.arm.Inv := by
  obtain ⟨hdrained, hdma⟩ := h.idle hpc
  refine ⟨?_, by simp [TxUnit.arm], fun _ => rfl, fun hcompl => ?_, by simp [TxUnit.arm],
    by simp [TxUnit.arm]⟩
  · exact .ready [] [] ⟨hdrained.pc, hdrained.delay⟩ hdrained.txFifo .nil hdma.symm
  · exact absurd (hpc.symm.trans (h.completion hcompl).1) (by decide)

lemma Inv.transfer (h : u.Inv) (hpc : u.pc = .armed) {data : List (BitVec 8)} :
    (u.transfer data).Inv := by
  have hframe := h.armed hpc
  refine ⟨?_, by simp [TxUnit.transfer], by simp [TxUnit.transfer], by simp [TxUnit.transfer],
    by simp [TxUnit.transfer], by simp [TxUnit.transfer]⟩
  -- Nothing was there to be sent before.
  cases h.progress with
  | ready sent queue atPull txFifo levels frame =>
    rw [hframe, eq_comm, List.append_eq_nil_iff, List.append_eq_nil_iff] at frame
    obtain ⟨rfl, rfl, -⟩ := frame
    exact .ready [] [] atPull txFifo levels rfl
  | inChar sent queue b k levels char txFifo done now frame =>
    rw [hframe] at frame
    simp at frame

lemma Inv.clearStall (h : u.Inv) : u.clearStall.Inv where
  progress := h.progress.clearStall
  idle hpc :=
    have hdrained := (h.idle hpc).1
    ⟨⟨⟨hdrained.pc, hdrained.delay⟩, hdrained.txFifo⟩, (h.idle hpc).2⟩
  armed := h.armed
  completion := h.completion
  handler := h.handler
  stalled hpc := by
    have hexit : u.pc = .exited := by simpa [TxUnit.clearStall] using hpc
    obtain ⟨hdrained, hpin⟩ := h.stalled (.inr hexit)
    exact ⟨⟨⟨hdrained.pc, hdrained.delay⟩, hdrained.txFifo⟩, hpin⟩

/-- A drained transmitter has the line high after a cycle. -/
lemma pin_txCycle_of_drained (h : Drained u.sm) : (txCycle u.sm).pin = true := by
  rw [h.txCycle_of_nil h.txFifo]

lemma Inv.cycle (h : u.Inv) : u.cycle.Inv where
  progress := h.progress.cycle
  idle hpc := ⟨(h.idle hpc).1.txCycle, (h.idle hpc).2⟩
  armed := h.armed
  completion := h.completion
  handler := h.handler
  stalled hpc := by
    have hdrained : Drained u.sm := by
      rcases hpc with ⟨hwait, hnext⟩ | hexit
      · cases hstall : u.sm.txStall with
        | true => exact (h.stalled (.inl ⟨hwait, hstall⟩)).1
        | false => exact h.progress.drained_of_txStall hstall hnext
      · exact (h.stalled (.inr hexit)).1
    exact ⟨hdrained.txCycle, pin_txCycle_of_drained hdrained⟩

/-- The DMA only writes while the frame is being sent. -/
lemma Inv.sending (h : u.Inv) (hdma : u.dma ≠ []) : u.pc = .sending := by
  cases hpc : u.pc with
  | idle => exact absurd (h.idle hpc).2 hdma
  | armed =>
    have hframe := h.armed hpc
    cases h.progress with
    | ready sent queue atPull txFifo levels frame => simp [hframe, hdma] at frame
    | inChar sent queue b k levels char txFifo done now frame => simp [hframe] at frame
  | sending => rfl
  | waiting => exact absurd (h.handler (.inl hpc)) hdma
  | exited => exact absurd (h.handler (.inr hpc)) hdma

/-- A byte that the DMA has written is in the FIFO. -/
lemma Inv.dma (h : u.Inv) {b : BitVec 8} {rest : List (BitVec 8)} (hdma : u.dma = b :: rest) :
    Inv { u with sm := u.sm.feed [dmaWord b], dma := rest, completion := rest.isEmpty } := by
  have hpc := h.sending (by simp [hdma])
  refine ⟨?_, by simp [hpc], by simp [hpc], fun hcompl => ⟨hpc, by simpa using hcompl⟩,
    by simp [hpc], by simp [hpc]⟩
  cases h.progress with
  | ready sent queue atPull txFifo levels frame =>
    refine .ready sent (queue ++ [b]) ⟨atPull.pc, atPull.delay⟩ ?_ levels ?_
    · simp [Sm.feed, txFifo]
    · simp [frame, hdma]
  | inChar sent queue c k levels char txFifo done now frame =>
    refine .inChar sent (queue ++ [b]) c k levels (char.with_fifo _ _) ?_ done now ?_
    · simp [Sm.feed, txFifo]
    · simp [frame, hdma]

lemma Inv.enter (h : u.Inv) (hcompl : u.completion = true) :
    Inv { u.clearStall with completion := false, pc := .waiting } := by
  obtain ⟨-, hdma⟩ := h.completion hcompl
  exact ⟨h.progress.clearStall.of_eq rfl rfl rfl rfl, by simp, by simp, by simp, fun _ => hdma,
    by simp [TxUnit.clearStall]⟩

lemma Inv.poll (h : u.Inv) (hpc : u.pc = .waiting) :
    Inv { u with pc := if u.sm.txStall then .exited else .waiting } := by
  have hdma := h.handler (.inl hpc)
  have hcompl : u.completion ≠ true := fun hcompl =>
    absurd (hpc.symm.trans (h.completion hcompl).1) (by decide)
  cases hstall : u.sm.txStall with
  | true =>
    exact ⟨h.progress.of_eq rfl rfl rfl rfl, by simp, by simp, fun hc => absurd hc hcompl,
      fun _ => hdma, fun _ => h.stalled (.inl ⟨hpc, hstall⟩)⟩
  | false =>
    exact ⟨h.progress.of_eq rfl rfl rfl rfl, by simp, by simp, fun hc => absurd hc hcompl,
      fun _ => hdma, by simp [hstall]⟩

lemma Inv.uartDisable (h : u.Inv) (hpc : u.pc = .exited) : u.uartDisable.Inv := by
  have hdma := h.handler (.inr hpc)
  have hdrained := (h.stalled (.inr hpc)).1
  exact ⟨h.progress.of_eq rfl hdma.symm rfl rfl, fun _ => ⟨hdrained, rfl⟩,
    by simp [TxUnit.uartDisable], by simp [TxUnit.uartDisable], by simp [TxUnit.uartDisable],
    by simp [TxUnit.uartDisable]⟩

/-- Every step keeps the invariant. -/
lemma Inv.step (h : u.Inv) {a : TxAct} (hst : u.step a = some v) : v.Inv := by
  cases a with
  | arm =>
    obtain ⟨hpc, rfl⟩ : u.pc = .idle ∧ u.arm = v := by simpa [TxUnit.step] using hst
    exact h.arm hpc
  | transfer data =>
    obtain ⟨⟨hpc, -⟩, rfl⟩ : (u.pc = .armed ∧ data ≠ []) ∧ u.transfer data = v := by
      simpa [TxUnit.step] using hst
    exact h.transfer hpc
  | clearStall =>
    obtain rfl := Option.some.inj hst
    exact h.clearStall
  | cycle =>
    obtain ⟨-, rfl⟩ : u.enabled = true ∧ u.cycle = v := by simpa [TxUnit.step] using hst
    exact h.cycle
  | dma =>
    rcases hdma : u.dma with _ | ⟨b, rest⟩ <;> simp only [TxUnit.step, hdma] at hst
    · simp at hst
    · split_ifs at hst
      obtain rfl := Option.some.inj hst
      exact h.dma hdma
  | enter =>
    obtain ⟨hcompl, rfl⟩ : u.completion = true ∧
        { u.clearStall with completion := false, pc := .waiting } = v := by
      simpa [TxUnit.step] using hst
    exact h.enter hcompl
  | poll =>
    obtain ⟨hpc, rfl⟩ : u.pc = .waiting ∧
        { u with pc := if u.sm.txStall then .exited else .waiting } = v := by
      simpa [TxUnit.step] using hst
    exact h.poll hpc
  | finish =>
    obtain ⟨hpc, rfl⟩ : u.pc = .exited ∧ u.uartDisable = v := by simpa [TxUnit.step] using hst
    exact h.uartDisable hpc

end TxUnit

/-! ### Runs -/

/-- **The closing break.**  For any number of frames of any bytes, any pace of the DMA and any delay
of the handler: when the loop of `tx_handler` has ended, all bytes of the frame were put on the
line, each as a whole character, nothing is left in the FIFO or with the DMA, and the line is
high. -/
theorem break_follows_frame (acts : List TxAct) (u : TxUnit)
    (hrun : exec TxUnit.step .initial acts = some u) (hexit : u.pc = .exited) :
    SerialLevels u.frame u.levels ∧ u.sm.pin = true ∧ u.sm.txFifo = [] ∧ u.dma = [] := by
  have h : u.Inv := exec_inv (fun _ _ _ h hst => h.step hst) TxUnit.inv_initial hrun
  obtain ⟨hdrained, hpin⟩ := h.stalled (.inr hexit)
  have hdma := h.handler (.inr hexit)
  exact ⟨h.progress.serialLevels hdrained hdma, hpin, hdrained.txFifo, hdma⟩

/-- Two bytes.  The transmitter stalls before the first byte and, because the DMA is slow, before
the second; the handler clears the flag in the middle of the second. -/
def slowFrame : List TxAct :=
  List.flatten
    [[.arm, .cycle, .transfer [0x5a, 0x01], .clearStall, .dma], .replicate 90 .cycle, [.dma],
      .replicate 40 .cycle, [.enter, .poll], .replicate 41 .cycle, [.poll]]

/-- Its break follows the second byte. -/
theorem break_follows_slow_frame :
    ∃ u, exec TxUnit.step .initial slowFrame = some u ∧ u.pc = .exited ∧
      u.frame = [0x5a, 0x01] ∧ SerialLevels u.frame u.levels := by
  have hrun : (exec TxUnit.step .initial slowFrame).map (fun u => (u.pc, u.frame)) =
      some (.exited, [0x5a, 0x01]) := by decide +kernel
  obtain ⟨u, hu, heq⟩ := Option.map_eq_some_iff.mp hrun
  obtain ⟨hpc, hframe⟩ := Prod.mk.inj heq
  exact ⟨u, hu, hpc, hframe, (break_follows_frame slowFrame u hu hpc).1⟩

end JdPico
