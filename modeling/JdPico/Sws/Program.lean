import JdPico.Lib.Pio

/-!
# The serial line programs

The two PIO programs of `sws.pio` with the configuration `uart.c` gives their state machines.
Addresses are relative to the start of each program.

The transmitter drives its output pin, which is the line.  The receiver samples the line; the
side-sets of its program are for a debug pin and do not touch the line.
-/

namespace JdPico

open Pio

/-- `jd_tx`: the stop bit is the stalled `pull`, the start bit the `set`, then eight data bits. -/
def jdTx : Program :=
  [ ⟨.pull, some true, 7⟩,
    ⟨.setX 7, some false, 7⟩,
    -- bitloop:
    ⟨.outPin, none, 0⟩,
    ⟨.jmp .xDec 2, none, 6⟩ ]

/-- `jd_rx`: wait for the start bit, sample eight data bits, check the stop bit. -/
def jdRx : Program :=
  [ -- start:
    ⟨.wait false, none, 0⟩,
    ⟨.setX 7, some false, 7⟩,
    ⟨.nop, none, 1⟩,
    -- bitloop:
    ⟨.inPin, some true, 0⟩,
    ⟨.nop, some false, 0⟩,
    ⟨.jmp .xDec 3, none, 5⟩,
    ⟨.jmp .pin 10, some true, 0⟩,
    ⟨.irq 1, some false, 0⟩,
    ⟨.wait true, none, 0⟩,
    ⟨.jmp .always 0, some true, 0⟩,
    -- good_stop:
    ⟨.nop, none, 0⟩ ]

/-- `jd_tx_program_init`: shift out to the right, no autopull; the input side keeps its defaults. -/
def jdTxConfig : ShiftConfig := ⟨true, true, none⟩

/-- `jd_rx_program_init`: shift in to the right, push by itself after eight bits. -/
def jdRxConfig : ShiftConfig := ⟨true, true, some 8⟩

/-- A state machine at the start of its program, with nothing in its registers and its pin high. -/
def smStart : Sm :=
  { pc := 0, delay := 0, x := 0, isr := 0, isrCount := 0, osr := 0, txFifo := [], pin := true,
    txStall := false, pushed := [], raised := [] }

/-- A byte the DMA writes to the TX FIFO: a narrow write appears on every byte lane of the word. -/
def dmaWord (b : BitVec 8) : BitVec 32 :=
  let w := b.setWidth 32
  w ||| w <<< 8 ||| w <<< 16 ||| w <<< 24

/-- The word that holds a byte in bits 24 to 31. -/
def rxWord (b : BitVec 8) : BitVec 32 := b.setWidth 32 <<< 24

/-- The byte the RX DMA reads: the one at offset 3 of the FIFO word. -/
def dmaByte (w : BitVec 32) : BitVec 8 := w.extractLsb' 24 8

/-- The RX DMA reads back the byte that `rxWord` holds. -/
@[simp] lemma dmaByte_rxWord (b : BitVec 8) : dmaByte (rxWord b) = b := by
  ext i hi
  have : 24 + i < 32 := by omega
  simp [dmaByte, rxWord, hi, this]

/-- The low eight bits of the word in the TX FIFO are the byte. -/
lemma getLsbD_dmaWord (b : BitVec 8) {i : ℕ} (hi : i < 8) :
    (dmaWord b).getLsbD i = b.getLsbD i := by
  have h16 : i < 16 := by omega
  have h24 : i < 24 := by omega
  have h32 : i < 32 := by omega
  simp [dmaWord, hi, h16, h24, h32]

end JdPico
