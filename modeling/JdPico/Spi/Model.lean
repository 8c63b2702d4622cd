import JdPico.Lib.Run
import JdPico.Pins.Model
import Mathlib.Logic.Function.Basic

/-!
# The SPI driver

`spi.c` runs one transfer at a time over the SPI block that the pins belong to.  Two DMA channels
move the bytes: one from the buffer of the caller to the data register of the block, one from the
data register to the buffer of the caller.  The completion interrupt of the second carries the end
of the transfer if the caller wants the received bytes, that of the first otherwise; the interrupt
leaves the done function in `spi_done_cb`, and the main loop calls it.

The hardware is modelled byte by byte.  A block has a TX and an RX FIFO of eight entries each; it is
the master, so it clocks a byte out, and with it a byte in, only while its TX FIFO is not empty, and
a byte that comes in while the RX FIFO is full is lost.  A channel moves a byte when the block it is
paced by requests it: the TX side while the TX FIFO has room, the RX side while the RX FIFO is not
empty.  A start of a channel that is busy has no effect; a new read address takes effect at once.
`spi_init` of the SDK resets the block.  Clock rate and format of the block do not change what is
exchanged.

Transfers are numbered as they are accepted.  The numbers on the channels, on the latches of their
interrupts and in the log are there to say which transfer something belongs to; the driver does
not see them.
-/

namespace JdPico

/-- The two SPI blocks. -/
inductive SpiInst where
  | spi0
  | spi1
  deriving DecidableEq, Repr

/-- The two directions of a transfer; each has its DMA channel. -/
inductive SpiDir where
  | tx
  | rx
  deriving DecidableEq, Repr

/-- The depth of the FIFOs of a block. -/
def spiFifoSize : ℕ := 8

/-- An SPI block: its FIFOs, the oldest entry first. -/
structure SpiHw where
  txFifo : List UInt8
  rxFifo : List UInt8
  deriving DecidableEq, Repr

/-- A block after its reset. -/
def SpiHw.reset : SpiHw := ⟨[], []⟩

/-- The RX FIFO after a byte was clocked in. -/
def SpiHw.clockIn (hw : SpiHw) (miso : UInt8) : List UInt8 :=
  if hw.rxFifo.length < spiFifoSize then hw.rxFifo ++ [miso] else hw.rxFifo

/-- A done function, with the number of the transfer it was given to. -/
structure SpiDone where
  fn : ℕ
  xfer : ℕ
  deriving DecidableEq, Repr

/-- A DMA channel of the driver, with its slot in `dmaHandler`. -/
structure SpiDma where
  /-- The block whose requests pace the channel. -/
  dreq : SpiInst
  /-- The block whose data register the channel reads or writes. -/
  dr : SpiInst
  /-- The transfer count that the next start takes. -/
  reload : ℕ
  /-- The moves that are left; the channel is busy until it is zero. -/
  count : ℕ
  /-- The transfer that started the channel. -/
  run : ℕ
  /-- The latch of the completion interrupt, with the transfer that started the channel. -/
  intr : Option ℕ
  /-- The channel is enabled for `DMA_IRQ_0`. -/
  inte : Bool
  /-- The handler slot holds `spi_dma_cb`. -/
  handler : Bool
  /-- The context of the handler: the done function. -/
  context : SpiDone
  deriving DecidableEq, Repr

namespace SpiDma

/-- A channel before its first use. -/
def off : SpiDma := ⟨.spi0, .spi0, 0, 0, 0, none, false, false, ⟨0, 0⟩⟩

/-- `dma_channel_configure`, without a start. -/
def configure (c : SpiDma) (dreq dr : SpiInst) : SpiDma :=
    { c with dreq := dreq, dr := dr, reload := 0 }

/-- Start the channel for the transfer `k`, if it is not busy. -/
def start (c : SpiDma) (k : ℕ) : SpiDma :=
  if c.count = 0 then { c with count := c.reload, run := k } else c

/-- One byte was moved; the last one sets the latch of the interrupt. -/
def moved (c : SpiDma) : SpiDma :=
  { c with count := c.count - 1, intr := if c.count = 1 then some c.run else c.intr }

/-- The bit of the channel in `ints0`. -/
def ints (c : SpiDma) : Option ℕ := if c.inte then c.intr else none

/-- Write the bit of the channel in `ints0` back to clear its latch. -/
def clear (c : SpiDma) : SpiDma := if c.ints.isSome then { c with intr := none } else c

/-- What `isr_dma_0` does to a slot before it calls the handler. -/
def release (c : SpiDma) : SpiDma := { c with inte := false, handler := false }

/-- `dma_set_ch_cb` with the handler `spi_dma_cb`; `none` if the assertion that the slot is empty
fails. -/
def setChCb (c : SpiDma) (context : SpiDone) : Option SpiDma :=
  if c.handler then none
  else some { c with handler := true, context := context, intr := none, inte := true }

end SpiDma

/-- What is seen from outside. -/
inductive SpiEvent where
  /-- `jd_spi_init` configured the driver for a block. -/
  | configured (inst : SpiInst)
  /-- `jd_spi_xfer` accepted a transfer with these buffers, length and done function. -/
  | accepted (xfer : ℕ) (tx rx : Bool) (numbytes fn : ℕ)
  /-- A block clocked out `mosi` and clocked in `miso`. -/
  | shifted (inst : SpiInst) (mosi miso : UInt8)
  /-- `spi_dma_cb` stored the done function of a transfer, because of an interrupt of a channel that
  the transfer `cause` started. -/
  | completed (done : SpiDone) (cause : ℕ)
  /-- `jd_spi_process` called a done function. -/
  | invoked (done : SpiDone)
  deriving DecidableEq, Repr

/-- The static variables of `spi.c` together with the hardware. -/
structure SpiState where
  spiInUse : Bool
  dmaClaimed : Bool
  /-- `spi`; `none` is the null pointer. -/
  spi : Option SpiInst
  spiDoneCb : Option SpiDone
  hw : SpiInst → SpiHw
  dma : SpiDir → SpiDma
  /-- The memory from the read address of the TX channel on. -/
  txSrc : ℕ → UInt8
  /-- The bytes the RX channel has stored since its write address was set. -/
  rxStored : List UInt8
  /-- The number of transfers accepted so far. -/
  xfers : ℕ
  /-- What happened so far, newest first. -/
  log : List SpiEvent

/-- What the hardware gives where the driver should not look. -/
structure SpiEnv where
  /-- A read of the data register of a block whose RX FIFO is empty. -/
  drEmpty : UInt8
  /-- The memory from address zero on. -/
  atNull : ℕ → UInt8

/-- The state at start-up. -/
def SpiState.initial (env : SpiEnv) : SpiState :=
  { spiInUse := false
    dmaClaimed := false
    spi := none
    spiDoneCb := none
    hw := fun _ => .reset
    dma := fun _ => .off
    txSrc := env.atNull
    rxStored := []
    xfers := 0
    log := [] }

namespace SpiState

/-- Change a block. -/
def setHw (s : SpiState) (inst : SpiInst) (hw : SpiHw) : SpiState :=
  { s with hw := Function.update s.hw inst hw }

/-- Change a channel. -/
def setDma (s : SpiState) (d : SpiDir) (c : SpiDma) : SpiState :=
  { s with dma := Function.update s.dma d c }

/-- Write an entry to the log. -/
def note (s : SpiState) (e : SpiEvent) : SpiState := { s with log := e :: s.log }

end SpiState

open SpiState

/-! ### The driver -/

/-- The pins of `jd_spi_cfg_t`. -/
structure SpiCfg where
  sck : UInt8
  miso : UInt8
  mosi : UInt8
  deriving DecidableEq, Repr

/-- The pins in the order in which `jd_spi_init` looks at them. -/
def SpiCfg.pins (cfg : SpiCfg) : List UInt8 := [cfg.sck, cfg.miso, cfg.mosi]

/-- The block `jd_spi_init` selects for a pin. -/
def spiSelect (pin : UInt8) : SpiInst := if pin / 8 &&& 1 ≠ 0 then .spi1 else .spi0

/-- `jd_spi_init`, with its result.  The RX channel is paced by the selected block and reads the
data register of `spi_default`, which is `spi0`. -/
def jdSpiInit (env : SpiEnv) (cfg : SpiCfg) (s : SpiState) : ℤ × SpiState :=
  if s.spiInUse then (-100, s)
  else
    match cfg.pins.find? (· ≠ noPin) with
    | none => (-1, s)
    | some pin =>
      let spi := spiSelect pin
      let s := { s with spi := some spi, dmaClaimed := true, txSrc := env.atNull, rxStored := [] }
      let s := s.setHw spi .reset
      let s := s.setDma .tx ((s.dma .tx).configure spi spi)
      let s := s.setDma .rx ((s.dma .rx).configure spi .spi0)
      (0, s.note (.configured spi))

/-- `jd_spi_is_ready`. -/
def jdSpiIsReady (s : SpiState) : Bool := s.spi.isSome && !s.spiInUse

/-- The arguments of `jd_spi_xfer`. -/
structure SpiXfer where
  /-- `txdata`, as the memory it points to; `none` is the null pointer. -/
  txdata : Option (ℕ → UInt8)
  /-- `rxdata` is not null. -/
  rxdata : Bool
  numbytes : ℕ
  /-- `done_fn`; `none` is the null pointer. -/
  doneFn : Option ℕ

/-- `BLOCK_SIZE`, the largest transfer. -/
def spiBlockSize : ℕ := 4096

/-- The direction whose channel carries the completion of a transfer. -/
def SpiXfer.carrier (x : SpiXfer) : SpiDir := if x.rxdata then .rx else .tx

/-- The addresses and counts `jd_spi_xfer` writes to the channels. -/
def SpiState.setup (s : SpiState) (x : SpiXfer) : SpiState :=
  let s :=
    match x.txdata with
    | none => s
    | some mem =>
      { s.setDma .tx { s.dma .tx with reload := x.numbytes } with txSrc := mem }
  if x.rxdata then
    { s.setDma .rx { s.dma .rx with reload := x.numbytes } with rxStored := [] }
  else s

/-- `jd_spi_xfer` up to the start of the channels, with its result; `none` if an assertion fails. -/
def jdSpiXferPrepare (x : SpiXfer) (s : SpiState) : Option (ℤ × SpiState) :=
  match x.doneFn with
  | none => none
  | some fn =>
    if !jdSpiIsReady s then some (-1, s)
    else if spiBlockSize < x.numbytes then some (-2, s)
    else if x.numbytes = 0 then some (-3, s)
    else if x.txdata.isNone && !x.rxdata then none
    else
      let s := s.setup x
      let s := { s with spiInUse := true, xfers := s.xfers + 1 }
      ((s.dma x.carrier).setChCb ⟨fn, s.xfers⟩).map fun c =>
        (0, (s.setDma x.carrier c).note
          (.accepted s.xfers x.txdata.isSome x.rxdata x.numbytes fn))

/-- `dma_start_channel_mask`, for the channels `jd_spi_xfer` puts into its mask. -/
def dmaStart (tx rx : Bool) (s : SpiState) : SpiState :=
  let s := if tx then s.setDma .tx ((s.dma .tx).start s.xfers) else s
  if rx then s.setDma .rx ((s.dma .rx).start s.xfers) else s

/-- `jd_spi_xfer`, with its result; `none` if an assertion fails. -/
def jdSpiXfer (x : SpiXfer) (s : SpiState) : Option (ℤ × SpiState) :=
  (jdSpiXferPrepare x s).map fun r =>
    if r.1 = 0 then (0, dmaStart x.txdata.isSome x.rxdata r.2) else r

/-- `jd_spi_process`. -/
def jdSpiProcess (s : SpiState) : SpiState :=
  match s.spiDoneCb with
  | none => s
  | some d => { s with spiDoneCb := none, spiInUse := false }.note (.invoked d)

/-- `spi_dma_cb`; `none` if its assertion fails. -/
def spiDmaCb (d : SpiDone) (cause : ℕ) (s : SpiState) : Option SpiState :=
  if s.spiDoneCb.isSome then none
  else some ({ s with spiDoneCb := some d }.note (.completed d cause))

/-- The turn of `isr_dma_0` for a channel whose bit in the mask is `mask`. -/
def spiService (d : SpiDir) (mask : Option ℕ) (s : SpiState) : Option SpiState :=
  match mask with
  | none => some s
  | some cause =>
    if (s.dma d).handler then
      spiDmaCb (s.dma d).context cause (s.setDma d (s.dma d).release)
    else some s

/-- `isr_dma_0`, for the channels of the driver.  The TX channel is claimed first and has the lower
number. -/
def spiIsr (s : SpiState) : Option SpiState :=
  let maskTx := (s.dma .tx).ints
  let maskRx := (s.dma .rx).ints
  let s := { s with dma := fun d => (s.dma d).clear }
  (spiService .tx maskTx s).bind (spiService .rx maskRx)

/-! ### The hardware -/

/-- The TX channel moves a byte: it is busy and its block has room. -/
def spiTxMove (s : SpiState) : Option SpiState :=
  let c := s.dma .tx
  if 0 < c.count ∧ (s.hw c.dreq).txFifo.length < spiFifoSize then
    let hw := { s.hw c.dr with txFifo := (s.hw c.dr).txFifo ++ [s.txSrc 0] }
    some { (s.setHw c.dr hw).setDma .tx c.moved with txSrc := fun i => s.txSrc (i + 1) }
  else none

/-- The RX channel moves a byte: it is busy and its block has received something. -/
def spiRxMove (env : SpiEnv) (s : SpiState) : Option SpiState :=
  let c := s.dma .rx
  if 0 < c.count ∧ (s.hw c.dreq).rxFifo ≠ [] then
    let hw := s.hw c.dr
    some { (s.setHw c.dr { hw with rxFifo := hw.rxFifo.tail }).setDma .rx c.moved with
      rxStored := s.rxStored ++ [hw.rxFifo.headD env.drEmpty] }
  else none

/-- A block clocks a byte out and a byte in. -/
def spiShift (inst : SpiInst) (miso : UInt8) (s : SpiState) : Option SpiState :=
  let hw := s.hw inst
  match hw.txFifo with
  | [] => none
  | mosi :: rest =>
    some ((s.setHw inst ⟨rest, hw.clockIn miso⟩).note (.shifted inst mosi miso))

/-- The steps of the system. -/
inductive SpiAction where
  | init (cfg : SpiCfg)
  | xfer (x : SpiXfer)
  | process
  | txMove
  | rxMove
  /-- A block shifts; `miso` is the byte on the line. -/
  | shift (inst : SpiInst) (miso : UInt8)
  /-- The DMA interrupt is taken. -/
  | irq

/-- One step of the system; `none` if it is not possible or an assertion fails. -/
def SpiState.step (env : SpiEnv) (s : SpiState) : SpiAction → Option SpiState
  | .init cfg => some (jdSpiInit env cfg s).2
  | .xfer x => (jdSpiXfer x s).map Prod.snd
  | .process => some (jdSpiProcess s)
  | .txMove => spiTxMove s
  | .rxMove => spiRxMove env s
  | .shift inst miso => spiShift inst miso s
  | .irq => spiIsr s

end JdPico
