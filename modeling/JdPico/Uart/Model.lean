import JdPico.Lib.Run

/-!
# The Jacdac line driver

`uart.c` drives the one-wire Jacdac line with two PIO state machines, one for each direction, and
one DMA channel for each of them.  The driver is entered from four interrupts of the same priority
(the falling edge of the line, the break seen by the receiver, the two DMA channels) and from the
code below them, which transmits and times out receptions.

The state holds what these entry points share: `uart_status`, the interrupt enables and latches, the
state machine enables, and the two DMA channels with their handler slots in `dma.c`.  The latches
carry the number of the reception they belong to, so that an interrupt that is taken late can be
told from one of the current reception; the driver itself does not see these numbers.  The levels of
the pin and the data are left out.  `jd_line_falling` is part of jacdac-c; what it does to the
driver is to call `uart_start_rx`, or `uart_disable` if `uart_wait_high` fails.
-/

namespace JdPico

/-- The values of `uart_status`; no other combination of its bits is ever stored. -/
inductive UartStatus where
  /-- `STATUS_IDLE`. -/
  | idle
  /-- `STATUS_TX`. -/
  | tx
  /-- `STATUS_RX`. -/
  | rx
  deriving DecidableEq, Repr

/-! ### DMA channels -/

/-- A DMA channel, with its slot in `dmaHandler`. -/
structure DmaCh where
  /-- A transfer is going on, for the reception or transmission of that number. -/
  busy : Option ℕ
  /-- The latch of the completion interrupt, with the number of the transfer that set it. -/
  intr : Option ℕ
  /-- The channel is enabled for `DMA_IRQ_0`. -/
  inte : Bool
  /-- The handler slot is not null. -/
  handler : Bool
  deriving DecidableEq, Repr

namespace DmaCh

/-- A channel that is not in use. -/
def off : DmaCh := ⟨none, none, false, false⟩

/-- The transfer ends, completed or aborted: both set the latch of the interrupt.  A channel that is
not busy is left as it is. -/
def finish (c : DmaCh) : DmaCh :=
  match c.busy with
  | none => c
  | some k => { c with busy := none, intr := some k }

/-- The bit of the channel in `ints0`. -/
def ints (c : DmaCh) : Option ℕ := if c.inte then c.intr else none

/-- Write the bit of the channel in `ints0` back to clear its latch. -/
def clear (c : DmaCh) : DmaCh := if c.ints.isSome then { c with intr := none } else c

/-- What `isr_dma_0` does to a slot before it calls the handler. -/
def release (c : DmaCh) : DmaCh := { c with inte := false, handler := false }

/-- `dma_set_ch_cb`; `none` if the assertion that the slot is empty fails. -/
def setChCb (c : DmaCh) : Option DmaCh :=
  if c.handler then none else some { c with handler := true, intr := none, inte := true }

/-- Start a transfer. -/
def start (c : DmaCh) (k : ℕ) : DmaCh := { c with busy := some k }

@[simp] lemma finish_busy (c : DmaCh) : c.finish.busy = none := by
  unfold finish
  cases hb : c.busy with
  | none => exact hb
  | some k => rfl

lemma clear_of_ints_none {c : DmaCh} (h : c.ints = none) : c.clear = c := by
  simp [clear, h]

@[simp] lemma clear_handler (c : DmaCh) : c.clear.handler = c.handler := by
  unfold clear
  split_ifs <;> rfl

@[simp] lemma clear_busy (c : DmaCh) : c.clear.busy = c.busy := by
  unfold clear
  split_ifs <;> rfl

end DmaCh

/-! ### The driver -/

/-- What is seen from outside. -/
inductive UartEvent where
  /-- `jd_rx_completed(0)` during the reception of that number, because of an interrupt that belongs
  to the reception `cause`. -/
  | rxCompleted (reception cause : ℕ)
  /-- A timeout ended the reception. -/
  | rxTimeout (reception : ℕ)
  /-- `jd_tx_completed(0)`. -/
  | txCompleted
  deriving DecidableEq, Repr

/-- The state of the driver. -/
structure UartState where
  /-- `uart_status`. -/
  status : UartStatus
  /-- The falling edge interrupt of the pin is enabled. -/
  exti : Bool
  /-- The TX state machine is enabled. -/
  smtx : Bool
  /-- The RX state machine is enabled. -/
  smrx : Bool
  /-- The break flag in `pio0->irq`, with the reception that raised it. -/
  pioIrq : Option ℕ
  /-- The break flag is a source of the PIO interrupt. -/
  irq0Source : Bool
  dmaRx : DmaCh
  dmaTx : DmaCh
  /-- The number of receptions started; the latest one has this number. -/
  receptions : ℕ
  /-- What happened so far, newest first. -/
  log : List UartEvent
  deriving DecidableEq, Repr

/-- The state after `uart_init_`. -/
def UartState.initial : UartState :=
  ⟨.idle, true, false, false, none, false, .off, .off, 0, []⟩

/-- The part of `uart_disable` with interrupts masked. -/
def uartRelease (u : UartState) : UartState :=
  { u with
    dmaRx := u.dmaRx.finish
    dmaTx := u.dmaTx.finish
    smtx := false
    smrx := false
    irq0Source := false
    exti := true }

/-- `uart_disable`. -/
def uartDisable (u : UartState) : UartState := uartRelease { u with status := .idle }

/-- `rx_done`, called for an interrupt of the reception `cause`. -/
def rxDone (cause : ℕ) (u : UartState) : UartState :=
  if u.status = .rx then
    let u := { u with status := .idle }
    let u := uartDisable u
    { u with log := .rxCompleted u.receptions cause :: u.log }
  else u

/-- `tx_handler`; the wait for the last bits and the closing break are left out. -/
def txHandler (u : UartState) : UartState :=
  let u := uartDisable u
  { u with log := .txCompleted :: u.log }

/-- `isr_pio0_0`. -/
def isrPio00 (u : UartState) : UartState :=
  match u.pioIrq with
  | none => u
  | some cause => rxDone cause { u with pioIrq := none }

/-- The turn of `isr_dma_0` for the RX channel. -/
def serviceRx (mask : Option ℕ) (u : UartState) : UartState :=
  match mask with
  | none => u
  | some cause =>
    if u.dmaRx.handler then rxDone cause { u with dmaRx := u.dmaRx.release } else u

/-- The turn of `isr_dma_0` for the TX channel. -/
def serviceTx (mask : Option ℕ) (u : UartState) : UartState :=
  match mask with
  | none => u
  | some _ => if u.dmaTx.handler then txHandler { u with dmaTx := u.dmaTx.release } else u

/-- `isr_dma_0`.  The RX channel is claimed first and has the lower number; the channels of other
drivers do not touch the line driver. -/
def isrDma0 (u : UartState) : UartState :=
  let maskRx := u.dmaRx.ints
  let maskTx := u.dmaTx.ints
  let u := { u with dmaRx := u.dmaRx.clear, dmaTx := u.dmaTx.clear }
  serviceTx maskTx (serviceRx maskRx u)

/-! ### Interrupts of a driver that does not receive -/

section NotReceiving

variable {u : UartState} (h : u.status ≠ .rx)

include h

/-- `rx_done` does nothing. -/
lemma rxDone_of_ne_rx (cause : ℕ) : rxDone cause u = u := by
  simp [rxDone, h]

/-- The PIO interrupt only clears its flag. -/
lemma isrPio00_of_ne_rx : isrPio00 u = { u with pioIrq := none } := by
  unfold isrPio00
  cases hirq : u.pioIrq with
  | none => simp [← hirq]
  | some cause => exact rxDone_of_ne_rx (u := { u with pioIrq := none }) h cause

/-- The turn for the RX channel only changes that channel. -/
lemma serviceRx_of_ne_rx (mask : Option ℕ) : ∃ c, serviceRx mask u = { u with dmaRx := c } := by
  unfold serviceRx
  cases mask with
  | none => exact ⟨u.dmaRx, rfl⟩
  | some cause =>
    dsimp only
    split_ifs
    · exact ⟨u.dmaRx.release, rxDone_of_ne_rx (u := { u with dmaRx := u.dmaRx.release }) h cause⟩
    · exact ⟨u.dmaRx, rfl⟩

/-- The DMA interrupt only changes the RX channel if that of the TX channel is not pending. -/
lemma isrDma0_of_ne_rx (htx : u.dmaTx.ints = none) : ∃ c, isrDma0 u = { u with dmaRx := c } := by
  obtain ⟨c, hc⟩ := serviceRx_of_ne_rx (u := { u with dmaRx := u.dmaRx.clear }) h u.dmaRx.ints
  refine ⟨c, ?_⟩
  simp only [isrDma0, htx, DmaCh.clear_of_ints_none htx, serviceTx]
  exact hc

end NotReceiving

/-! ### Receiving -/

/-- `uart_start_rx`; `none` if the assertion in `dma_set_ch_cb` fails. -/
def uartStartRx (u : UartState) : Option UartState :=
  let u := { u with status := .rx, exti := false, smrx := true, pioIrq := none }
  (u.dmaRx.setChCb).map fun c =>
    { u with
      dmaRx := c.start (u.receptions + 1)
      irq0Source := true
      receptions := u.receptions + 1 }

/-- `uart_start_rx` returns exactly when the slot is empty. -/
lemma uartStartRx_eq_some {u v : UartState} (h : uartStartRx u = some v) :
    u.dmaRx.handler = false ∧
      v = { u with
        status := .rx
        exti := false
        smrx := true
        pioIrq := none
        irq0Source := true
        dmaRx := ⟨some (u.receptions + 1), none, true, true⟩
        receptions := u.receptions + 1 } := by
  obtain ⟨c, hc, rfl⟩ := Option.map_eq_some_iff.mp h
  simp only [DmaCh.setChCb] at hc
  split_ifs at hc with hh
  obtain rfl := Option.some.inj hc
  exact ⟨by simpa using hh, rfl⟩

/-- What `jd_line_falling` does to the driver; `high` is the result of `uart_wait_high`. -/
def jdLineFalling (high : Bool) (u : UartState) : Option UartState :=
  if high then uartStartRx u else some (uartDisable u)

/-- The RX state machine sees a break. -/
def rxBreak (u : UartState) : Option UartState :=
  if u.smrx then some { u with pioIrq := some u.receptions } else none

/-- The transfer of the RX channel completes. -/
def dmaRxComplete (u : UartState) : Option UartState :=
  if u.dmaRx.busy.isSome then some { u with dmaRx := u.dmaRx.finish } else none

/-- The transfer of the TX channel completes. -/
def dmaTxComplete (u : UartState) : Option UartState :=
  if u.dmaTx.busy.isSome then some { u with dmaTx := u.dmaTx.finish } else none

end JdPico
