import JdPico.Lib.Run
import Mathlib.Logic.Function.Basic

/-!
# The DMA callback table

`dma.c` keeps a handler and a context for each of the twelve DMA channels.  `dma_set_ch_cb` fills an
empty slot and turns the interrupt of the channel on; `isr_dma_0` reads which channels ask for
service, clears their latches, and then goes through the channels, emptying the slot of each before
it calls the handler.

A handler may register callbacks, and channels may complete, at any time: between the read and the
clear of `isr_dma_0` and between any two turns of its loop.  What a handler registers are the steps
between the turn that calls it and the next one.

Registrations and completions are numbered.  The numbers in the slots, in the latches and in the
mask of the service routine are there to say what belongs together; the code does not see them.
-/

namespace JdPico

/-- The number of channels. -/
def dmaChannels : ℕ := 12

/-- `DMAHandler`, with the number of the registration that filled it last. -/
structure DmaSlot where
  context : ℕ
  /-- `none` is the null pointer. -/
  handler : Option ℕ
  reg : ℕ
  deriving DecidableEq, Repr

/-- What happens at the table. -/
inductive DmaEvent where
  /-- `dma_set_ch_cb` registered a handler. -/
  | registered (reg : ℕ) (ch : Fin dmaChannels) (handler : Option ℕ) (context : ℕ)
  /-- A channel completed; `reg` is the registration in its slot, if there is one. -/
  | completed (k : ℕ) (ch : Fin dmaChannels) (reg : Option ℕ)
  /-- `isr_dma_0` called the handler of a registration, because of a completion of its channel. -/
  | called (reg : ℕ) (ch : Fin dmaChannels) (handler context k : ℕ)
  deriving DecidableEq, Repr

/-- Where `isr_dma_0` is. -/
inductive DmaPc where
  /-- It does not run. -/
  | out
  /-- It has read the mask: the channels that ask for service, each with its completion. -/
  | read (mask : Fin dmaChannels → Option ℕ)
  /-- It is at the turn `ch` of its loop. -/
  | loop (mask : Fin dmaChannels → Option ℕ) (ch : ℕ)

/-- The table and the interrupt registers. -/
structure DmaTable where
  dmaHandler : Fin dmaChannels → DmaSlot
  /-- The latches of the channels, with the completion that set them. -/
  intr : Fin dmaChannels → Option ℕ
  /-- `inte0`: the channels whose interrupt is on. -/
  inte : Fin dmaChannels → Bool
  pc : DmaPc
  /-- The number of registrations so far. -/
  regs : ℕ
  /-- The number of completions so far. -/
  completions : ℕ
  /-- What happened so far, newest first. -/
  log : List DmaEvent

/-- The table at start-up. -/
def DmaTable.initial : DmaTable :=
  { dmaHandler := fun _ => ⟨0, none, 0⟩
    intr := fun _ => none
    inte := fun _ => false
    pc := .out
    regs := 0
    completions := 0
    log := [] }

namespace DmaTable

/-- `ints0`: the channels that ask for service. -/
def ints (s : DmaTable) (ch : Fin dmaChannels) : Option ℕ := if s.inte ch then s.intr ch else none

/-- The registration in the slot of a channel, if the slot is not empty. -/
def holds (s : DmaTable) (ch : Fin dmaChannels) : Option ℕ :=
  if (s.dmaHandler ch).handler.isSome then some (s.dmaHandler ch).reg else none

/-- What `dma_set_ch_cb` does in an empty slot: it fills the slot, clears the latch of the channel
and turns its interrupt on. -/
def fill (ch : Fin dmaChannels) (handler : Option ℕ) (context : ℕ) (s : DmaTable) : DmaTable :=
  { s with
    dmaHandler := Function.update s.dmaHandler ch ⟨context, handler, s.regs + 1⟩
    intr := Function.update s.intr ch none
    inte := Function.update s.inte ch true
    regs := s.regs + 1
    log := .registered (s.regs + 1) ch handler context :: s.log }

/-- `dma_set_ch_cb`; `none` if its assertion fails. -/
def dmaSetChCb (channel : ℕ) (handler : Option ℕ) (context : ℕ) (s : DmaTable) : Option DmaTable :=
  if h : channel < dmaChannels then
    if (s.dmaHandler ⟨channel, h⟩).handler.isSome then none
    else some (s.fill ⟨channel, h⟩ handler context)
  else some s

/-- A channel completes; a latch that is set stays as it is. -/
def complete (ch : Fin dmaChannels) (s : DmaTable) : DmaTable :=
  { s with
    intr := Function.update s.intr ch (some ((s.intr ch).getD (s.completions + 1)))
    completions := s.completions + 1
    log := .completed (s.completions + 1) ch (s.holds ch) :: s.log }

/-- The turn of the loop of `isr_dma_0` for the channel `ch`. -/
def service (mask : Fin dmaChannels → Option ℕ) (ch : Fin dmaChannels) (s : DmaTable) : DmaTable :=
  match mask ch, (s.dmaHandler ch).handler with
  | some k, some f =>
    { s with
      inte := Function.update s.inte ch false
      dmaHandler := Function.update s.dmaHandler ch { s.dmaHandler ch with handler := none }
      log := .called (s.dmaHandler ch).reg ch f (s.dmaHandler ch).context k :: s.log }
  | _, _ => s

/-- The next statement of `isr_dma_0`. -/
def isrDma0 (s : DmaTable) : DmaTable :=
  match s.pc with
  | .out => { s with pc := .read s.ints }
  | .read mask =>
    { s with
      intr := fun ch => if (mask ch).isSome then none else s.intr ch
      pc := .loop mask 0 }
  | .loop mask ch =>
    if h : ch < dmaChannels then { service mask ⟨ch, h⟩ s with pc := .loop mask (ch + 1) }
    else { s with pc := .out }

end DmaTable

/-- The steps at the table.  A registration passes a function, as `uart.c`, `uart_log.c` and
`spi.c` do. -/
inductive DmaAct where
  | setChCb (channel handler context : ℕ)
  | complete (ch : Fin dmaChannels)
  | isr
  deriving DecidableEq, Repr

/-- One step; `none` if an assertion fails. -/
def DmaTable.step (s : DmaTable) : DmaAct → Option DmaTable
  | .setChCb channel handler context => s.dmaSetChCb channel (some handler) context
  | .complete ch => some (s.complete ch)
  | .isr => some s.isrDma0

end JdPico
