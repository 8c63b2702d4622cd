import JdPico.Lib.Changes
import JdPico.Pins.Registers
import JdPico.Sws.Closing
import JdPico.Uart.Model
import JdPico.Uart.PioPins

/-!
# What the board drives

The Jacdac line is pulled up, and a board drives it only while it transmits.  Which of the two
blocks drives the pin is a matter of its function: the processor's own block (`SIO`) makes the
pulses at both ends of a transmission, and the PIO the characters in between.  Each has latches of
its own for direction and level, and they keep what was written to them while the other one has the
pin.  So what is on the line depends on the order of the writes: a function selected too early, or
a latch that is left from the transmission before, drives the line when nothing should.

Here the functions of `uart.c` are followed write by write.  Whatever the order of the calls, the
board never drives the line but for a transmission (and for a moment in `uart_init_`, high), and in
a transmission it drives the low pulse, then high, the levels of the transmitter, high, the break
and high, without any other level in between (`wire_levels`).  So what the pads drive is the line
that the frame is received from (`wire_carries_frame`).
-/

namespace JdPico

open Machine Word Changes

/-! ### Pads -/

/-- The registers that the outputs come from. -/
structure Pads where
  regs : PinRegs
  pio : PioPins

/-- `GPIO_FUNC_PIO0`. -/
def funcPio0 : BitVec 5 := 6

/-- A write to the registers. -/
inductive PadWrite where
  /-- `gpio_put`. -/
  | put (gpio : Fin 30) (v : Bool)
  /-- `gpio_set_dir`. -/
  | dir (gpio : Fin 30) (out : Bool)
  /-- `hw->gpio_oe_set = mask`. -/
  | oeSet (mask : BitVec 32)
  /-- `gpio_set_pulls_`. -/
  | pulls (gpio : Fin 30) (up down : Bool)
  /-- The first write of `gpio_set_function_`, to the pad. -/
  | padOn (gpio : Fin 30)
  /-- Its second write, which selects the function. -/
  | ctrl (gpio : Fin 30) (fn : BitVec 5)
  /-- A write to the PIO block. -/
  | pio (w : PioWrite)
  /-- A state machine sets an output. -/
  | pioOut (gpio : Fin 30) (v : Bool)
  deriving DecidableEq, Repr

namespace PinRegs

/-- The first write of `gpio_set_function_`. -/
def padOn (gpio : Fin 30) (s : PinRegs) : PinRegs :=
  { s with
    pad := Function.update s.pad gpio (writeMasked (s.pad gpio) ieBits (ieBits ||| odBits)) }

/-- The second write of `gpio_set_function_`. -/
def selectFunction (gpio : Fin 30) (fn : BitVec 5) (s : PinRegs) : PinRegs :=
  { s with ctrl := Function.update s.ctrl gpio (fn.setWidth 32) }

end PinRegs

/-- A write. -/
def Pads.write (s : Pads) : PadWrite → Pads
  | .put gpio v => { s with regs := s.regs.gpioPut gpio v }
  | .dir gpio out => { s with regs := s.regs.gpioSetDir gpio out }
  | .oeSet mask => { s with regs := { s.regs with gpioOe := setBits s.regs.gpioOe mask } }
  | .pulls gpio up down => { s with regs := s.regs.gpioSetPulls gpio up down }
  | .padOn gpio => { s with regs := s.regs.padOn gpio }
  | .ctrl gpio fn => { s with regs := s.regs.selectFunction gpio fn }
  | .pio w => { s with pio := s.pio.write w }
  | .pioOut gpio v =>
    { s with
      pio := { s.pio with
        out := if v then setBits s.pio.out (1#32 <<< gpio.val)
          else clearBits s.pio.out (1#32 <<< gpio.val) } }

/-- A pin with the latches of the PIO. -/
structure PadView where
  pin : PinView
  pioOut : Bool
  pioOe : Bool

/-- The state of a pin in the registers. -/
def Pads.view (gpio : Fin 30) (s : Pads) : PadView :=
  ⟨s.regs.view gpio, s.pio.out.getLsbD gpio, s.pio.oe.getLsbD gpio⟩

/-- The level at which the pin is driven; `none` if it is not, or if it has a function other than
the two of the driver. -/
def PadView.driven (v : PadView) : Option Bool :=
  if v.pin.outputDisabled then none
  else if v.pin.func = funcSio.setWidth 32 then
    if v.pin.outputEnabled then some v.pin.out else none
  else if v.pin.func = funcPio0.setWidth 32 then
    if v.pioOe then some v.pioOut else none
  else none

/-! ### The driver -/

/-- The driver, as far as the pin is concerned. -/
structure Wire where
  jacdacPin : Fin 30
  pads : Pads
  /-- `uart_init_` was called. -/
  inited : Bool
  status : UartStatus
  /-- The transmitter is enabled. -/
  txEnabled : Bool
  /-- The receiver is enabled. -/
  rxEnabled : Bool
  /-- What the pin was driven at after each write. -/
  seen : List (Option Bool)

/-- `smtx`. -/
def smtx : BitVec 2 := 0

/-- `smrx`. -/
def smrx : BitVec 2 := 1

/-- `PIN_PULL_UP`. -/
def pinPullUp : ℤ := 1

namespace Wire

/-- The Jacdac pin. -/
def view (s : Wire) : PadView := s.pads.view s.jacdacPin

/-- A write, after which the pin is looked at. -/
def write (s : Wire) (w : PadWrite) : Wire :=
  { s with
    pads := s.pads.write w
    seen := s.seen ++ [((s.pads.write w).view s.jacdacPin).driven] }

/-- `gpio_set_function_`. -/
def gpioSetFunction (fn : BitVec 5) (s : Wire) : Wire :=
  (s.write (.padOn s.jacdacPin)).write (.ctrl s.jacdacPin fn)

/-- `pin_set`. -/
def pinSet (v : Bool) (s : Wire) : Wire := s.write (.put s.jacdacPin v)

/-- `pin_setup_output`. -/
def pinSetupOutput (s : Wire) : Wire :=
  (s.write (.dir s.jacdacPin true)).gpioSetFunction funcSio

/-- `pin_set_pull`. -/
def pinSetPull (pull : ℤ) (s : Wire) : Wire :=
  s.write (.pulls s.jacdacPin (0 < pull) (pull < 0))

/-- `pin_setup_input`. -/
def pinSetupInput (pull : ℤ) (s : Wire) : Wire :=
  ((s.pinSetPull pull).write (.dir s.jacdacPin false)).gpioSetFunction funcSio

/-- `pin_setup_output_af`. -/
def pinSetupOutputAf (af : BitVec 5) (s : Wire) : Wire := s.gpioSetFunction af

/-- `pio_gpio_init_`. -/
def pioGpioInit (s : Wire) : Wire := s.pinSetupOutputAf funcPio0

/-- Taken together, the writes are what the functions of `pins.c` do to the registers. -/
lemma regs_eq (s : Wire) (v : Bool) (pull : ℤ) (af : BitVec 5) :
    (s.pinSet v).pads.regs = s.pads.regs.pinSet (some s.jacdacPin) v ∧
      s.pinSetupOutput.pads.regs = s.pads.regs.pinSetupOutput (some s.jacdacPin) ∧
      (s.pinSetPull pull).pads.regs = s.pads.regs.pinSetPull (some s.jacdacPin) pull ∧
      (s.pinSetupInput pull).pads.regs = s.pads.regs.pinSetupInput (some s.jacdacPin) pull ∧
      (s.pinSetupOutputAf af).pads.regs = s.pads.regs.pinSetupOutputAf (some s.jacdacPin) af :=
  ⟨rfl, rfl, rfl, rfl, rfl⟩

/-- The writes of a function for the outputs of the PIO. -/
def pio (ws : List PioWrite) (s : Wire) : Wire :=
  let after := ws.foldl (fun s w => s.write (.pio w)) s
  { s with pads := after.pads, seen := after.seen }

/-- `jd_tx_arm_pin`. -/
def jdTxArmPin (sm : BitVec 2) (s : Wire) : Wire :=
  let s := s.pio (pioSmSetPinsWithMask sm (1#32 <<< s.jacdacPin.val) (1#32 <<< s.jacdacPin.val)
    s.pads.pio)
  let s := s.pio (pioSmSetPindirsWithMask sm (1#32 <<< s.jacdacPin.val) (1#32 <<< s.jacdacPin.val)
    s.pads.pio)
  s.pioGpioInit

/-- `jd_rx_arm_pin`. -/
def jdRxArmPin (sm : BitVec 2) (s : Wire) : Wire :=
  let s := s.pio (pioSmSetConsecutivePindirs sm (BitVec.ofNat 5 s.jacdacPin) 1 false s.pads.pio)
  s.pioGpioInit.pinSetPull pinPullUp

/-- `uart_disable`. -/
def uartDisable (s : Wire) : Wire :=
  { ({ s with status := .idle }.pinSetupInput pinPullUp).pinSetupOutputAf funcSio with
    txEnabled := false
    rxEnabled := false }

/-- `uart_start_rx`. -/
def uartStartRx (s : Wire) : Wire :=
  { { s with status := .rx }.jdRxArmPin smrx with rxEnabled := true }

/-- What `jd_line_falling` calls; `wentHigh` is the result of `uart_wait_high`. -/
def jdLineFalling (wentHigh : Bool) (s : Wire) : Wire :=
  if wentHigh then s.uartStartRx else s.uartDisable

/-- `uart_start_tx` after its tests; `high` is the level of the line that `gpio_probe_and_set`
finds. -/
def transmit (high wentHigh : Bool) (s : Wire) : Wire :=
  let s := { s with status := .tx }.pinSet false
  let s := s.write (.oeSet (if high then 1#32 <<< s.jacdacPin.val else 0#32))
  if high then { (s.pinSet true).jdTxArmPin smtx with txEnabled := true }
  else s.jdLineFalling wentHigh

/-- `uart_start_tx`; it is `none` if the assertion fails. -/
def uartStartTx (high wentHigh : Bool) (s : Wire) : Option Wire :=
  match s.status with
  | .rx => some s
  | .tx => none
  | .idle => some (s.transmit high wentHigh)

/-- `tx_handler`, from the end of its loop on. -/
def txHandler (s : Wire) : Wire :=
  ((((s.pinSet true).pinSetupOutput.pinSetupOutputAf funcSio).pinSet false).pinSet true).uartDisable

/-- `rx_done`. -/
def rxDone (s : Wire) : Wire :=
  if s.status = .rx then { s with status := .idle }.uartDisable else s

/-- `uart_init_`; the configurations of the state machines have a word for `PINCTRL`. -/
def uartInit (txPinctrl rxPinctrl : BitVec 32) (s : Wire) : Wire :=
  let s := ((s.pinSet true).pinSetupOutput).pinSetupInput pinPullUp
  let s := (s.jdTxArmPin smtx).pio [.pinctrl smtx txPinctrl]
  let s := (s.jdRxArmPin smrx).pio [.pinctrl smrx rxPinctrl]
  { s with inited := true }.uartDisable

end Wire

/-- What can happen. -/
inductive WireAct where
  | uartInit (txPinctrl rxPinctrl : BitVec 32)
  | uartStartTx (high wentHigh : Bool)
  /-- The transmitter sets its output. -/
  | txLevel (level : Bool)
  /-- The loop of `tx_handler` has ended. -/
  | txHandler
  /-- There is a falling edge. -/
  | lineFalling (wentHigh : Bool)
  /-- The side-set of the receiver, whose pin is not configured and so is pin zero. -/
  | rxSide (gpio : Fin 30) (level : Bool)
  | rxDone
  /-- `uart_disable` is called because of a timeout. -/
  | uartDisable
  /-- A function of `pins.c` is called for another pin. -/
  | other (c : PinCall)
  deriving DecidableEq, Repr

namespace Wire

/-- A step; `none` if it is not possible. -/
def step (s : Wire) : WireAct → Option Wire
  | .uartInit txPinctrl rxPinctrl =>
    if s.inited then none else some (s.uartInit txPinctrl rxPinctrl)
  | .uartStartTx high wentHigh => if s.inited then s.uartStartTx high wentHigh else none
  | .txLevel level => if s.txEnabled then some (s.write (.pioOut s.jacdacPin level)) else none
  | .txHandler => if s.txEnabled then some s.txHandler else none
  | .lineFalling wentHigh =>
    if s.inited ∧ s.status = .idle then some (s.jdLineFalling wentHigh) else none
  | .rxSide gpio level =>
    if s.rxEnabled ∧ gpio.val = 0 then some (s.write (.pioOut gpio level)) else none
  | .rxDone => if s.inited then some s.rxDone else none
  | .uartDisable => if s.inited ∧ s.status ≠ .tx then some s.uartDisable else none
  | .other c =>
    if c.pin = some s.jacdacPin then none
    else
      some { s with
        pads := { s.pads with regs := s.pads.regs.call c }
        seen := s.seen ++ [({ s.pads with regs := s.pads.regs.call c }.view s.jacdacPin).driven] }

/-- The registers after a reset. -/
def initial (jacdacPin : Fin 30) : Wire where
  jacdacPin := jacdacPin
  pads := ⟨⟨0, 0, fun _ => 0x56, fun _ => funcNull.setWidth 32⟩, ⟨fun _ => 0x14000000, 0, 0⟩⟩
  inited := false
  status := .idle
  txEnabled := false
  rxEnabled := false
  seen := []

/-- What a step is to drive on the line. -/
def wave (s : Wire) : WireAct → List (Option Bool)
  | .uartInit _ _ => [some true, none, some true, none]
  | .uartStartTx high _ =>
    if high ∧ s.status = .idle then [some false, some true] else []
  | .txLevel level => [some level]
  | .txHandler => [some true, some false, some true, none]
  | .lineFalling _ | .rxSide _ _ | .rxDone | .uartDisable | .other _ => []

end Wire

/-! ### Single writes -/

section

variable {s : PinRegs} {p q : Fin 30}

@[simp] lemma PinRegs.view_padOn :
    (s.padOn p).view q =
      if q = p then { s.view q with outputDisabled := false, inputEnabled := true }
      else s.view q := by
  by_cases h : q = p
  · subst h
    simp only [padOn, view, Function.update_self, getLsbD_writeMasked, if_true]
    rw [writeMasked_and (by decide)]
    rfl
  · simp [padOn, view, h]

@[simp] lemma PinRegs.view_selectFunction (fn : BitVec 5) :
    (s.selectFunction p fn).view q =
      if q = p then { s.view q with func := fn.setWidth 32 } else s.view q := by
  by_cases h : q = p
  · subst h
    simp [selectFunction, view]
  · simp [selectFunction, view, h]

end

/-- The level of the processor's block. -/
@[simp] def PadView.put (b : Bool) (v : PadView) : PadView :=
  { v with pin := { v.pin with out := b } }

/-- Its direction. -/
@[simp] def PadView.dir (out : Bool) (v : PadView) : PadView :=
  { v with pin := { v.pin with outputEnabled := out } }

/-- The pulls. -/
@[simp] def PadView.pull (pull : ℤ) (v : PadView) : PadView :=
  { v with pin := { v.pin with pullUp := 0 < pull, pullDown := pull < 0 } }

/-- A latch of the PIO is written. -/
@[simp] def PadView.latch (dest : SetDest) (b : Bool) (v : PadView) : PadView :=
  match dest with
  | .pins => { v with pioOut := b }
  | .pindirs => { v with pioOe := b }

/-- The function is selected, after the pad is switched on. -/
@[simp] def PadView.select (fn : BitVec 5) (v : PadView) : PadView :=
  { v with pin := v.pin.select fn }

/-- The write to the pad before that. -/
@[simp] def PadView.padOn (v : PadView) : PadView :=
  { v with pin := { v.pin with outputDisabled := false, inputEnabled := true } }

section

variable {s : Pads} {p : Fin 30}

lemma Pads.view_put (b : Bool) : (s.write (.put p b)).view p = (s.view p).put b := by
  simp [write, view, PadView.put]

lemma Pads.view_dir (out : Bool) : (s.write (.dir p out)).view p = (s.view p).dir out := by
  simp [write, view, PadView.dir]

/-- The write of `gpio_probe_and_set` enables the output if the pin was high. -/
lemma Pads.view_oeSet (high : Bool) :
    (s.write (.oeSet (if high then 1#32 <<< p.val else 0#32))).view p =
      (s.view p).dir (high || (s.view p).pin.outputEnabled) := by
  cases high with
  | false => simp [write, view, PinRegs.view, PadView.dir, getLsbD_setBits]
  | true => simp [write, view, PinRegs.view, PadView.dir, PinRegs.getLsbD_setBits_pin]

lemma Pads.view_pulls (pull : ℤ) :
    (s.write (.pulls p (0 < pull) (pull < 0))).view p = (s.view p).pull pull := by
  simp [write, view, PadView.pull]

lemma Pads.view_padOn : (s.write (.padOn p)).view p = (s.view p).padOn := by
  simp [write, view, PadView.padOn]

lemma Pads.view_ctrl (fn : BitVec 5) :
    ((s.write (.padOn p)).write (.ctrl p fn)).view p = (s.view p).select fn := by
  simp [write, view, PadView.select, PinView.select]

lemma Pads.view_pioOut (q : Fin 30) (v : Bool) :
    (s.write (.pioOut q v)).view p =
      if p = q then { s.view p with pioOut := v } else s.view p := by
  cases v <;> by_cases h : p = q <;>
    simp [write, view, PinRegs.getLsbD_setBits_pin, PinRegs.getLsbD_clearBits_pin, h]

end

/-- A `set` of one pin. -/
lemma Pads.view_execSet {s : Pads} {p : Fin 30} {sm : BitVec 2} {dest : SetDest} {c : BitVec 32}
    (v : BitVec 5) (hbase : setBase c = p) (hcount : setCount c = 1) :
    ((s.write (.pio (.pinctrl sm c))).write (.pio (.execSet sm dest v))).view p =
      (s.view p).latch dest (v.getLsbD 0) := by
  obtain ⟨⟨-, hother⟩, hbit⟩ := s.pio.write_execSet sm dest v c
  have hp := hbit p (by omega)
  have hoffset : pinOffset p p = 0 := by
    rw [pinOffset]
    omega
  rw [hbase, hcount, hoffset, if_pos one_pos] at hp
  cases dest with
  | pins =>
    have hoe := hother .pindirs (by decide)
    simp only [PioPins.latch] at hp hoe
    simp [write, view, PadView.latch, hp, hoe]
  | pindirs =>
    have hout := hother .pins (by decide)
    simp only [PioPins.latch] at hp hout
    simp [write, view, PadView.latch, hp, hout]

/-! ### Sequences of writes -/

namespace Wire

variable {s t u : Wire}

/-- The driver goes from `s` to `t` by writes after which the pin was driven as in `l`, and the view
of the pin is `v` then. -/
structure Moves (s t : Wire) (l : List (Option Bool)) (v : PadView) : Prop where
  jacdacPin : t.jacdacPin = s.jacdacPin
  inited : t.inited = s.inited
  status : t.status = s.status
  txEnabled : t.txEnabled = s.txEnabled
  rxEnabled : t.rxEnabled = s.rxEnabled
  seen : t.seen = s.seen ++ l
  view : t.view = v

variable {l : List (Option Bool)} {v : PadView}

lemma Moves.refl (s : Wire) : s.Moves s [] s.view :=
  ⟨rfl, rfl, rfl, rfl, rfl, (List.append_nil _).symm, rfl⟩

/-- One more write. -/
lemma Moves.write (h : s.Moves t l v) {w : PadWrite} {v' : PadView}
    (hw : (t.pads.write w).view t.jacdacPin = v') : s.Moves (t.write w) (l ++ [v'.driven]) v' where
  jacdacPin := h.jacdacPin
  inited := h.inited
  status := h.status
  txEnabled := h.txEnabled
  rxEnabled := h.rxEnabled
  seen := by rw [Wire.write, hw, h.seen, List.append_assoc]
  view := hw

lemma Moves.pinSet (h : s.Moves t l v) (b : Bool) :
    s.Moves (t.pinSet b) (l ++ [(v.put b).driven]) (v.put b) :=
  h.write (h.view ▸ Pads.view_put b)

lemma Moves.dir (h : s.Moves t l v) (out : Bool) :
    s.Moves (t.write (.dir t.jacdacPin out)) (l ++ [(v.dir out).driven]) (v.dir out) :=
  h.write (h.view ▸ Pads.view_dir out)

lemma Moves.pinSetPull (h : s.Moves t l v) (pull : ℤ) :
    s.Moves (t.pinSetPull pull) (l ++ [(v.pull pull).driven]) (v.pull pull) :=
  h.write (h.view ▸ Pads.view_pulls pull)

lemma Moves.probe (h : s.Moves t l v) (high : Bool) :
    s.Moves (t.write (.oeSet (if high then 1#32 <<< t.jacdacPin.val else 0#32)))
      (l ++ [(v.dir (high || v.pin.outputEnabled)).driven]) (v.dir (high || v.pin.outputEnabled)) :=
  h.write (h.view ▸ Pads.view_oeSet high)

lemma Moves.gpioSetFunction (h : s.Moves t l v) (fn : BitVec 5) :
    s.Moves (t.gpioSetFunction fn) (l ++ [v.padOn.driven, (v.select fn).driven])
      (v.select fn) := by
  have hpad : s.Moves (t.write (.padOn t.jacdacPin)) (l ++ [v.padOn.driven]) v.padOn :=
    h.write (h.view ▸ Pads.view_padOn)
  have hctrl : s.Moves (t.gpioSetFunction fn)
      ((l ++ [v.padOn.driven]) ++ [(v.select fn).driven]) (v.select fn) :=
    hpad.write (h.view ▸ Pads.view_ctrl fn)
  rwa [List.append_assoc] at hctrl

lemma Moves.pinSetupOutput (h : s.Moves t l v) :
    s.Moves t.pinSetupOutput
      (l ++ [(v.dir true).driven, (v.dir true).padOn.driven, ((v.dir true).select funcSio).driven])
      ((v.dir true).select funcSio) := by
  have hfunction := (h.dir true).gpioSetFunction funcSio
  rwa [List.append_assoc] at hfunction

lemma Moves.pinSetupInput (h : s.Moves t l v) (pull : ℤ) :
    s.Moves (t.pinSetupInput pull)
      (l ++ [(v.pull pull).driven, ((v.pull pull).dir false).driven,
        ((v.pull pull).dir false).padOn.driven, (((v.pull pull).dir false).select funcSio).driven])
      (((v.pull pull).dir false).select funcSio) := by
  have hfunction := ((h.pinSetPull pull).dir false).gpioSetFunction funcSio
  rwa [List.append_assoc, List.append_assoc] at hfunction

/-- The three writes that set the latch of one pin. -/
lemma Moves.pioSet (h : s.Moves t l v) (sm : BitVec 2) (dest : SetDest) {c : BitVec 32}
    (d : BitVec 32) (value : BitVec 5) (hbase : setBase c = t.jacdacPin) (hcount : setCount c = 1) :
    s.Moves (t.pio [.pinctrl sm c, .execSet sm dest value, .pinctrl sm d])
      (l ++ [v.driven, (v.latch dest (value.getLsbD 0)).driven,
        (v.latch dest (value.getLsbD 0)).driven])
      (v.latch dest (value.getLsbD 0)) := by
  have hctrl : s.Moves (t.write (.pio (.pinctrl sm c))) (l ++ [v.driven]) v := h.write h.view
  have hexec : s.Moves ((t.write (.pio (.pinctrl sm c))).write (.pio (.execSet sm dest value)))
      ((l ++ [v.driven]) ++ [(v.latch dest (value.getLsbD 0)).driven])
      (v.latch dest (value.getLsbD 0)) :=
    hctrl.write (h.view ▸ Pads.view_execSet value hbase hcount)
  have hrestore := hexec.write (w := .pio (.pinctrl sm d)) hexec.view
  rwa [List.append_assoc, List.append_assoc] at hrestore

/-- `pio_sm_set_pins_with_mask_` and `pio_sm_set_pindirs_with_mask_` for one pin. -/
lemma Moves.setWithMask (h : s.Moves t l v) (dest : SetDest) (sm : BitVec 2) :
    s.Moves (t.pio (setWithMask dest sm (1#32 <<< t.jacdacPin.val) (1#32 <<< t.jacdacPin.val)
        t.pads.pio))
      (l ++ [v.driven, (v.latch dest true).driven, (v.latch dest true).driven])
      (v.latch dest true) := by
  have hp : t.jacdacPin.val < 32 := by omega
  have hctz : (1#32 <<< t.jacdacPin.val).ctz.toNat = t.jacdacPin := ctz_one_shiftLeft hp
  have hbase := setBase_fields 1#32 (1#32 <<< t.jacdacPin.val).ctz (by omega)
  have hcount := setCount_fields 1#32 (1#32 <<< t.jacdacPin.val).ctz (by decide) (by omega)
  rw [JdPico.setWithMask, withMaskLoop, if_neg (one_shiftLeft_ne_zero hp),
    one_shiftLeft_and_sub_one hp, withMaskLoop, if_pos rfl]
  have hset := h.pioSet sm dest (t.pads.pio.pinctrl sm)
    ((1#32 <<< t.jacdacPin.val >>> (1#32 <<< t.jacdacPin.val).ctz.toNat &&& 1#32).setWidth 5)
    (hbase.trans hctz) hcount
  have hvalue : ((1#32 <<< t.jacdacPin.val >>> (1#32 <<< t.jacdacPin.val).ctz.toNat &&&
      1#32).setWidth 5).getLsbD 0 = true := by
    simp [hctz, getLsbD_one_shiftLeft hp]
  rwa [hvalue] at hset

/-- `pio_sm_set_consecutive_pindirs_` for one pin that is released. -/
lemma Moves.setConsecutive (h : s.Moves t l v) (sm : BitVec 2) :
    s.Moves (t.pio (pioSmSetConsecutivePindirs sm (BitVec.ofNat 5 t.jacdacPin) 1 false t.pads.pio))
      (l ++ [v.driven, (v.latch .pindirs false).driven, (v.latch .pindirs false).driven])
      (v.latch .pindirs false) := by
  have hpin : ((BitVec.ofNat 5 t.jacdacPin).setWidth 32).toNat = t.jacdacPin := by
    rw [BitVec.toNat_setWidth, BitVec.toNat_ofNat]
    omega
  have hbase := setBase_fields 1#32 ((BitVec.ofNat 5 t.jacdacPin).setWidth 32) (by omega)
  have hcount := setCount_fields 1#32 ((BitVec.ofNat 5 t.jacdacPin).setWidth 32) (by decide)
    (by omega)
  rw [pioSmSetConsecutivePindirs, consecutiveLoop, if_neg (by decide)]
  exact h.pioSet sm .pindirs (t.pads.pio.pinctrl sm) 0#5 (hbase.trans hpin) hcount

/-- The levels of `jd_tx_arm_pin`. -/
def txArmLevels (v : PadView) : List (Option Bool) :=
  [v.driven, (v.latch .pins true).driven, (v.latch .pins true).driven, (v.latch .pins true).driven,
    ((v.latch .pins true).latch .pindirs true).driven,
    ((v.latch .pins true).latch .pindirs true).driven,
    ((v.latch .pins true).latch .pindirs true).padOn.driven,
    (((v.latch .pins true).latch .pindirs true).select funcPio0).driven]

lemma Moves.jdTxArmPin (h : s.Moves t l v) (sm : BitVec 2) :
    s.Moves (t.jdTxArmPin sm) (l ++ txArmLevels v)
      (((v.latch .pins true).latch .pindirs true).select funcPio0) := by
  have hfunction := ((h.setWithMask .pins sm).setWithMask .pindirs sm).gpioSetFunction funcPio0
  rwa [List.append_assoc, List.append_assoc] at hfunction

/-- The levels of `jd_rx_arm_pin`. -/
def rxArmLevels (v : PadView) : List (Option Bool) :=
  [v.driven, (v.latch .pindirs false).driven, (v.latch .pindirs false).driven,
    (v.latch .pindirs false).padOn.driven, ((v.latch .pindirs false).select funcPio0).driven,
    (((v.latch .pindirs false).select funcPio0).pull pinPullUp).driven]

lemma Moves.jdRxArmPin (h : s.Moves t l v) (sm : BitVec 2) :
    s.Moves (t.jdRxArmPin sm) (l ++ rxArmLevels v)
      (((v.latch .pindirs false).select funcPio0).pull pinPullUp) := by
  have hpull := ((h.setConsecutive sm).gpioSetFunction funcPio0).pinSetPull pinPullUp
  rwa [List.append_assoc, List.append_assoc] at hpull

end Wire

/-! ### What the pin is for -/

namespace PadView

variable {v : PadView}

/-- The pin is released, and the processor's block has it. -/
structure Idle (v : PadView) : Prop where
  func : v.pin.func = funcSio.setWidth 32
  outputEnabled : v.pin.outputEnabled = false
  outputDisabled : v.pin.outputDisabled = false

/-- The PIO has the pin and does not drive it. -/
structure Listening (v : PadView) : Prop where
  func : v.pin.func = funcPio0.setWidth 32
  pioOe : v.pioOe = false
  outputEnabled : v.pin.outputEnabled = false

/-- The PIO drives the pin. -/
structure Talking (v : PadView) : Prop where
  func : v.pin.func = funcPio0.setWidth 32
  pioOe : v.pioOe = true
  outputDisabled : v.pin.outputDisabled = false

@[simp] lemma funcPio0_ne_funcSio : funcPio0.setWidth 32 ≠ funcSio.setWidth 32 := by decide

@[simp] lemma funcNull_ne_funcSio : funcNull.setWidth 32 ≠ funcSio.setWidth 32 := by decide

@[simp] lemma funcNull_ne_funcPio0 : funcNull.setWidth 32 ≠ funcPio0.setWidth 32 := by decide

lemma Idle.driven (h : v.Idle) : v.driven = none := by
  simp [PadView.driven, h.func, h.outputEnabled]

lemma Listening.driven (h : v.Listening) : v.driven = none := by
  simp [PadView.driven, h.func, h.pioOe, funcPio0_ne_funcSio]

lemma Talking.driven (h : v.Talking) : v.driven = some v.pioOut := by
  simp [PadView.driven, h.func, h.pioOe, h.outputDisabled, funcPio0_ne_funcSio]

end PadView

namespace Wire

variable {s t : Wire} {l : List (Option Bool)} {v : PadView}

/-- The levels of `uart_disable`. -/
def disableLevels (v : PadView) : List (Option Bool) :=
  let w := (v.pull pinPullUp).dir false
  [(v.pull pinPullUp).driven, w.driven, w.padOn.driven, (w.select funcSio).driven,
    (w.select funcSio).padOn.driven, ((w.select funcSio).select funcSio).driven]

/-- The status does not matter for the pin. -/
@[simp] lemma view_status (s : Wire) (status : UartStatus) :
    ({ s with status := status } : Wire).view = s.view := rfl

/-- `uart_disable` leaves the pin released. -/
lemma uartDisable_spec (s : Wire) :
    s.uartDisable.seen = s.seen ++ disableLevels s.view ∧ s.uartDisable.view.Idle ∧
      s.uartDisable.inited = s.inited ∧ s.uartDisable.status = .idle ∧
      s.uartDisable.txEnabled = false ∧ s.uartDisable.rxEnabled = false := by
  have h := ((Moves.refl { s with status := .idle }).pinSetupInput pinPullUp).gpioSetFunction
    funcSio
  refine ⟨h.seen, ?_, h.inited, h.status, rfl, rfl⟩
  have hview : s.uartDisable.view = _ := h.view
  rw [hview]
  exact ⟨rfl, rfl, rfl⟩

/-- The states that the driver can be in, with the pin as it is then. -/
inductive Phase (s : Wire) : Prop
  /-- `uart_init_` was not called. -/
  | off (inited : s.inited = false) (status : s.status = .idle) (tx : s.txEnabled = false)
      (rx : s.rxEnabled = false) (func : s.view.pin.func = funcNull.setWidth 32)
  | idle (inited : s.inited = true) (status : s.status = .idle) (tx : s.txEnabled = false)
      (rx : s.rxEnabled = false) (view : s.view.Idle)
  | receiving (inited : s.inited = true) (status : s.status = .rx) (tx : s.txEnabled = false)
      (view : s.view.Listening)
  | sending (inited : s.inited = true) (status : s.status = .tx) (rx : s.rxEnabled = false)
      (view : s.view.Talking)

/-- The phase depends on the pin and the variables only. -/
lemma Phase.of_view (h : s.Phase) (hinited : t.inited = s.inited) (hstatus : t.status = s.status)
    (htx : t.txEnabled = s.txEnabled) (hrx : t.rxEnabled = s.rxEnabled) (hview : t.view = s.view) :
    t.Phase := by
  cases h with
  | off inited status tx rx func =>
    exact .off (hinited.trans inited) (hstatus.trans status) (htx.trans tx) (hrx.trans rx)
      (hview ▸ func)
  | idle inited status tx rx view =>
    exact .idle (hinited.trans inited) (hstatus.trans status) (htx.trans tx) (hrx.trans rx)
      (hview ▸ view)
  | receiving inited status tx view =>
    exact .receiving (hinited.trans inited) (hstatus.trans status) (htx.trans tx) (hview ▸ view)
  | sending inited status rx view =>
    exact .sending (hinited.trans inited) (hstatus.trans status) (hrx.trans rx) (hview ▸ view)

/-- From `s` the driver goes to `t`, and what it drives meanwhile is `wave`. -/
structure Puts (s : Wire) (wave : List (Option Bool)) (t : Wire) : Prop where
  phase : t.Phase
  seen : ∃ l, t.seen = s.seen ++ l ∧ SameChanges s.view.driven l wave t.view.driven

/-- Nothing is driven. -/
lemma sameChanges_none {l : List (Option Bool)} (h : ∀ d ∈ l, d = none) :
    SameChanges none l [] none := by
  induction l with
  | nil => exact .nil none
  | cons d l ih =>
    obtain ⟨rfl, hl⟩ := List.forall_mem_cons.mp h
    exact SameChanges.append (l := [none]) (m := []) ⟨rfl, rfl, rfl⟩ (ih hl)

lemma disableLevels_of_idle (h : v.Idle) : disableLevels v = List.replicate 6 none := by
  simp [disableLevels, PadView.driven, PinView.select, h.func, h.outputEnabled, List.replicate]

lemma disableLevels_of_listening (h : v.Listening) : disableLevels v = List.replicate 6 none := by
  simp [disableLevels, PadView.driven, PinView.select, h.func, h.pioOe, h.outputEnabled,
    List.replicate]

lemma rxArmLevels_of_idle (h : v.Idle) : rxArmLevels v = List.replicate 6 none := by
  simp [rxArmLevels, PadView.driven, PinView.select, h.func, h.outputEnabled, List.replicate]

/-- The pin is released with `uart_disable`. -/
lemma Moves.uartDisable {wave : List (Option Bool)} (h : s.Moves t l v)
    (hinited : s.inited = true)
    (hwave : SameChanges s.view.driven (l ++ disableLevels v) wave none) :
    s.Puts wave t.uartDisable := by
  obtain ⟨hseen, hidle, hinit, hstatus, htx, hrx⟩ := t.uartDisable_spec
  refine ⟨.idle (hinit.trans (h.inited.trans hinited)) hstatus htx hrx hidle,
    l ++ disableLevels v, ?_, ?_⟩
  · rw [hseen, h.seen, h.view, List.append_assoc]
  · rwa [hidle.driven]

/-- Nothing is driven when a reception is started. -/
lemma Moves.uartStartRx (h : s.Moves t l v) (hinited : s.inited = true)
    (htx : s.txEnabled = false) (hs : s.view.driven = none) (hl : ∀ d ∈ l, d = none)
    (hv : v.Idle) : s.Puts [] t.uartStartRx := by
  have hmoves := (Moves.refl { t with status := .rx }).jdRxArmPin smrx
  have hview : t.uartStartRx.view =
      (((t.view.latch .pindirs false).select funcPio0).pull pinPullUp) := hmoves.view
  have hlisten : t.uartStartRx.view.Listening := by
    rw [hview, h.view]
    exact ⟨rfl, rfl, hv.outputEnabled⟩
  have hseen : t.uartStartRx.seen = t.seen ++ rxArmLevels t.view := hmoves.seen
  refine ⟨.receiving (hmoves.inited.trans (h.inited.trans hinited)) hmoves.status
    (hmoves.txEnabled.trans (h.txEnabled.trans htx)) hlisten, l ++ rxArmLevels v, ?_, ?_⟩
  · rw [hseen, h.seen, h.view, List.append_assoc]
  · rw [hs, hlisten.driven, rxArmLevels_of_idle hv]
    exact sameChanges_none fun d hd => (List.mem_append.mp hd).elim (hl d) List.eq_of_mem_replicate

/-- Nothing is driven when `uart_disable` finds the pin released. -/
lemma Moves.uartDisable_released (h : s.Moves t l v) (hinited : s.inited = true)
    (hs : s.view.driven = none) (hl : ∀ d ∈ l, d = none) (hv : v.Idle ∨ v.Listening) :
    s.Puts [] t.uartDisable := by
  refine h.uartDisable hinited ?_
  rw [hs, hv.elim disableLevels_of_idle disableLevels_of_listening]
  exact sameChanges_none fun d hd => (List.mem_append.mp hd).elim (hl d) List.eq_of_mem_replicate

lemma Moves.jdLineFalling (h : s.Moves t l v) (wentHigh : Bool) (hinited : s.inited = true)
    (htx : s.txEnabled = false) (hs : s.view.driven = none) (hl : ∀ d ∈ l, d = none)
    (hv : v.Idle) : s.Puts [] (t.jdLineFalling wentHigh) := by
  cases wentHigh with
  | true => exact h.uartStartRx hinited htx hs hl hv
  | false => exact h.uartDisable_released hinited hs hl (.inl hv)

/-! ### Transmissions -/

/-- A transmission begins with the low pulse, and then the line is high. -/
lemma puts_transmit_high (wentHigh : Bool) (hinited : s.inited = true)
    (hrx : s.rxEnabled = false) (hs : s.view.Idle) :
    s.Puts [some false, some true] (s.transmit true wentHigh) := by
  have h := ((((Moves.refl { s with status := .tx }).pinSet false).probe true).pinSet
    true).jdTxArmPin smtx
  have hview : (s.transmit true wentHigh).view = _ := h.view
  have htalk : (s.transmit true wentHigh).view.Talking := by
    rw [hview]
    exact ⟨rfl, rfl, rfl⟩
  refine ⟨.sending (h.inited.trans hinited) h.status (h.rxEnabled.trans hrx) htalk, _, h.seen, ?_⟩
  rw [hs.driven, htalk.driven, hview]
  have hsame : SameChanges none ([none, some false] ++ List.replicate 9 (some true))
      [some false, some true] (some true) := ⟨by decide, rfl, rfl⟩
  simpa [txArmLevels, PadView.driven, PinView.select, hs.func, hs.outputEnabled,
    hs.outputDisabled, List.replicate] using hsame

/-- If another board is faster nothing is driven. -/
lemma puts_transmit_low (wentHigh : Bool) (hinited : s.inited = true)
    (htx : s.txEnabled = false) (hs : s.view.Idle) : s.Puts [] (s.transmit false wentHigh) := by
  have h := ((Moves.refl { s with status := .tx }).pinSet false).probe false
  have hidle : ((s.view.put false).dir (false || (s.view.put false).pin.outputEnabled)).Idle :=
    ⟨hs.func, hs.outputEnabled, hs.outputDisabled⟩
  have hnone : ∀ d ∈ [] ++ [(s.view.put false).driven] ++
      [((s.view.put false).dir (false || (s.view.put false).pin.outputEnabled)).driven],
      d = none := by
    simp [PadView.driven, hs.func, hs.outputEnabled]
  obtain ⟨hphase, hseen⟩ := h.jdLineFalling wentHigh hinited htx hs.driven hnone hidle
  exact ⟨hphase, hseen⟩

/-- The end of a transmission. -/
lemma puts_txHandler (hinited : s.inited = true) (hs : s.view.Talking) :
    s.Puts [some true, some false, some true, none] s.txHandler := by
  have h := (((((Moves.refl s).pinSet true).pinSetupOutput).gpioSetFunction funcSio).pinSet
    false).pinSet true
  refine h.uartDisable hinited ?_
  rw [hs.driven]
  have hsame : ∀ level : Bool, SameChanges (some level)
      (List.replicate 3 (some level) ++ List.replicate 3 (some true) ++ [some false] ++
        List.replicate 2 (some true) ++ List.replicate 5 none)
      [some true, some false, some true, none] none := by
    rintro (_ | _) <;> exact ⟨by decide, rfl, rfl⟩
  simpa [disableLevels, PadView.driven, PinView.select, hs.func, hs.pioOe, hs.outputDisabled,
    List.replicate] using hsame s.view.pioOut

/-- The writes of the PIO to `PINCTRL` do not matter for the pin. -/
lemma Moves.pinctrl (h : s.Moves t l v) (sm : BitVec 2) (value : BitVec 32) :
    s.Moves (t.pio [.pinctrl sm value]) (l ++ [v.driven]) v := by
  have hwrite : s.Moves (t.write (.pio (.pinctrl sm value))) (l ++ [v.driven]) v := h.write h.view
  exact hwrite

/-- The levels of `uart_init_` up to the last write before `uart_disable`. -/
lemma moves_uartInit (txPinctrl rxPinctrl : BitVec 32) (s : Wire)
    (hfunc : s.view.pin.func = funcNull.setWidth 32) :
    ∃ (t : Wire) (l : List (Option Bool)) (v : PadView), s.Moves t l v ∧ v.Listening ∧
      s.uartInit txPinctrl rxPinctrl = { t with inited := true }.uartDisable ∧
      l = List.replicate 3 none ++ List.replicate 2 (some true) ++ List.replicate 10 none ++
        List.replicate 3 (some true) ++ List.replicate 6 none := by
  have h := (((((((Moves.refl s).pinSet true).pinSetupOutput).pinSetupInput pinPullUp).jdTxArmPin
    smtx).pinctrl smtx txPinctrl).jdRxArmPin smrx).pinctrl smrx rxPinctrl
  refine ⟨_, _, _, h, ⟨rfl, rfl, rfl⟩, rfl, ?_⟩
  simp [txArmLevels, rxArmLevels, PadView.driven, PinView.select, hfunc, List.replicate]

/-- `uart_init_` drives the line high for a moment, and once more when it sets up the
transmitter. -/
lemma puts_uartInit (txPinctrl rxPinctrl : BitVec 32)
    (hfunc : s.view.pin.func = funcNull.setWidth 32) :
    s.Puts [some true, none, some true, none] (s.uartInit txPinctrl rxPinctrl) := by
  obtain ⟨t, l, v, h, hlisten, heq, hl⟩ := moves_uartInit txPinctrl rxPinctrl s hfunc
  obtain ⟨hseen, hidle, hinit, hstatus, htx, hrx⟩ :=
    ({ t with inited := true } : Wire).uartDisable_spec
  have hview : ({ t with inited := true } : Wire).view = v := h.view
  have hs : s.view.driven = none := by
    simp [PadView.driven, hfunc]
  rw [heq]
  refine ⟨.idle hinit hstatus htx hrx hidle, l ++ disableLevels v, ?_, ?_⟩
  · rw [hseen, hview, h.seen, List.append_assoc]
  · rw [hs, hidle.driven, disableLevels_of_listening hlisten, hl]
    exact ⟨by decide, rfl, rfl⟩

/-! ### All steps -/

/-- Nothing happens on the line. -/
lemma Puts.of_view (hphase : t.Phase) (hseen : t.seen = s.seen ++ [s.view.driven])
    (hdriven : t.view.driven = s.view.driven) : s.Puts [] t :=
  ⟨hphase, _, hseen, by rw [hdriven]; exact ⟨by simp, rfl, rfl⟩⟩

/-- No write at all. -/
lemma Puts.refl (h : s.Phase) : s.Puts [] s := ⟨h, [], (List.append_nil _).symm, .nil _⟩

/-- The transmitter sets its output. -/
lemma puts_txLevel (level : Bool) (hinited : s.inited = true) (hstatus : s.status = .tx)
    (hrx : s.rxEnabled = false) (hs : s.view.Talking) :
    s.Puts [some level] (s.write (.pioOut s.jacdacPin level)) := by
  have h : s.Moves (s.write (.pioOut s.jacdacPin level))
      ([] ++ [(s.view.latch .pins level).driven]) (s.view.latch .pins level) :=
    (Moves.refl s).write (by rw [Pads.view_pioOut, if_pos rfl]; rfl)
  have htalk : (s.view.latch .pins level).Talking := ⟨hs.func, hs.pioOe, hs.outputDisabled⟩
  refine ⟨.sending (h.inited.trans hinited) (h.status.trans hstatus) (h.rxEnabled.trans hrx)
    (h.view ▸ htalk), _, h.seen, ?_⟩
  rw [h.view, htalk.driven]
  exact ⟨rfl, rfl, rfl⟩

/-- The side-set of the receiver may change a latch, but the pin is not driven. -/
lemma puts_rxSide (level : Bool) (gpio : Fin 30) (hinited : s.inited = true)
    (hstatus : s.status = .rx) (htx : s.txEnabled = false) (hs : s.view.Listening) :
    s.Puts [] (s.write (.pioOut gpio level)) := by
  have hview : (s.write (.pioOut gpio level)).view =
      if s.jacdacPin = gpio then s.view.latch .pins level else s.view := Pads.view_pioOut gpio level
  have hlisten : (s.write (.pioOut gpio level)).view.Listening := by
    rw [hview]
    split_ifs
    · exact ⟨hs.func, hs.pioOe, hs.outputEnabled⟩
    · exact hs
  have hsame : (s.write (.pioOut gpio level)).view.driven = s.view.driven :=
    hlisten.driven.trans hs.driven.symm
  exact .of_view (.receiving hinited hstatus htx hlisten) (by rw [← hsame]; rfl) hsame

/-- A call for another pin. -/
lemma puts_other (h : s.Phase) {c : PinCall} (hpin : c.pin ≠ some s.jacdacPin)
    (hst : s.step (.other c) = some t) : s.Puts [] t := by
  rw [step, if_neg hpin, Option.some.injEq] at hst
  have hview : ({ s.pads with regs := s.pads.regs.call c } : Pads).view s.jacdacPin = s.view := by
    rw [Pads.view, PinRegs.view_call, if_neg hpin]
    rfl
  subst hst
  exact .of_view (h.of_view rfl rfl rfl rfl hview) (by rw [hview]) (congrArg PadView.driven hview)

/-- What a step drives. -/
lemma Phase.step (h : s.Phase) {a : WireAct} (hst : s.step a = some t) : s.Puts (s.wave a) t := by
  cases a with
  | uartInit txPinctrl rxPinctrl =>
    cases h with
    | off inited status tx rx func =>
      obtain rfl := Option.some.inj ((if_neg (by simp [inited])).symm.trans hst)
      exact puts_uartInit txPinctrl rxPinctrl func
    | idle inited | receiving inited | sending inited =>
      exact absurd hst (by simp [Wire.step, inited])
  | uartStartTx high wentHigh =>
    cases h with
    | off inited => exact absurd hst (by simp [Wire.step, inited])
    | idle inited status tx rx view =>
      obtain rfl : s.transmit high wentHigh = t := by
        simpa [Wire.step, inited, Wire.uartStartTx, status] using hst
      cases high with
      | true => simpa [wave, status] using puts_transmit_high wentHigh inited rx view
      | false => simpa [wave] using puts_transmit_low wentHigh inited tx view
    | receiving inited status tx view =>
      obtain rfl : s = t := by simpa [Wire.step, inited, Wire.uartStartTx, status] using hst
      simpa [wave, status] using Puts.refl (.receiving inited status tx view)
    | sending inited status =>
      exact absurd hst (by simp [Wire.step, inited, Wire.uartStartTx, status])
  | txLevel level =>
    cases h with
    | off inited status tx | idle inited status tx | receiving inited status tx =>
      exact absurd hst (by simp [Wire.step, tx])
    | sending inited status rx view =>
      obtain ⟨-, rfl⟩ : s.txEnabled = true ∧ s.write (.pioOut s.jacdacPin level) = t := by
        simpa [Wire.step] using hst
      exact puts_txLevel level inited status rx view
  | txHandler =>
    cases h with
    | off inited status tx | idle inited status tx | receiving inited status tx =>
      exact absurd hst (by simp [Wire.step, tx])
    | sending inited status rx view =>
      obtain ⟨-, rfl⟩ : s.txEnabled = true ∧ s.txHandler = t := by simpa [Wire.step] using hst
      exact puts_txHandler inited view
  | lineFalling wentHigh =>
    cases h with
    | off inited => exact absurd hst (by simp [Wire.step, inited])
    | idle inited status tx rx view =>
      obtain rfl : s.jdLineFalling wentHigh = t := by
        simpa [Wire.step, inited, status] using hst
      exact (Moves.refl s).jdLineFalling wentHigh inited tx view.driven (by simp) view
    | receiving inited status | sending inited status =>
      exact absurd hst (by simp [Wire.step, status])
  | rxSide gpio level =>
    cases h with
    | off inited status tx rx | idle inited status tx rx | sending inited status rx =>
      exact absurd hst (by simp [Wire.step, rx])
    | receiving inited status tx view =>
      obtain ⟨-, rfl⟩ : (s.rxEnabled = true ∧ gpio.val = 0) ∧ s.write (.pioOut gpio level) = t := by
        simpa [Wire.step] using hst
      exact puts_rxSide level gpio inited status tx view
  | rxDone =>
    cases h with
    | off inited => exact absurd hst (by simp [Wire.step, inited])
    | idle inited status tx rx view =>
      obtain rfl : s = t := by simpa [Wire.step, inited, Wire.rxDone, status] using hst
      exact .refl (.idle inited status tx rx view)
    | receiving inited status tx view =>
      obtain rfl : ({ s with status := .idle } : Wire).uartDisable = t := by
        simpa [Wire.step, inited, Wire.rxDone, status] using hst
      obtain ⟨hphase, hseen⟩ := (Moves.refl { s with status := .idle }).uartDisable_released inited
        view.driven (by simp) (.inr view)
      exact ⟨hphase, hseen⟩
    | sending inited status rx view =>
      obtain rfl : s = t := by simpa [Wire.step, inited, Wire.rxDone, status] using hst
      exact .refl (.sending inited status rx view)
  | uartDisable =>
    cases h with
    | off inited => exact absurd hst (by simp [Wire.step, inited])
    | idle inited status tx rx view =>
      obtain rfl : s.uartDisable = t := by simpa [Wire.step, inited, status] using hst
      exact (Moves.refl s).uartDisable_released inited view.driven (by simp) (.inl view)
    | receiving inited status tx view =>
      obtain rfl : s.uartDisable = t := by simpa [Wire.step, inited, status] using hst
      exact (Moves.refl s).uartDisable_released inited view.driven (by simp) (.inr view)
    | sending inited status => exact absurd hst (by simp [Wire.step, status])
  | other c =>
    by_cases hpin : c.pin = some s.jacdacPin
    · exact absurd hst (by simp [Wire.step, hpin])
    · exact puts_other h hpin hst

end Wire

/-! ### All runs -/

namespace Wire

variable {s : Wire}

lemma Phase.driven (h : s.Phase) (hstatus : s.status ≠ .tx) : s.view.driven = none := by
  cases h with
  | off inited status tx rx func => simp [PadView.driven, func]
  | idle inited status tx rx view => exact view.driven
  | receiving inited status tx view => exact view.driven
  | sending inited status => exact absurd status hstatus

/-- The line is driven exactly while the driver transmits. -/
lemma Phase.isSome_driven_iff (h : s.Phase) : s.view.driven.isSome ↔ s.status = .tx := by
  constructor
  · intro hdriven
    by_contra hstatus
    simp [h.driven hstatus] at hdriven
  · intro hstatus
    cases h with
    | off inited status | idle inited status | receiving inited status =>
      exact nomatch hstatus.symm.trans status
    | sending inited status rx view => simp [view.driven]

lemma phase_initial (jacdacPin : Fin 30) : (initial jacdacPin).Phase := .off rfl rfl rfl rfl rfl

/-- What was seen has the changes of what the steps are to drive. -/
lemma sameChanges_of_exec {jacdacPin : Fin 30} {acts : List WireAct}
    (hrun : exec step (.initial jacdacPin) acts = some s) :
    SameChanges none s.seen (outputs step wave (.initial jacdacPin) acts) s.view.driven ∧
      s.Phase := by
  refine exec_outputs (P := fun line (s : Wire) => SameChanges none s.seen line s.view.driven ∧
    s.Phase) ?_ ?_ hrun
  · rintro line s a t ⟨hsame, hphase⟩ hst
    obtain ⟨hphase', l, hseen, hl⟩ := hphase.step hst
    exact ⟨hseen ▸ hsame.append hl, hphase'⟩
  · have hnone := (phase_initial jacdacPin).driven (by simp [initial])
    exact ⟨hnone ▸ .nil none, phase_initial jacdacPin⟩

end Wire

/-- **The levels on the line.**  In every run from a reset, with any calls in any order and with the
functions of `pins.c` called for other pins in between: the changes of what the board drives, looked
at after every single write, are those that the calls are to drive.  And while the driver does not
transmit, the line is released. -/
theorem wire_levels (jacdacPin : Fin 30) (acts : List WireAct) (s : Wire)
    (hrun : exec Wire.step (.initial jacdacPin) acts = some s) :
    s.seen.destutter' (· ≠ ·) none =
        (outputs Wire.step Wire.wave (.initial jacdacPin) acts).destutter' (· ≠ ·) none ∧
      (s.status ≠ .tx → s.view.driven = none) := by
  obtain ⟨hsame, hphase⟩ := Wire.sameChanges_of_exec hrun
  exact ⟨hsame.changes, hphase.driven⟩

/-- After `uart_init_` a transmission is started while a board is receiving, and then one that goes
through, of a start bit and a high level. -/
theorem wire_levels_refused_and_sent :
    ∃ s, exec Wire.step (.initial 9) [.uartInit 0 0, .lineFalling true, .uartStartTx true true,
        .rxDone, .uartStartTx true true, .txLevel true, .txLevel false, .txLevel true,
        .txHandler] = some s ∧
      s.seen.destutter' (· ≠ ·) none = [none, some true, none, some true, none, some false,
        some true, some false, some true, some false, some true, none] := by
  refine ⟨_, rfl, ?_⟩
  exact (wire_levels 9 [.uartInit 0 0, .lineFalling true, .uartStartTx true true,
        .rxDone, .uartStartTx true true, .txLevel true, .txLevel false, .txLevel true,
        .txHandler] _ rfl).1.trans (by decide)

/-! ### A frame on the line -/

namespace Wire

variable {s : Wire}

/-- The levels of the transmitter, one after the other. -/
lemma exec_txLevels (levels : List Bool) (hphase : s.Phase) (hstatus : s.status = .tx)
    (htx : s.txEnabled = true) :
    ∃ t, exec step s (levels.map .txLevel) = some t ∧ t.Phase ∧ t.status = .tx ∧
      t.txEnabled = true ∧
      ∃ l, t.seen = s.seen ++ l ∧ SameChanges s.view.driven l (levels.map some) t.view.driven := by
  induction levels generalizing s with
  | nil => exact ⟨s, rfl, hphase, hstatus, htx, [], (List.append_nil _).symm, .nil _⟩
  | cons level levels ih =>
    have hst : s.step (.txLevel level) = some (s.write (.pioOut s.jacdacPin level)) := if_pos htx
    obtain ⟨hphase', l, hl, hsame⟩ := hphase.step hst
    obtain ⟨t, hrun, htphase, htstatus, httx, m, hm, hsame'⟩ := ih hphase' hstatus htx
    refine ⟨t, ?_, htphase, htstatus, httx, l ++ m, ?_, hsame.append hsame'⟩
    · exact exec_cons.mpr ⟨_, hst, hrun⟩
    · rw [hm, hl, List.append_assoc]

end Wire

/-- **A frame on the line.**  Whatever happened before, as long as the driver is idle, and for every
run of the transmitter that `tx_handler` has waited for: `uart_start_tx`, the levels of the
transmitter and `tx_handler` go through, they leave the driver idle, and what the board drives on
the line meanwhile is the low pulse, the characters of the frame with the line high in between, and
the break; before and after that it is released. -/
theorem wire_carries_frame (jacdacPin : Fin 30) (before : List WireAct) (s : Wire)
    (hs : exec Wire.step (.initial jacdacPin) before = some s) (hinited : s.inited = true)
    (hidle : s.status = .idle) (acts : List TxAct) (u : TxUnit)
    (hrun : exec TxUnit.step .initial acts = some u) (hexit : u.pc = .exited)
    (wentHigh : Bool) :
    SerialLevels u.frame u.levels ∧
    ∃ t, exec Wire.step s
        (.uartStartTx true wentHigh :: (u.levels.map .txLevel ++ [.txHandler])) = some t ∧
      t.status = .idle ∧ s.view.driven = none ∧ t.view.driven = none ∧
      ∃ l, t.seen = s.seen ++ l ∧ l.destutter' (· ≠ ·) none =
        ([some false, some true] ++ (u.levels.map some ++
          [some true, some false, some true, none])).destutter' (· ≠ ·) none := by
  have hu : u.Inv := exec_inv (fun _ _ _ h hst => h.step hst) TxUnit.inv_initial hrun
  have hserial : SerialLevels u.frame u.levels :=
    hu.progress.serialLevels (hu.stalled (.inr hexit)).1 (hu.handler (.inr hexit))
  obtain ⟨-, hphase⟩ := Wire.sameChanges_of_exec hs
  have hdriven : s.view.driven = none := hphase.driven (by simp [hidle])
  have hstart : s.step (.uartStartTx true wentHigh) = some (s.transmit true wentHigh) := by
    simp [Wire.step, Wire.uartStartTx, hinited, hidle]
  obtain ⟨hphase₁, l₁, hl₁, hsame₁⟩ := hphase.step hstart
  obtain ⟨t₂, hrun₂, hphase₂, -, htx₂, l₂, hl₂, hsame₂⟩ :=
    Wire.exec_txLevels u.levels hphase₁ rfl rfl
  have hend : t₂.step .txHandler = some t₂.txHandler := if_pos htx₂
  obtain ⟨hphase₃, l₃, hl₃, hsame₃⟩ := hphase₂.step hend
  have hsame := hsame₁.append (hsame₂.append hsame₃)
  rw [hdriven] at hsame
  have hwave : s.wave (.uartStartTx true wentHigh) = [some false, some true] := by
    simp [Wire.wave, hidle]
  rw [hwave] at hsame
  have hstatus₃ : t₂.txHandler.status = .idle := rfl
  refine ⟨hserial, t₂.txHandler, ?_, hstatus₃, hdriven, hphase₃.driven (by simp [hstatus₃]),
    l₁ ++ (l₂ ++ l₃), ?_, hsame.changes⟩
  · refine exec_cons.mpr ⟨_, hstart, exec_append.mpr ⟨t₂, hrun₂, ?_⟩⟩
    exact exec_cons.mpr ⟨_, hend, rfl⟩
  · rw [hl₃, hl₂, hl₁, List.append_assoc, List.append_assoc]

/-- The two bytes of `slowFrame`, after `uart_init_`. -/
theorem wire_carries_frame_two_bytes :
    ∃ s u t, exec Wire.step (.initial 9) [.uartInit 0 0] = some s ∧
      exec TxUnit.step .initial slowFrame = some u ∧ u.frame = [0x5a, 0x01] ∧
      SerialLevels u.frame u.levels ∧
      exec Wire.step s (.uartStartTx true true :: (u.levels.map .txLevel ++ [.txHandler])) =
        some t ∧
      t.view.driven = none := by
  have hframe : (exec TxUnit.step .initial slowFrame).map (fun u => (u.pc, u.frame)) =
      some (.exited, [0x5a, 0x01]) := by decide +kernel
  obtain ⟨u, hu, heq⟩ := Option.map_eq_some_iff.mp hframe
  obtain ⟨hpc, hbytes⟩ := Prod.mk.inj heq
  obtain ⟨hserial, t, ht, -, -, hreleased, -⟩ := wire_carries_frame 9 [.uartInit 0 0] _ rfl rfl rfl
    slowFrame u hu hpc true
  exact ⟨_, u, t, rfl, hu, hbytes, hserial, ht, hreleased⟩

end JdPico
