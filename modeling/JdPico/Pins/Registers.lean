import JdPico.Lib.Run
import JdPico.Lib.Word

/-!
# Pins in their registers

The functions of `pins.c` work on registers that the pins share or that hold several things of one
pin.  Whether a pin is driven and at which level are bits of two words of the processor's block
(`SIO`), one bit for each pin; the pad of a pin has its pulls, its input enable and its output
disable in one word, next to the drive strength and other settings; and a word of the IO bank
selects the function.  Some of them are written through the aliases that set, clear or exchange
bits (`Word`).

Seen through `PinRegs.view`, a pin has a state of its own, and a call changes the state of the pin
it names and of no other.  So what a sequence of calls does to a pin is what those of its calls that
name the pin do (`pins_independent`).
-/

namespace JdPico

open Machine Word

/-! ### The registers -/

/-- The registers that `pins.c` writes, apart from those of the interrupts. -/
structure PinRegs where
  /-- `gpio_out` of `SIO`. -/
  gpioOut : BitVec 32
  /-- `gpio_oe` of `SIO`. -/
  gpioOe : BitVec 32
  /-- `padsbank0_hw->io`. -/
  pad : Fin 30 → BitVec 32
  /-- `iobank0_hw->io[gpio].ctrl`. -/
  ctrl : Fin 30 → BitVec 32

/-- `PADS_BANK0_GPIO0_PDE_BITS`. -/
def pdeBits : BitVec 32 := 0x4

/-- `PADS_BANK0_GPIO0_PUE_BITS`. -/
def pueBits : BitVec 32 := 0x8

/-- `PADS_BANK0_GPIO0_IE_BITS`. -/
def ieBits : BitVec 32 := 0x40

/-- `PADS_BANK0_GPIO0_OD_BITS`. -/
def odBits : BitVec 32 := 0x80

/-- `GPIO_FUNC_PWM`. -/
def funcPwm : BitVec 5 := 4

/-- `GPIO_FUNC_SIO`. -/
def funcSio : BitVec 5 := 5

/-- `GPIO_FUNC_NULL`. -/
def funcNull : BitVec 5 := 0x1f

namespace PinRegs

/-- `gpio_put`. -/
def gpioPut (gpio : Fin 30) (v : Bool) (s : PinRegs) : PinRegs :=
  { s with
    gpioOut := if v then setBits s.gpioOut (1#32 <<< gpio.val)
      else clearBits s.gpioOut (1#32 <<< gpio.val) }

/-- `gpio_set_dir`. -/
def gpioSetDir (gpio : Fin 30) (out : Bool) (s : PinRegs) : PinRegs :=
  { s with
    gpioOe := if out then setBits s.gpioOe (1#32 <<< gpio.val)
      else clearBits s.gpioOe (1#32 <<< gpio.val) }

/-- `gpio_set_function_`. -/
def gpioSetFunction (gpio : Fin 30) (fn : BitVec 5) (s : PinRegs) : PinRegs :=
  { s with
    pad := Function.update s.pad gpio (writeMasked (s.pad gpio) ieBits (ieBits ||| odBits))
    ctrl := Function.update s.ctrl gpio (fn.setWidth 32) }

/-- `gpio_set_pulls_`. -/
def gpioSetPulls (gpio : Fin 30) (up down : Bool) (s : PinRegs) : PinRegs :=
  { s with
    pad := Function.update s.pad gpio (writeMasked (s.pad gpio)
      ((BitVec.ofBool up).setWidth 32 <<< 3 ||| (BitVec.ofBool down).setWidth 32 <<< 2)
      (pueBits ||| pdeBits)) }

/-- `gpio_set_input_enabled_`. -/
def gpioSetInputEnabled (gpio : Fin 30) (enabled : Bool) (s : PinRegs) : PinRegs :=
  { s with
    pad := Function.update s.pad gpio
      (if enabled then setBits (s.pad gpio) ieBits else clearBits (s.pad gpio) ieBits) }

/-- `gpio_init_`. -/
def gpioInit (gpio : Fin 30) (s : PinRegs) : PinRegs :=
  { s with
    gpioOe := clearBits s.gpioOe (1#32 <<< gpio.val)
    gpioOut := clearBits s.gpioOut (1#32 <<< gpio.val) }.gpioSetFunction gpio funcSio

end PinRegs

/-! ### The functions of `pins.c` -/

/-- A pin, or `NO_PIN`. -/
abbrev PinArg := Option (Fin 30)

namespace PinRegs

/-- `pin_set`. -/
def pinSet (pin : PinArg) (v : Bool) (s : PinRegs) : PinRegs :=
  pin.elim s fun gpio => s.gpioPut gpio v

/-- `pin_setup_output`. -/
def pinSetupOutput (pin : PinArg) (s : PinRegs) : PinRegs :=
  pin.elim s fun gpio => (s.gpioSetDir gpio true).gpioSetFunction gpio funcSio

/-- The loop of `pin_pulse`. -/
def pulses (gpio : Fin 30) : ℕ → PinRegs → PinRegs
  | 0, s => s
  | num + 1, s => pulses gpio num ((s.gpioPut gpio true).gpioPut gpio false)

/-- `pin_pulse`. -/
def pinPulse (pin : PinArg) (num : ℕ) (s : PinRegs) : PinRegs :=
  pin.elim s fun gpio => pulses gpio num (s.pinSetupOutput pin)

/-- `pin_set_pull`. -/
def pinSetPull (pin : PinArg) (pull : ℤ) (s : PinRegs) : PinRegs :=
  pin.elim s fun gpio => s.gpioSetPulls gpio (0 < pull) (pull < 0)

/-- `pin_setup_input`. -/
def pinSetupInput (pin : PinArg) (pull : ℤ) (s : PinRegs) : PinRegs :=
  pin.elim s fun gpio =>
    ((s.pinSetPull pin pull).gpioSetDir gpio false).gpioSetFunction gpio funcSio

/-- `pin_setup_analog_input`. -/
def pinSetupAnalogInput (pin : PinArg) (s : PinRegs) : PinRegs :=
  pin.elim s fun gpio =>
    (((s.pinSetPull pin 0).gpioSetFunction gpio funcNull).gpioSetDir gpio false).gpioSetInputEnabled
      gpio false

/-- `pin_setup_output_af`. -/
def pinSetupOutputAf (pin : PinArg) (af : BitVec 5) (s : PinRegs) : PinRegs :=
  pin.elim s fun gpio => s.gpioSetFunction gpio af

/-- `jd_pwm_enable`. -/
def jdPwmEnable (pwmId : Fin 30) (enabled : Bool) (s : PinRegs) : PinRegs :=
  if enabled then s.gpioSetFunction pwmId funcPwm else s.gpioInit pwmId

end PinRegs

/-- The calls. -/
inductive PinCall where
  | set (pin : PinArg) (v : Bool)
  | pulse (pin : PinArg) (num : ℕ)
  | setupOutput (pin : PinArg)
  | setPull (pin : PinArg) (pull : ℤ)
  | setupInput (pin : PinArg) (pull : ℤ)
  | setupAnalogInput (pin : PinArg)
  | setupOutputAf (pin : PinArg) (af : BitVec 5)
  | pwmEnable (pwmId : Fin 30) (enabled : Bool)
  deriving DecidableEq, Repr

/-- The pin that a call names. -/
def PinCall.pin : PinCall → PinArg
  | .set pin _ | .pulse pin _ | .setupOutput pin | .setPull pin _ | .setupInput pin _
  | .setupAnalogInput pin | .setupOutputAf pin _ => pin
  | .pwmEnable pwmId _ => some pwmId

/-- A call. -/
def PinRegs.call (s : PinRegs) : PinCall → PinRegs
  | .set pin v => s.pinSet pin v
  | .pulse pin num => s.pinPulse pin num
  | .setupOutput pin => s.pinSetupOutput pin
  | .setPull pin pull => s.pinSetPull pin pull
  | .setupInput pin pull => s.pinSetupInput pin pull
  | .setupAnalogInput pin => s.pinSetupAnalogInput pin
  | .setupOutputAf pin af => s.pinSetupOutputAf pin af
  | .pwmEnable pwmId enabled => s.jdPwmEnable pwmId enabled

/-! ### One pin -/

/-- The state of a pin. -/
structure PinView where
  func : BitVec 32
  outputDisabled : Bool
  inputEnabled : Bool
  pullUp : Bool
  pullDown : Bool
  /-- The settings of the pad that `pins.c` does not deal with. -/
  padRest : BitVec 32
  outputEnabled : Bool
  out : Bool
  deriving DecidableEq, Repr

/-- The state of a pin in the registers. -/
def PinRegs.view (gpio : Fin 30) (s : PinRegs) : PinView where
  func := s.ctrl gpio
  outputDisabled := (s.pad gpio).getLsbD 7
  inputEnabled := (s.pad gpio).getLsbD 6
  pullUp := (s.pad gpio).getLsbD 3
  pullDown := (s.pad gpio).getLsbD 2
  padRest := s.pad gpio &&& ~~~(odBits ||| ieBits ||| pueBits ||| pdeBits)
  outputEnabled := s.gpioOe.getLsbD gpio
  out := s.gpioOut.getLsbD gpio

namespace PinView

/-- A function is selected. -/
def select (fn : BitVec 5) (v : PinView) : PinView :=
  { v with func := fn.setWidth 32, outputDisabled := false, inputEnabled := true }

/-- What a call does to the pin that it names. -/
def call (v : PinView) : PinCall → PinView
  | .set _ level => { v with out := level }
  | .pulse _ num => { v with outputEnabled := true, out := num = 0 && v.out }.select funcSio
  | .setupOutput _ => { v with outputEnabled := true }.select funcSio
  | .setPull _ pull => { v with pullUp := 0 < pull, pullDown := pull < 0 }
  | .setupInput _ pull =>
    { v with pullUp := 0 < pull, pullDown := pull < 0, outputEnabled := false }.select funcSio
  | .setupAnalogInput _ =>
    { { v with pullUp := false, pullDown := false, outputEnabled := false }.select funcNull with
      inputEnabled := false }
  | .setupOutputAf _ af => v.select af
  | .pwmEnable _ true => v.select funcPwm
  | .pwmEnable _ false => { v with outputEnabled := false, out := false }.select funcSio

end PinView

namespace PinRegs

variable {s : PinRegs} {p q : Fin 30}

/-- Setting the bit of a pin leaves those of the others alone, -/
lemma getLsbD_setBits_pin (r : BitVec 32) (p q : Fin 30) :
    (setBits r (1#32 <<< p.val)).getLsbD q = if q = p then true else r.getLsbD q := by
  rw [getLsbD_setBits, getLsbD_one_shiftLeft (by omega)]
  simp only [decide_eq_true_eq, Fin.ext_iff]

/-- and so does clearing it. -/
lemma getLsbD_clearBits_pin (r : BitVec 32) (p q : Fin 30) :
    (clearBits r (1#32 <<< p.val)).getLsbD q = if q = p then false else r.getLsbD q := by
  rw [getLsbD_clearBits, getLsbD_one_shiftLeft (by omega)]
  simp only [decide_eq_true_eq, Fin.ext_iff]

@[simp] lemma view_gpioPut (v : Bool) :
    (s.gpioPut p v).view q = if q = p then { s.view q with out := v } else s.view q := by
  cases v <;> by_cases h : q = p <;>
    simp [gpioPut, view, getLsbD_setBits_pin, getLsbD_clearBits_pin, h]

@[simp] lemma view_gpioSetDir (out : Bool) :
    (s.gpioSetDir p out).view q =
      if q = p then { s.view q with outputEnabled := out } else s.view q := by
  cases out <;> by_cases h : q = p <;>
    simp [gpioSetDir, view, getLsbD_setBits_pin, getLsbD_clearBits_pin, h]

@[simp] lemma view_gpioSetFunction (fn : BitVec 5) :
    (s.gpioSetFunction p fn).view q = if q = p then (s.view q).select fn else s.view q := by
  by_cases h : q = p
  · subst h
    simp only [gpioSetFunction, view, PinView.select, Function.update_self, getLsbD_writeMasked,
      if_true]
    rw [writeMasked_and (by decide)]
    rfl
  · simp [gpioSetFunction, view, h]

@[simp] lemma view_gpioSetPulls (up down : Bool) :
    (s.gpioSetPulls p up down).view q =
      if q = p then { s.view q with pullUp := up, pullDown := down } else s.view q := by
  by_cases h : q = p
  · subst h
    simp only [gpioSetPulls, view, Function.update_self, getLsbD_writeMasked, if_true]
    rw [writeMasked_and (by decide)]
    cases up <;> cases down <;> rfl
  · simp [gpioSetPulls, view, h]

@[simp] lemma view_gpioSetInputEnabled (enabled : Bool) :
    (s.gpioSetInputEnabled p enabled).view q =
      if q = p then { s.view q with inputEnabled := enabled } else s.view q := by
  by_cases h : q = p
  · subst h
    simp only [gpioSetInputEnabled, view, Function.update_self, setBits_eq, clearBits_eq,
      if_true]
    cases enabled <;>
    · simp only [if_true, Bool.false_eq_true, if_false, getLsbD_writeMasked]
      rw [writeMasked_and (by decide)]
      rfl
  · simp [gpioSetInputEnabled, view, h]

@[simp] lemma view_pulses (num : ℕ) :
    (pulses p num s).view q =
      if q = p then { s.view q with out := num = 0 && (s.view q).out } else s.view q := by
  induction num generalizing s with
  | zero => simp [pulses]
  | succ num ih =>
    rw [pulses, ih]
    by_cases h : q = p <;> simp [h]

@[simp] lemma view_gpioInit :
    (s.gpioInit p).view q =
      if q = p then { s.view q with outputEnabled := false, out := false }.select funcSio
      else s.view q := by
  have hclear : s.gpioInit p = ((s.gpioSetDir p false).gpioPut p false).gpioSetFunction p funcSio :=
    rfl
  rw [hclear, view_gpioSetFunction]
  by_cases h : q = p <;> simp [h]

/-- A call changes the pin that it names, and no other. -/
lemma view_call (s : PinRegs) (c : PinCall) :
    (s.call c).view q = if c.pin = some q then (s.view q).call c else s.view q := by
  have hsome : ∀ p, some p = some q ↔ q = p := fun p => by rw [Option.some_inj, eq_comm]
  cases c with
  | set pin v =>
    cases pin <;> simp [call, PinCall.pin, PinView.call, pinSet, hsome]
  | pulse pin num =>
    cases pin with
    | none => simp [call, PinCall.pin, pinPulse]
    | some p =>
      by_cases h : q = p <;>
        simp [call, PinCall.pin, PinView.call, PinView.select, pinPulse, pinSetupOutput, hsome, h]
  | setupOutput pin =>
    cases pin with
    | none => simp [call, PinCall.pin, pinSetupOutput]
    | some p =>
      by_cases h : q = p <;> simp [call, PinCall.pin, PinView.call, pinSetupOutput, hsome, h]
  | setPull pin pull =>
    cases pin <;> simp [call, PinCall.pin, PinView.call, pinSetPull, hsome]
  | setupInput pin pull =>
    cases pin with
    | none => simp [call, PinCall.pin, pinSetupInput]
    | some p =>
      by_cases h : q = p <;>
        simp [call, PinCall.pin, PinView.call, pinSetupInput, pinSetPull, hsome, h]
  | setupAnalogInput pin =>
    cases pin with
    | none => simp [call, PinCall.pin, pinSetupAnalogInput]
    | some p =>
      by_cases h : q = p <;>
        simp [call, PinCall.pin, PinView.call, PinView.select, pinSetupAnalogInput, pinSetPull,
          hsome, h]
  | setupOutputAf pin af =>
    cases pin <;> simp [call, PinCall.pin, PinView.call, pinSetupOutputAf, hsome]
  | pwmEnable pwmId enabled =>
    cases enabled <;> by_cases h : q = pwmId <;>
      simp [call, PinCall.pin, PinView.call, jdPwmEnable, hsome, h]

end PinRegs

/-! ### Sequences of calls -/

/-- **Pins are independent.**  For all registers and all sequences of calls, the state of a pin
after the calls is what the calls that name the pin make of its state. -/
theorem pins_independent (s : PinRegs) (calls : List PinCall) (gpio : Fin 30) :
    (calls.foldl PinRegs.call s).view gpio =
      (calls.filter fun c => c.pin = some gpio).foldl PinView.call (s.view gpio) :=
  foldl_view (fun s c => by simpa using s.view_call c) s calls

end JdPico
