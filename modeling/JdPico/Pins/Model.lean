import Mathlib.Data.UInt
import Mathlib.Logic.Function.Basic
import Mathlib.Tactic

/-!
# Pins

The parts of a pin that `pins.c` deals with: the function that is selected in the IO bank, the pad
with its pulls, its input enable and its output disable, and the two bits by which the processor
drives the pin when it has selected itself (`SIO`).  Every function touches one pin.

A pin number is a byte, and `NO_PIN` stands for a pin that is not configured.
-/

namespace JdPico

/-- `NO_PIN`. -/
def noPin : UInt8 := 0xff

/-- `enum gpio_function`, as far as it is used. -/
inductive GpioFunction where
  | null
  | sio
  | pwm
  | uart
  deriving DecidableEq, Repr

/-- A pin: its function, its pad and its two bits in the SIO block. -/
structure GpioPin where
  func : GpioFunction
  inputEnabled : Bool
  outputDisabled : Bool
  pullUp : Bool
  pullDown : Bool
  outputEnabled : Bool
  out : Bool
  deriving DecidableEq, Repr

/-- A pin after reset. -/
def GpioPin.reset : GpioPin := ⟨.null, true, false, false, true, false, false⟩

/-- All pins. -/
abbrev GpioBank := UInt8 → GpioPin

/-- `gpio_set_function_`, which is `gpio_set_function` of the SDK: the input is enabled, the output
is not disabled, and the function is selected. -/
def gpioSetFunction (gpio : UInt8) (fn : GpioFunction) (bank : GpioBank) : GpioBank :=
  Function.update bank gpio
    { bank gpio with func := fn, inputEnabled := true, outputDisabled := false }

/-- `gpio_init_`. -/
def gpioInit (gpio : UInt8) (bank : GpioBank) : GpioBank :=
  gpioSetFunction gpio .sio
    (Function.update bank gpio { bank gpio with outputEnabled := false, out := false })

/-- `pin_set_pull`, with `gpio_set_pulls_`. -/
def pinSetPull (pin : UInt8) (pull : ℤ) (bank : GpioBank) : GpioBank :=
  if pin = noPin then bank
  else Function.update bank pin { bank pin with pullUp := 0 < pull, pullDown := pull < 0 }

/-- `pin_setup_analog_input`. -/
def pinSetupAnalogInput (pin : UInt8) (bank : GpioBank) : GpioBank :=
  if pin = noPin then bank
  else
    let bank := gpioSetFunction pin .null (pinSetPull pin 0 bank)
    Function.update bank pin { bank pin with outputEnabled := false, inputEnabled := false }

/-- `pin_get`; `level` is what `gpio_get` returns. -/
def pinGet (pin : UInt8) (level : Bool) : ℤ := if pin = noPin then -1 else level.toNat

lemma pinGet_eq_zero_iff {pin : UInt8} (hpin : pin ≠ noPin) (level : Bool) :
    pinGet pin level = 0 ↔ level = false := by
  rw [pinGet, if_neg hpin]
  cases level <;> simp

variable {gpio pin : UInt8} {fn : GpioFunction} {bank : GpioBank}

@[simp] lemma gpioSetFunction_func :
    (gpioSetFunction gpio fn bank pin).func = if pin = gpio then fn else (bank pin).func := by
  by_cases h : pin = gpio
  · subst h
    simp [gpioSetFunction]
  · simp [gpioSetFunction, h]

@[simp] lemma gpioSetFunction_outputDisabled :
    (gpioSetFunction gpio fn bank pin).outputDisabled =
      if pin = gpio then false else (bank pin).outputDisabled := by
  by_cases h : pin = gpio
  · subst h
    simp [gpioSetFunction]
  · simp [gpioSetFunction, h]

/-- Initialising a pin leaves the others alone. -/
lemma gpioInit_of_ne (h : pin ≠ gpio) : gpioInit gpio bank pin = bank pin := by
  simp [gpioInit, gpioSetFunction, h]

end JdPico
