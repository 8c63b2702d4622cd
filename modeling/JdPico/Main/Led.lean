import JdPico.Lib.Changes
import JdPico.Pins.Registers

/-!
# The status LED

The LED of the board is on a pin of the processor or, on a Pico W, on a pin of the wireless chip.
There each change is a message to the chip, so `pico_w_set_led` sends one only if the LED is to
change, and nothing before the chip is initialised.  A colour is shown as the LED being on.

In every sequence of calls the LED shows the last colour that was asked for, as far as the call
could have an effect: after the LED was set up and, on a Pico W, after the chip was initialised.  On
a Pico W no message repeats the one before, and no pin of the processor is touched
(`led_shows_last`).
-/

namespace JdPico

open Machine Changes

/-! ### The code -/

/-- The pin zero, which stands for no LED. -/
def noLed : PinArg := some ⟨0, by decide⟩

/-- The variables of `platform.c` and `wifi_impl.c` for the LED, the registers of the pins, and the
messages to the wireless chip. -/
structure Led where
  isPicoW : Bool
  /-- `use_pico_led`. -/
  usePicoLed : PinArg
  /-- `inited` of `wifi_impl.c`. -/
  inited : Bool
  /-- `is_on` of `pico_w_set_led`. -/
  isOn : Bool
  regs : PinRegs
  /-- The values that `cyw43_arch_gpio_put` was called with, newest first. -/
  puts : List Bool

/-- The calls. -/
inductive LedCall where
  /-- `jd_rgbext_init(type, pin)`. -/
  | rgbextInit (type : ℤ) (pin : PinArg)
  /-- `jd_rgbext_set(r, g, b)`. -/
  | rgbextSet (r g b : UInt8)
  /-- `jd_wifi_init`, with what `cyw43_arch_init` returns. -/
  | wifiInit (err : ℤ)
  deriving DecidableEq, Repr

/-- The state at start-up, after the board was recognised. -/
def Led.initial (isPicoW : Bool) (regs : PinRegs) : Led :=
  ⟨isPicoW, noLed, false, false, regs, []⟩

/-- The LED is on for every colour but black. -/
def shouldBeOn (r g b : UInt8) : Bool := 0 < r ∨ 0 < g ∨ 0 < b

namespace Led

/-- `jd_rgbext_init`. -/
def jdRgbextInit (type : ℤ) (pin : PinArg) (s : Led) : Led :=
  if type = 100 then
    { s with
      usePicoLed := pin
      regs := if s.isPicoW then s.regs else s.regs.pinSetupOutput pin }
  else s

/-- `pico_w_set_led`. -/
def picoWSetLed (r g b : UInt8) (s : Led) : Led :=
  if s.inited = false then s
  else if s.isOn ≠ shouldBeOn r g b then
    { s with isOn := shouldBeOn r g b, puts := shouldBeOn r g b :: s.puts }
  else s

/-- `jd_rgbext_set`. -/
def jdRgbextSet (r g b : UInt8) (s : Led) : Led :=
  if s.usePicoLed = noLed then s
  else if s.isPicoW then s.picoWSetLed r g b
  else { s with regs := s.regs.pinSet s.usePicoLed (shouldBeOn r g b) }

/-- `jd_wifi_init`, as far as the LED is concerned. -/
def jdWifiInit (err : ℤ) (s : Led) : Led := if err ≠ 0 then s else { s with inited := true }

/-- A call. -/
def next (s : Led) : LedCall → Led
  | .rgbextInit type pin => s.jdRgbextInit type pin
  | .rgbextSet r g b => s.jdRgbextSet r g b
  | .wifiInit err => s.jdWifiInit err

end Led

/-! ### What was asked for -/

/-- The calls, seen from outside. -/
structure LedAsked where
  /-- The pin of the LED. -/
  pin : PinArg
  /-- The wireless chip is initialised. -/
  inited : Bool
  /-- What was asked for since the chip was initialised, oldest first. -/
  sinceInit : List Bool
  /-- What was last asked for since the pin was set up. -/
  level : Option Bool

/-- One more call. -/
def LedAsked.next (s : LedAsked) : LedCall → LedAsked
  | .rgbextInit type pin => if type = 100 then { s with pin := pin, level := none } else s
  | .rgbextSet r g b =>
    if s.pin = noLed then s
    else
      { s with
        sinceInit := s.sinceInit ++ if s.inited then [shouldBeOn r g b] else []
        level := some (shouldBeOn r g b) }
  | .wifiInit err => if err = 0 then { s with inited := true } else s

/-- What was asked for by a sequence of calls. -/
def ledAsked (calls : List LedCall) : LedAsked :=
  calls.foldl LedAsked.next ⟨noLed, false, [], none⟩

/-- The state of the LED after the calls. -/
structure Led.Shows (isPicoW : Bool) (regs : PinRegs) (asked : LedAsked) (s : Led) : Prop where
  board : s.isPicoW = isPicoW
  pin : s.usePicoLed = asked.pin
  inited : s.inited = asked.inited
  /-- On a Pico W the messages are the changes. -/
  messages : isPicoW = true →
    s.regs = regs ∧ Reports false asked.sinceInit s.puts.reverse s.isOn
  /-- Otherwise the pin is driven, at the level that was asked for last. -/
  driven : isPicoW = false → s.puts = [] ∧ ∀ p : Fin 30, p ≠ 0 → s.usePicoLed = some p →
    (s.regs.view p).outputEnabled = true ∧ (s.regs.view p).func = funcSio.setWidth 32 ∧
      ∀ on, asked.level = some on → (s.regs.view p).out = on

/-! ### Each call -/

section

variable {isPicoW : Bool} {regs : PinRegs} {asked : LedAsked} {s : Led}

/-- Setting the LED up. -/
lemma Led.Shows.rgbextInit (h : s.Shows isPicoW regs asked) (type : ℤ) (pin : PinArg) :
    (s.jdRgbextInit type pin).Shows isPicoW regs (asked.next (.rgbextInit type pin)) := by
  unfold Led.jdRgbextInit LedAsked.next
  by_cases htype : type = 100
  · simp only [if_pos htype]
    refine ⟨h.board, rfl, h.inited, fun hw => ?_, fun hw => ?_⟩
    · have hboard := h.board.trans hw
      obtain ⟨hregs, hreports⟩ := h.messages hw
      exact ⟨by simp only [hboard, if_true, hregs], hreports⟩
    · have hboard := h.board.trans hw
      refine ⟨(h.driven hw).1, fun p _ hpin => ?_⟩
      obtain rfl : pin = some p := hpin
      simp [hboard, PinRegs.pinSetupOutput, PinView.select]
  · simp only [if_neg htype]
    exact h

/-- A message is sent for a change, once the chip is initialised. -/
lemma Led.reports_picoWSetLed {seen : List Bool} (h : Reports false seen s.puts.reverse s.isOn)
    (r g b : UInt8) :
    Reports false (seen ++ if s.inited then [shouldBeOn r g b] else [])
      (s.picoWSetLed r g b).puts.reverse (s.picoWSetLed r g b).isOn := by
  unfold Led.picoWSetLed
  cases s.inited with
  | false =>
    rw [if_pos rfl, if_neg Bool.false_ne_true, List.append_nil]
    exact h
  | true =>
    rw [if_pos rfl, if_neg (show ¬true = false by decide)]
    by_cases hchange : s.isOn = shouldBeOn r g b
    · rw [if_neg (not_not.mpr hchange), ← hchange]
      exact h.same
    · rw [if_pos hchange, List.reverse_cons]
      exact h.change hchange

/-- Asking for a colour. -/
lemma Led.Shows.rgbextSet (h : s.Shows isPicoW regs asked) (r g b : UInt8) :
    (s.jdRgbextSet r g b).Shows isPicoW regs (asked.next (.rgbextSet r g b)) := by
  unfold Led.jdRgbextSet LedAsked.next
  rw [← h.pin]
  by_cases hled : s.usePicoLed = noLed
  · simp only [if_pos hled]
    exact h
  simp only [if_neg hled]
  by_cases hboard : s.isPicoW = true
  · -- the message, if there is one, leaves everything else alone
    have hrest : (s.picoWSetLed r g b).isPicoW = s.isPicoW ∧
        (s.picoWSetLed r g b).usePicoLed = s.usePicoLed ∧
        (s.picoWSetLed r g b).inited = s.inited ∧ (s.picoWSetLed r g b).regs = s.regs := by
      unfold Led.picoWSetLed
      split_ifs <;> exact ⟨rfl, rfl, rfl, rfl⟩
    obtain ⟨hw, hpin, hinited, hregs⟩ := hrest
    have hpicoW : isPicoW = true := h.board.symm.trans hboard
    obtain ⟨hregs', hreports⟩ := h.messages hpicoW
    simp only [if_pos hboard]
    refine ⟨hw.trans h.board, hpin, hinited.trans h.inited, fun _ => ⟨hregs.trans hregs', ?_⟩,
      fun hno => absurd (hpicoW.symm.trans hno) (by decide)⟩
    rw [← h.inited]
    exact Led.reports_picoWSetLed hreports r g b
  · simp only [if_neg hboard]
    have hpicoW : isPicoW = false := h.board.symm.trans (Bool.not_eq_true _ ▸ hboard)
    obtain ⟨hputs, hdriven⟩ := h.driven hpicoW
    refine ⟨h.board, rfl, h.inited, fun hw => absurd (hpicoW.symm.trans hw) (by decide),
      fun _ => ⟨hputs, fun p hp hpin => ?_⟩⟩
    obtain ⟨henabled, hfunc, -⟩ := hdriven p hp hpin
    have hpin' : s.usePicoLed = some p := hpin
    simp [PinRegs.pinSet, hpin', henabled, hfunc]

/-- Initialising the wireless chip. -/
lemma Led.Shows.wifiInit (h : s.Shows isPicoW regs asked) (err : ℤ) :
    (s.jdWifiInit err).Shows isPicoW regs (asked.next (.wifiInit err)) := by
  unfold Led.jdWifiInit LedAsked.next
  by_cases herr : err = 0
  · simp only [herr, ne_eq, not_true_eq_false, if_false, if_true]
    exact ⟨h.board, h.pin, rfl, h.messages, h.driven⟩
  · simp only [herr, ne_eq, not_false_eq_true, if_true, if_false]
    exact h

end

/-! ### All calls -/

/-- **The LED shows what was asked for last.**  For all sequences of calls, on a Pico W: no pin of
the processor is touched, the messages to the wireless chip are the changes of what was asked for
since it was initialised, without repetitions, and the last one is what was asked for last.  On
another board the pin of the LED is driven, at the level that was asked for last since it was set
up, and there is no message. -/
theorem led_shows_last (isPicoW : Bool) (regs : PinRegs) (calls : List LedCall) :
    (calls.foldl Led.next (.initial isPicoW regs)).Shows isPicoW regs (ledAsked calls) := by
  have hs : (Led.initial isPicoW regs).Shows isPicoW regs (ledAsked []) :=
    ⟨rfl, rfl, rfl, fun _ => ⟨rfl, Reports.initial false⟩,
      fun _ => ⟨rfl, fun p hp hpin => absurd (Option.some.inj hpin).symm hp⟩⟩
  refine foldl_history (P := fun calls s => Led.Shows isPicoW regs (ledAsked calls) s) ?_ hs calls
  intro calls s c h
  rw [ledAsked, List.foldl_append]
  cases c with
  | rgbextInit type pin => exact h.rgbextInit type pin
  | rgbextSet r g b => exact h.rgbextSet r g b
  | wifiInit err => exact h.wifiInit err

/-- Red before the chip is initialised is lost; red again, green and black are two messages. -/
example :
    let calls : List LedCall := [.rgbextInit 100 (some 25), .rgbextSet 9 0 0, .wifiInit 0,
      .rgbextSet 9 0 0, .rgbextSet 0 9 0, .rgbextSet 0 0 0]
    (calls.foldl Led.next (.initial true ⟨0, 0, fun _ => 0, fun _ => 0⟩)).puts = [false, true] := by
  decide

end JdPico
