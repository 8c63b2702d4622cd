import JdPico.Lib.Run
import Mathlib.Data.UInt

/-!
# The USB input devices

`hid.c` keeps one report for each of a keyboard, a mouse and a gamepad, with a flag that says that
the report is to be sent.  The services of the application change the reports; `hid_process`, which
the main loop calls, sends those whose flag is set and whose interface is ready.

The reports of the keyboard and of the gamepad are replaced as a whole and sent as a whole; what is
in them does not matter here.  The report of the mouse is made up: buttons are joined to those that
are already in it and movements are added, in the signed bytes of the report, and it is zeroed when
it has been sent.

What was requested of the mouse and what was sent is kept in a log, newest first.
-/

namespace JdPico

/-- The axes along which the mouse moves. -/
inductive MouseAxis where
  | x
  | y
  | wheel
  | pan
  deriving DecidableEq, Repr

instance : Fintype MouseAxis :=
  .ofList [.x, .y, .wheel, .pan] fun a => by cases a <;> simp

/-- `jd_hid_mouse_report_t`. -/
structure MouseReport where
  buttons : UInt8
  x : Int8
  y : Int8
  wheel : Int8
  pan : Int8
  deriving DecidableEq, Repr

namespace MouseReport

/-- The report after `memset`. -/
def zero : MouseReport := ⟨0, 0, 0, 0, 0⟩

/-- The movement along an axis. -/
def axis (r : MouseReport) : MouseAxis → Int8
  | .x => r.x
  | .y => r.y
  | .wheel => r.wheel
  | .pan => r.pan

/-- The buttons pressed in `q` are pressed in `p`. -/
def Includes (p q : MouseReport) : Prop := q.buttons ||| p.buttons = p.buttons

instance (p q : MouseReport) : Decidable (p.Includes q) :=
  inferInstanceAs (Decidable (_ = _))

end MouseReport

/-- What happens to the mouse. -/
inductive MouseEvent where
  /-- `jd_hid_mouse_move` is called. -/
  | moved (r : MouseReport)
  /-- `tud_hid_n_mouse_report` is called. -/
  | sent (r : MouseReport)
  deriving DecidableEq, Repr

/-- The static state of `hid.c`, with what was sent. -/
structure HidState (Kbd Pad : Type) where
  kbdReport : Kbd
  kbdReportDirty : Bool
  mouseReport : MouseReport
  mouseReportDirty : Bool
  gamepadReport : Pad
  gamepadReportDirty : Bool
  /-- The keyboard reports sent so far, newest first. -/
  kbdSent : List Kbd
  /-- What happened to the mouse so far, newest first. -/
  mouseLog : List MouseEvent
  /-- The gamepad reports sent so far, newest first. -/
  gamepadSent : List Pad

variable {Kbd Pad : Type}

/-- The state at start-up. -/
def HidState.initial [Zero Kbd] [Zero Pad] : HidState Kbd Pad :=
  ⟨0, false, .zero, false, 0, false, [], [], []⟩

/-- `jd_hid_keyboard_set_report`; `none` is the null pointer. -/
def jdHidKeyboardSetReport [Zero Kbd] (report : Option Kbd) (s : HidState Kbd Pad) :
    HidState Kbd Pad :=
  { s with kbdReport := report.getD 0, kbdReportDirty := true }

/-- `jd_hid_gamepad_set_report`; `none` is the null pointer. -/
def jdHidGamepadSetReport [Zero Pad] (report : Option Pad) (s : HidState Kbd Pad) :
    HidState Kbd Pad :=
  { s with gamepadReport := report.getD 0, gamepadReportDirty := true }

/-- `jd_hid_mouse_move`. -/
def jdHidMouseMove (report : MouseReport) (s : HidState Kbd Pad) : HidState Kbd Pad :=
  { s with
    mouseReport :=
      { buttons := s.mouseReport.buttons ||| report.buttons
        x := s.mouseReport.x + report.x
        y := s.mouseReport.y + report.y
        wheel := s.mouseReport.wheel + report.wheel
        pan := s.mouseReport.pan + report.pan }
    mouseReportDirty := true
    mouseLog := .moved report :: s.mouseLog }

/-- The interfaces that are ready, as `tud_hid_n_ready` tells. -/
structure HidReady where
  keyboard : Bool
  mouse : Bool
  gamepad : Bool
  deriving DecidableEq, Repr

/-- The keyboard part of `hid_process`. -/
def hidProcessKeyboard (ready : Bool) (s : HidState Kbd Pad) : HidState Kbd Pad :=
  if s.kbdReportDirty ∧ ready then
    { s with kbdReportDirty := false, kbdSent := s.kbdReport :: s.kbdSent }
  else s

/-- The mouse part of `hid_process`. -/
def hidProcessMouse (ready : Bool) (s : HidState Kbd Pad) : HidState Kbd Pad :=
  if s.mouseReportDirty ∧ ready then
    { s with
      mouseReportDirty := false
      mouseLog := .sent s.mouseReport :: s.mouseLog
      mouseReport := .zero }
  else s

/-- The gamepad part of `hid_process`. -/
def hidProcessGamepad (ready : Bool) (s : HidState Kbd Pad) : HidState Kbd Pad :=
  if s.gamepadReportDirty ∧ ready then
    { s with gamepadReportDirty := false, gamepadSent := s.gamepadReport :: s.gamepadSent }
  else s

/-- `hid_process`. -/
def hidProcess (ready : HidReady) (s : HidState Kbd Pad) : HidState Kbd Pad :=
  hidProcessGamepad ready.gamepad
    (hidProcessMouse ready.mouse (hidProcessKeyboard ready.keyboard s))

/-- The calls of `hid.c`. -/
inductive HidAct (Kbd Pad : Type) where
  | keyboardSetReport (report : Option Kbd)
  | mouseMove (report : MouseReport)
  | gamepadSetReport (report : Option Pad)
  | process (ready : HidReady)

/-- One call. -/
def HidState.step [Zero Kbd] [Zero Pad] (s : HidState Kbd Pad) :
    HidAct Kbd Pad → Option (HidState Kbd Pad)
  | .keyboardSetReport report => some (jdHidKeyboardSetReport report s)
  | .mouseMove report => some (jdHidMouseMove report s)
  | .gamepadSetReport report => some (jdHidGamepadSetReport report s)
  | .process ready => some (hidProcess ready s)

end JdPico
