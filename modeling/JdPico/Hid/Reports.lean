import JdPico.Hid.Model
import JdPico.Lib.Mailbox

/-!
# The reports of the keyboard and of the gamepad

Each of the two devices has a report that is replaced as a whole and a flag that says that it is to
be sent.  Together they are a mailbox: `jd_hid_keyboard_set_report` and `jd_hid_gamepad_set_report`
put a report into it, and `hid_process` takes it out and sends it when the interface is ready.  A
report that is replaced before the interface is ready is never sent.  The reports of one device do
not touch those of another.
-/

namespace JdPico

open Machine

variable {Kbd Pad : Type}

namespace HidState

variable {s : HidState Kbd Pad} {puts : List Kbd} {pads : List Pad}

/-- The keyboard is a mailbox for reports. -/
def KbdDelivers (puts : List Kbd) (s : HidState Kbd Pad) : Prop :=
  Mailbox.Delivers puts s.kbdSent.reverse s.kbdReport s.kbdReportDirty

/-- So is the gamepad. -/
def GamepadDelivers (pads : List Pad) (s : HidState Kbd Pad) : Prop :=
  Mailbox.Delivers pads s.gamepadSent.reverse s.gamepadReport s.gamepadReportDirty

lemma KbdDelivers.hidProcessKeyboard (h : s.KbdDelivers puts) (ready : Bool) :
    (hidProcessKeyboard ready s).KbdDelivers puts := by
  rw [JdPico.hidProcessKeyboard]
  split_ifs with hsend
  · rw [KbdDelivers, hsend.1] at h
    simpa [KbdDelivers] using h.take
  · exact h

lemma GamepadDelivers.hidProcessGamepad (h : s.GamepadDelivers pads) (ready : Bool) :
    (hidProcessGamepad ready s).GamepadDelivers pads := by
  rw [JdPico.hidProcessGamepad]
  split_ifs with hsend
  · rw [GamepadDelivers, hsend.1] at h
    simpa [GamepadDelivers] using h.take
  · exact h

/-- The other parts of `hid_process` do not touch the keyboard, -/
lemma KbdDelivers.hidProcess (h : s.KbdDelivers puts) (ready : HidReady) :
    (hidProcess ready s).KbdDelivers puts := by
  have hkbd := h.hidProcessKeyboard ready.keyboard
  rw [JdPico.hidProcess, JdPico.hidProcessGamepad, JdPico.hidProcessMouse]
  split_ifs <;> exact hkbd

/-- or the gamepad. -/
lemma GamepadDelivers.hidProcess (h : s.GamepadDelivers pads) (ready : HidReady) :
    (hidProcess ready s).GamepadDelivers pads := by
  rw [JdPico.hidProcess]
  refine GamepadDelivers.hidProcessGamepad ?_ ready.gamepad
  rw [JdPico.hidProcessMouse, JdPico.hidProcessKeyboard]
  split_ifs <;> exact h

/-- A report for an interface that is ready does not wait any longer. -/
lemma kbdReportDirty_hidProcess {ready : HidReady} (hready : ready.keyboard = true) :
    (hidProcess ready s).kbdReportDirty = false := by
  rw [JdPico.hidProcess, JdPico.hidProcessGamepad, JdPico.hidProcessMouse]
  have hkbd : (hidProcessKeyboard ready.keyboard s).kbdReportDirty = false := by
    cases hdirty : s.kbdReportDirty <;> simp [hidProcessKeyboard, hdirty, hready]
  split_ifs <;> exact hkbd

lemma gamepadReportDirty_hidProcess {ready : HidReady} (hready : ready.gamepad = true) :
    (hidProcess ready s).gamepadReportDirty = false := by
  rw [JdPico.hidProcess]
  generalize hidProcessMouse ready.mouse _ = t
  cases hdirty : t.gamepadReportDirty <;> simp [hidProcessGamepad, hdirty, hready]

end HidState

/-! ### Runs -/

/-- The keyboard report that a call sets; a null pointer stands for no keys. -/
def HidAct.kbdReport [Zero Kbd] : HidAct Kbd Pad → Option Kbd
  | .keyboardSetReport report => some (report.getD 0)
  | _ => none

/-- The gamepad report that a call sets; a null pointer stands for the rest position. -/
def HidAct.gamepadReport [Zero Pad] : HidAct Kbd Pad → Option Pad
  | .gamepadSetReport report => some (report.getD 0)
  | _ => none

/-- The keyboard reports that were set, the oldest first. -/
def kbdReportsSet [Zero Kbd] (acts : List (HidAct Kbd Pad)) : List Kbd :=
  acts.filterMap HidAct.kbdReport

/-- The gamepad reports that were set, the oldest first. -/
def gamepadReportsSet [Zero Pad] (acts : List (HidAct Kbd Pad)) : List Pad :=
  acts.filterMap HidAct.gamepadReport

@[simp] lemma kbdReportsSet_concat [Zero Kbd] (acts : List (HidAct Kbd Pad))
    (a : HidAct Kbd Pad) :
    kbdReportsSet (acts ++ [a]) = kbdReportsSet acts ++ a.kbdReport.toList := by
  rw [kbdReportsSet, List.filterMap_append]
  cases h : a.kbdReport <;> simp [kbdReportsSet, h]

@[simp] lemma gamepadReportsSet_concat [Zero Pad] (acts : List (HidAct Kbd Pad))
    (a : HidAct Kbd Pad) :
    gamepadReportsSet (acts ++ [a]) = gamepadReportsSet acts ++ a.gamepadReport.toList := by
  rw [gamepadReportsSet, List.filterMap_append]
  cases h : a.gamepadReport <;> simp [gamepadReportsSet, h]

variable [Zero Kbd] [Zero Pad]

/-- Both mailboxes, after the given calls. -/
structure HidState.Reports (acts : List (HidAct Kbd Pad)) (s : HidState Kbd Pad) : Prop where
  kbd : s.KbdDelivers (kbdReportsSet acts)
  gamepad : s.GamepadDelivers (gamepadReportsSet acts)

lemma HidState.reports_initial : (initial : HidState Kbd Pad).Reports [] :=
  ⟨.initial 0, .initial 0⟩

/-- Every call keeps the mailboxes. -/
lemma HidState.Reports.step {acts : List (HidAct Kbd Pad)} {s t : HidState Kbd Pad}
    {a : HidAct Kbd Pad} (h : s.Reports acts) (hst : s.step a = some t) :
    t.Reports (acts ++ [a]) := by
  obtain ⟨hkbd, hpad⟩ := h
  cases a with
  | keyboardSetReport report =>
    obtain rfl := Option.some.inj hst
    refine ⟨?_, ?_⟩ <;> simp only [kbdReportsSet_concat, gamepadReportsSet_concat]
    · exact Mailbox.Delivers.put hkbd (report.getD 0)
    · exact (List.append_nil _).symm ▸ hpad
  | mouseMove report =>
    obtain rfl := Option.some.inj hst
    refine ⟨?_, ?_⟩ <;> simp only [kbdReportsSet_concat, gamepadReportsSet_concat]
    · exact (List.append_nil _).symm ▸ hkbd
    · exact (List.append_nil _).symm ▸ hpad
  | gamepadSetReport report =>
    obtain rfl := Option.some.inj hst
    refine ⟨?_, ?_⟩ <;> simp only [kbdReportsSet_concat, gamepadReportsSet_concat]
    · exact (List.append_nil _).symm ▸ hkbd
    · exact Mailbox.Delivers.put hpad (report.getD 0)
  | process ready =>
    obtain rfl := Option.some.inj hst
    refine ⟨?_, ?_⟩ <;> simp only [kbdReportsSet_concat, gamepadReportsSet_concat]
    · exact (List.append_nil _).symm ▸ hkbd.hidProcess ready
    · exact (List.append_nil _).symm ▸ hpad.hidProcess ready

/-- **The latest report counts.**  For every sequence of calls, of keyboard, mouse and gamepad in
any order: the reports sent are among those set for the device, in the same order and each at most
once; the latest one was sent or waits to be sent; and if the interface is ready `hid_process`
leaves it as the last one sent. -/
theorem hid_reports_delivered (acts : List (HidAct Kbd Pad)) (s : HidState Kbd Pad)
    (hrun : exec HidState.step .initial acts = some s) :
    Mailbox.Delivers (kbdReportsSet acts) s.kbdSent.reverse s.kbdReport s.kbdReportDirty ∧
    Mailbox.Delivers (gamepadReportsSet acts) s.gamepadSent.reverse s.gamepadReport
      s.gamepadReportDirty ∧
    ∀ ready : HidReady,
      (ready.keyboard = true →
        (hidProcess ready s).kbdSent.head? = (kbdReportsSet acts).getLast?) ∧
      (ready.gamepad = true →
        (hidProcess ready s).gamepadSent.head? = (gamepadReportsSet acts).getLast?) := by
  have h : s.Reports acts :=
    exec_history (fun _ _ _ _ h hst => h.step hst) HidState.reports_initial hrun
  refine ⟨h.kbd, h.gamepad, fun ready => ⟨fun hready => ?_, fun hready => ?_⟩⟩
  · rw [← List.getLast?_reverse]
    exact (h.kbd.hidProcess ready).clean (HidState.kbdReportDirty_hidProcess hready)
  · rw [← List.getLast?_reverse]
    exact (h.gamepad.hidProcess ready).clean (HidState.gamepadReportDirty_hidProcess hready)

/-- A key is pressed and released before the interface is ready, then another one is pressed. -/
def quickKeys : List (HidAct ℕ ℕ) :=
  [.keyboardSetReport (some 4), .process ⟨false, true, true⟩, .keyboardSetReport none,
    .process ⟨true, false, false⟩, .keyboardSetReport (some 5)]

/-- The first key is not seen, and the second one waits. -/
theorem hid_reports_delivered_quick_keys :
    ∃ s, exec HidState.step .initial quickKeys = some s ∧
      Mailbox.Delivers [4, 0, 5] s.kbdSent.reverse s.kbdReport s.kbdReportDirty ∧
      s.kbdSent = [0] ∧ s.kbdReportDirty = true := by
  have hrun : (exec HidState.step .initial quickKeys).map
      (fun s => (s.kbdSent, s.kbdReportDirty)) = some ([0], true) := by decide
  obtain ⟨s, hs, heq⟩ := Option.map_eq_some_iff.mp hrun
  obtain ⟨hsent, hdirty⟩ := Prod.mk.inj heq
  exact ⟨s, hs, (hid_reports_delivered quickKeys s hs).1, hsent, hdirty⟩

end JdPico
