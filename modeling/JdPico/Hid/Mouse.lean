import JdPico.Lib.Log
import JdPico.Hid.Model

/-!
# What the host is told about the mouse

Between two reports the requests add up in `mouse_report`: movements in signed bytes, buttons by OR.
The host should be told all movement, and in the end the buttons that were last requested.

Movement is lost when the signed byte of an axis overflows, and then even turned around.  In all
other runs each report carries the sum of the requests since the report before it
(`mouse_movement_conserved_iff`).

A button that is pressed and released between two reports is in the report, so that the host sees
it; but the report is zeroed when it was sent and no further report tells the host that the button
was released.  What the host knows is right exactly when no button is released before the report
that tells that it was pressed (`mouse_buttons_told_iff`).

Only the part of the state that belongs to the mouse matters (`MouseState`), and the calls move it
as `MouseState.after` says.
-/

namespace JdPico

open Machine

variable {Kbd Pad : Type}

/-- The part of the state that belongs to the mouse. -/
structure MouseState where
  report : MouseReport
  dirty : Bool
  log : List MouseEvent

/-- The mouse part of a state. -/
def HidState.mouse (s : HidState Kbd Pad) : MouseState :=
  ⟨s.mouseReport, s.mouseReportDirty, s.mouseLog⟩

namespace MouseState

/-- A request is joined to the report. -/
def move (r : MouseReport) (m : MouseState) : MouseState where
  report :=
    { buttons := m.report.buttons ||| r.buttons
      x := m.report.x + r.x
      y := m.report.y + r.y
      wheel := m.report.wheel + r.wheel
      pan := m.report.pan + r.pan }
  dirty := true
  log := .moved r :: m.log

/-- The report is sent and zeroed. -/
def send (m : MouseState) : MouseState := ⟨.zero, false, .sent m.report :: m.log⟩

/-- The mouse part after a call. -/
def after (m : MouseState) : HidAct Kbd Pad → MouseState
  | .mouseMove r => m.move r
  | .process ready => if m.dirty ∧ ready.mouse then m.send else m
  | _ => m

end MouseState

/-- The calls move the mouse part without looking at the rest. -/
lemma HidState.step_mouse [Zero Kbd] [Zero Pad] {s t : HidState Kbd Pad} {a : HidAct Kbd Pad}
    (hst : s.step a = some t) : t.mouse = s.mouse.after a := by
  cases a with
  | keyboardSetReport report => exact Option.some.inj hst ▸ rfl
  | mouseMove report => exact Option.some.inj hst ▸ rfl
  | gamepadSetReport report => exact Option.some.inj hst ▸ rfl
  | process ready =>
    obtain rfl := Option.some.inj hst
    have hkbd : (hidProcessKeyboard ready.keyboard s).mouse = s.mouse := by
      unfold hidProcessKeyboard
      split_ifs <;> rfl
    have hpad : ∀ u : HidState Kbd Pad, (hidProcessGamepad ready.gamepad u).mouse = u.mouse := by
      intro u
      unfold hidProcessGamepad
      split_ifs <;> rfl
    have hmouse : ∀ u : HidState Kbd Pad, (hidProcessMouse ready.mouse u).mouse =
        u.mouse.after (.process ready : HidAct Kbd Pad) := by
      intro u
      by_cases hsend : u.mouseReportDirty = true ∧ ready.mouse = true
      · rw [hidProcessMouse, if_pos hsend]
        exact (if_pos hsend).symm
      · rw [hidProcessMouse, if_neg hsend]
        exact (if_neg hsend).symm
    rw [hidProcess, hpad, hmouse, hkbd]

/-! ### The log -/

/-- The requests in a log, newest first. -/
def moves : List MouseEvent → List MouseReport
  | [] => []
  | .moved r :: log => r :: moves log
  | .sent _ :: log => moves log

/-- The reports in a log, newest first. -/
def sentReports : List MouseEvent → List MouseReport
  | [] => []
  | .moved _ :: log => sentReports log
  | .sent r :: log => r :: sentReports log

/-- The requests since the latest report, newest first. -/
def movesSince : List MouseEvent → List MouseReport
  | [] => []
  | .moved r :: log => r :: movesSince log
  | .sent _ :: _ => []

/-- The latest request is the latest since the latest report, if there is one. -/
lemma moves_head_of_movesSince {log : List MouseEvent} {r : MouseReport} {rs : List MouseReport}
    (h : movesSince log = r :: rs) : (moves log).head? = some r := by
  cases log with
  | nil => simp [movesSince] at h
  | cons e log =>
    cases e with
    | moved q =>
      obtain ⟨rfl, -⟩ := List.cons.inj h
      rfl
    | sent q => simp [movesSince] at h

/-! ### Movement -/

/-- The sum of the movements along an axis, over the integers. -/
def movement (a : MouseAxis) (rs : List MouseReport) : ℤ := (rs.map fun r => (r.axis a).toInt).sum

/-- All movement is in the reports or still to come, and each report has the movement that was
requested since the one before it. -/
structure MouseState.Conserved (m : MouseState) : Prop where
  total : ∀ a, movement a (sentReports m.log) + (m.report.axis a).toInt = movement a (moves m.log)
  sent : ∀ newer older r, m.log = newer ++ .sent r :: older →
    ∀ a, (r.axis a).toInt = movement a (movesSince older)
  pending : ∀ a, (m.report.axis a).toInt = movement a (movesSince m.log)

/-- If the call requests a movement, its sum with what is pending is a signed byte on each axis. -/
def MouseState.Fits (m : MouseState) : HidAct Kbd Pad → Prop
  | .mouseMove r => ∀ a, -128 ≤ (m.report.axis a).toInt + (r.axis a).toInt ∧
      (m.report.axis a).toInt + (r.axis a).toInt ≤ 127
  | _ => True

instance (m : MouseState) : ∀ a : HidAct Kbd Pad, Decidable (m.Fits a)
  | .mouseMove _ => inferInstanceAs (Decidable (∀ _ : MouseAxis, _ ≤ _ ∧ _ ≤ _))
  | .keyboardSetReport _ | .gamepadSetReport _ | .process _ => .isTrue trivial

/-- The sum of two signed bytes is right exactly when it is a signed byte. -/
lemma toInt_add_eq_iff (x y : Int8) :
    (x + y).toInt = x.toInt + y.toInt ↔ -128 ≤ x.toInt + y.toInt ∧ x.toInt + y.toInt ≤ 127 := by
  constructor
  · intro h
    have hlow := Int8.le_toInt (x + y)
    have hhigh := Int8.toInt_lt (x + y)
    omega
  · rintro ⟨hlow, hhigh⟩
    rw [Int8.toInt_add]
    exact Int.bmod_eq_of_le (by omega) (by omega)

lemma MouseState.move_axis (m : MouseState) (r : MouseReport) (a : MouseAxis) :
    ((m.move r).report.axis a) = m.report.axis a + r.axis a := by
  cases a <;> rfl

lemma movement_cons (a : MouseAxis) (r : MouseReport) (rs : List MouseReport) :
    movement a (r :: rs) = (r.axis a).toInt + movement a rs := by
  simp [movement]

namespace MouseState

variable {m : MouseState}

/-- A request keeps the account exactly when it does not overflow. -/
lemma Conserved.move_iff (h : m.Conserved) (r : MouseReport) :
    (m.move r).Conserved ↔ m.Fits (.mouseMove r : HidAct Kbd Pad) := by
  constructor
  · intro hmove a
    rw [← toInt_add_eq_iff, ← move_axis, hmove.pending a]
    rw [h.pending a, add_comm]
    exact movement_cons a r _
  · intro hfits
    have hsum : ∀ a, ((m.move r).report.axis a).toInt =
        (m.report.axis a).toInt + (r.axis a).toInt := by
      intro a
      rw [move_axis]
      exact (toInt_add_eq_iff _ _).mpr (hfits a)
    refine ⟨?_, ?_, ?_⟩
    · intro a
      rw [hsum]
      have := h.total a
      simp only [move, sentReports, moves, movement_cons]
      omega
    · intro newer older q hsplit
      obtain ⟨newer', hsplit⟩ := Log.split_of_ne (by simp) hsplit
      exact h.sent newer' older q hsplit
    · intro a
      rw [hsum, h.pending a, add_comm]
      exact (movement_cons a r _).symm

/-- Sending the report keeps the account. -/
lemma Conserved.send (h : m.Conserved) : m.send.Conserved := by
  have hzero : ∀ a, (m.send.report.axis a).toInt = 0 := by
    intro a
    cases a <;> rfl
  refine ⟨?_, ?_, ?_⟩
  · intro a
    rw [hzero]
    have := h.total a
    simp only [MouseState.send, sentReports, moves, movement_cons]
    omega
  · intro newer older r hsplit
    rcases Log.split_cons hsplit with ⟨hr, hold⟩ | ⟨newer', hsplit⟩
    · obtain rfl := MouseEvent.sent.inj hr
      exact hold ▸ h.pending
    · exact h.sent newer' older r hsplit
  · intro a
    rw [hzero]
    rfl

/-- A call keeps the account exactly when it does not overflow. -/
lemma Conserved.after_iff (h : m.Conserved) (a : HidAct Kbd Pad) :
    (m.after a).Conserved ↔ m.Fits a := by
  cases a with
  | keyboardSetReport report => exact ⟨fun _ => trivial, fun _ => h⟩
  | mouseMove r => exact h.move_iff r
  | gamepadSetReport report => exact ⟨fun _ => trivial, fun _ => h⟩
  | process ready =>
    refine ⟨fun _ => trivial, fun _ => ?_⟩
    dsimp only [after]
    split_ifs
    · exact h.send
    · exact h

end MouseState

/-- **Movement is conserved.**  In a run of calls, the reports and what is pending account for all
requested movement in every state, and each report has the movement requested since the one before
it, if and only if no request overflows the signed byte of an axis. -/
theorem mouse_movement_conserved_iff [Zero Kbd] [Zero Pad] (acts : List (HidAct Kbd Pad))
    (s : HidState Kbd Pad) (hrun : exec HidState.step .initial acts = some s) :
    AllStates HidState.step (fun s => s.mouse.Conserved) .initial acts ↔
      AllSteps HidState.step (fun s a => s.mouse.Fits a) .initial acts := by
  refine allStates_iff_allSteps ?_ ?_ hrun
  · intro s a t hs hst
    rw [HidState.step_mouse hst]
    exact hs.after_iff a
  · refine ⟨?_, ?_, ?_⟩
    · intro a
      cases a <;> rfl
    · intro newer older r hsplit
      exact absurd hsplit (by simp [HidState.mouse, HidState.initial])
    · intro a
      cases a <;> rfl

/-- Movement to the far end of the axis and back between two polls, and some more after that. -/
theorem mouse_movement_conserved_far :
    AllStates (@HidState.step ℕ ℕ _ _) (fun s => s.mouse.Conserved) .initial
      [.mouseMove ⟨0, 100, 0, -1, 0⟩, .mouseMove ⟨1, 27, -128, 0, 3⟩, .mouseMove ⟨0, -127, 0, 0, 0⟩,
        .process ⟨true, true, false⟩, .mouseMove ⟨0, 100, 0, 0, 0⟩] :=
  (mouse_movement_conserved_iff _ _ rfl).mpr (by decide)

/-- Two movements to the right between two polls overflow, and the host is told to go left. -/
theorem mouse_movement_not_conserved :
    ¬AllStates (@HidState.step ℕ ℕ _ _) (fun s => s.mouse.Conserved) .initial
      [.mouseMove ⟨0, 100, 0, 0, 0⟩, .mouseMove ⟨0, 100, 0, 0, 0⟩,
        .process ⟨true, true, true⟩] := by
  intro h
  have hlast := ((h.2 _ rfl).2 _ rfl).2 _ rfl
  exact absurd (hlast.total .x) (by decide)

/-! ### Buttons -/

/-- The host is told about the buttons. -/
structure MouseState.ButtonsTold (m : MouseState) : Prop where
  /-- The buttons of a request are in a report that was sent after it, or in the one that is still
  to be sent. -/
  seen : ∀ newer older r, m.log = newer ++ .moved r :: older →
    (∃ p ∈ sentReports newer, p.Includes r) ∨ m.dirty = true ∧ m.report.Includes r
  /-- When no report is to be sent, the buttons of the latest report are those of the latest
  request. -/
  settled : m.dirty = false → ∀ r, (moves m.log).head? = some r →
    ∃ p, (sentReports m.log).head? = some p ∧ p.buttons = r.buttons

/-- The buttons of all requests, given newest first, are pressed in the latest. -/
def StillPressed : List MouseReport → Prop
  | [] => True
  | r :: rs => ∀ q ∈ rs, r.Includes q

instance : ∀ rs, Decidable (StillPressed rs)
  | [] => .isTrue trivial
  | r :: rs => inferInstanceAs (Decidable (∀ q ∈ rs, r.Includes q))

/-- If the call sends the report of the mouse, the buttons of all requests since the latest report
are still pressed in the latest request. -/
def MouseState.Held (m : MouseState) : HidAct Kbd Pad → Prop
  | .process ready => m.dirty = true → ready.mouse = true → StillPressed (movesSince m.log)
  | _ => True

instance (m : MouseState) : ∀ a : HidAct Kbd Pad, Decidable (m.Held a)
  | .process ready =>
    inferInstanceAs
      (Decidable (m.dirty = true → ready.mouse = true → StillPressed (movesSince m.log)))
  | .keyboardSetReport _ | .mouseMove _ | .gamepadSetReport _ => .isTrue trivial

/-- The buttons of all requests of a list. -/
def joinedButtons : List MouseReport → UInt8
  | [] => 0
  | r :: rs => joinedButtons rs ||| r.buttons

/-- The buttons of two requests are among those of a third exactly when they are so joined. -/
lemma or_or_eq_iff (a b c : UInt8) : (a ||| b) ||| c = c ↔ a ||| c = c ∧ b ||| c = c := by
  constructor
  · intro h
    constructor
    · rw [← h, ← UInt8.or_assoc, ← UInt8.or_assoc, UInt8.or_self]
    · rw [← h, ← UInt8.or_assoc, UInt8.or_comm a b, ← UInt8.or_assoc, UInt8.or_self]
  · rintro ⟨ha, hb⟩
    rw [UInt8.or_assoc, hb, ha]

lemma joinedButtons_or_eq_iff (rs : List MouseReport) (p : MouseReport) :
    joinedButtons rs ||| p.buttons = p.buttons ↔ ∀ q ∈ rs, p.Includes q := by
  induction rs with
  | nil => simp [joinedButtons]
  | cons r rs ih =>
    rw [joinedButtons, or_or_eq_iff, ih, List.forall_mem_cons]
    exact and_comm

namespace MouseState

/-- The report holds the buttons of the requests since the latest report, and is to be sent if there
are any. -/
structure Inv (m : MouseState) : Prop where
  dirty : m.dirty = true ↔ movesSince m.log ≠ []
  buttons : m.report.buttons = joinedButtons (movesSince m.log)
  seen : ∀ newer older r, m.log = newer ++ .moved r :: older →
    (∃ p ∈ sentReports newer, p.Includes r) ∨ m.dirty = true ∧ m.report.Includes r

lemma inv_initial : (⟨.zero, false, []⟩ : MouseState).Inv :=
  ⟨by simp [movesSince], rfl, by simp⟩

variable {m : MouseState}

/-- The buttons of a request are in the report it is joined to. -/
lemma move_includes (m : MouseState) (r : MouseReport) : (m.move r).report.Includes r := by
  show r.buttons ||| (m.report.buttons ||| r.buttons) = m.report.buttons ||| r.buttons
  rw [UInt8.or_comm, UInt8.or_assoc, UInt8.or_self]

/-- The buttons that are in the report stay there. -/
lemma move_includes_of_includes {q : MouseReport} (h : m.report.Includes q) (r : MouseReport) :
    (m.move r).report.Includes q := by
  show q.buttons ||| (m.report.buttons ||| r.buttons) = m.report.buttons ||| r.buttons
  rw [← UInt8.or_assoc, h]

lemma Inv.move (h : m.Inv) (r : MouseReport) : (m.move r).Inv where
  dirty := by simp [MouseState.move, movesSince]
  buttons := by
    rw [MouseState.move, h.buttons]
    rfl
  seen newer older q hsplit := by
    cases newer with
    | nil =>
      obtain ⟨hq, -⟩ := List.cons.inj hsplit
      obtain rfl := MouseEvent.moved.inj hq
      exact .inr ⟨rfl, m.move_includes r⟩
    | cons e newer =>
      obtain ⟨rfl, hrest⟩ := List.cons.inj hsplit
      rcases h.seen newer older q hrest with hseen | ⟨-, hin⟩
      · exact .inl hseen
      · exact .inr ⟨rfl, move_includes_of_includes hin r⟩

lemma Inv.send (h : m.Inv) : m.send.Inv where
  dirty := by simp [MouseState.send, movesSince]
  buttons := rfl
  seen newer older q hsplit := by
    cases newer with
    | nil => exact absurd (List.cons.inj hsplit).1 (by simp)
    | cons e newer =>
      obtain ⟨rfl, hrest⟩ := List.cons.inj hsplit
      refine .inl ?_
      rcases h.seen newer older q hrest with ⟨p, hp, hin⟩ | ⟨-, hin⟩
      · exact ⟨p, List.mem_cons_of_mem _ hp, hin⟩
      · exact ⟨m.report, List.mem_cons_self, hin⟩

lemma Inv.after (h : m.Inv) (a : HidAct Kbd Pad) : (m.after a).Inv := by
  cases a with
  | keyboardSetReport report => exact h
  | mouseMove r => exact h.move r
  | gamepadSetReport report => exact h
  | process ready =>
    dsimp only [MouseState.after]
    split_ifs
    · exact h.send
    · exact h

/-- Sending the report settles the buttons exactly when all are still pressed. -/
lemma Inv.send_buttonsTold_iff (h : m.Inv) {r : MouseReport} {rs : List MouseReport}
    (hsince : movesSince m.log = r :: rs) :
    m.send.ButtonsTold ↔ ∀ q ∈ rs, r.Includes q := by
  have hlatest : (moves m.log).head? = some r := moves_head_of_movesSince hsince
  have hjoined : m.report.buttons = r.buttons ↔ ∀ q ∈ rs, r.Includes q := by
    rw [h.buttons, hsince]
    exact joinedButtons_or_eq_iff rs r
  rw [← hjoined]
  constructor
  · intro htold
    obtain ⟨p, hp, hbuttons⟩ := htold.settled rfl r hlatest
    obtain rfl := Option.some.inj hp
    exact hbuttons
  · intro hbuttons
    refine ⟨h.send.seen, ?_⟩
    intro _ q hq
    obtain rfl := Option.some.inj (hlatest.symm.trans hq)
    exact ⟨m.report, rfl, hbuttons⟩

/-- A call keeps the host informed exactly when it does not send a button that was released. -/
lemma ButtonsTold.after_iff (h : m.ButtonsTold) (hI : m.Inv) (a : HidAct Kbd Pad) :
    (m.after a).ButtonsTold ↔ m.Held a := by
  cases a with
  | keyboardSetReport report => exact ⟨fun _ => trivial, fun _ => h⟩
  | mouseMove r =>
    refine ⟨fun _ => trivial, fun _ => ⟨(hI.move r).seen, ?_⟩⟩
    intro hclean
    exact absurd hclean (by simp [MouseState.after, MouseState.move])
  | gamepadSetReport report => exact ⟨fun _ => trivial, fun _ => h⟩
  | process ready =>
    dsimp only [MouseState.after, Held]
    by_cases hsend : m.dirty = true ∧ ready.mouse = true
    · rw [if_pos hsend]
      simp only [hsend.1, hsend.2, forall_const]
      cases hsince : movesSince m.log with
      | nil => exact absurd hsince (hI.dirty.mp hsend.1)
      | cons r rs => exact hI.send_buttonsTold_iff hsince
    · rw [if_neg hsend]
      exact ⟨fun _ hdirty hready => absurd ⟨hdirty, hready⟩ hsend, fun _ => h⟩

end MouseState

/-- **The buttons of the mouse.**  In a run of calls, every button that was requested is or will be
seen by the host and the latest report has the buttons of the latest request whenever no report is
to be sent, in every state, if and only if each report is sent while all buttons requested since the
one before it are still pressed. -/
theorem mouse_buttons_told_iff [Zero Kbd] [Zero Pad] (acts : List (HidAct Kbd Pad))
    (s : HidState Kbd Pad) (hrun : exec HidState.step .initial acts = some s) :
    AllStates HidState.step (fun s => s.mouse.ButtonsTold) .initial acts ↔
      AllSteps HidState.step (fun s a => s.mouse.Held a) .initial acts := by
  refine allStates_iff_allSteps_of_inv (I := fun s => s.mouse.Inv) ?_ ?_ MouseState.inv_initial
    ⟨MouseState.inv_initial.seen, fun _ r hr => absurd hr (by simp [HidState.mouse,
      HidState.initial, moves])⟩ hrun
  · intro s a t hI hst
    rw [HidState.step_mouse hst]
    exact hI.after a
  · intro s a t hI hs hst
    rw [HidState.step_mouse hst]
    exact hs.after_iff hI a

/-- A click that is reported press by press: one report for the press, one for the release. -/
theorem mouse_buttons_told_click :
    AllStates (@HidState.step ℕ ℕ _ _) (fun s => s.mouse.ButtonsTold) .initial
      [.mouseMove ⟨1, 0, 0, 0, 0⟩, .mouseMove ⟨3, 5, 0, 0, 0⟩, .process ⟨true, true, false⟩,
        .mouseMove ⟨0, 0, 0, 0, 0⟩, .process ⟨false, false, false⟩, .process ⟨true, true, true⟩] :=
  (mouse_buttons_told_iff _ _ rfl).mpr (by decide)

/-- A click between two polls: the host is never told that the button was released. -/
theorem mouse_button_stuck :
    ¬AllStates (@HidState.step ℕ ℕ _ _) (fun s => s.mouse.ButtonsTold) .initial
      [.mouseMove ⟨1, 0, 0, 0, 0⟩, .mouseMove ⟨0, 0, 0, 0, 0⟩, .process ⟨true, true, true⟩] := by
  intro h
  have hlast := ((h.2 _ rfl).2 _ rfl).2 _ rfl
  obtain ⟨p, hp, hbuttons⟩ := hlast.settled rfl ⟨0, 0, 0, 0, 0⟩ rfl
  obtain rfl := Option.some.inj hp
  exact absurd hbuttons (by decide)

end JdPico
