import JdPico.Timer.Model

/-!
# Lost timer callbacks

Outside of the handler, the callback of the latest `tim_set_timer` should have been invoked or be
stored with its due time, and no callback should be invoked that a later `tim_set_timer` superseded.
The handler does not guarantee this: it gives up the interrupt mask before it clears `timer_cb`, so
a `tim_set_timer` in between is overwritten.  We show that both properties hold in every run in
which no `tim_set_timer` falls between the end of the masked section and the call of the callback,
and in which the handler finds the alarm still ahead whenever one fell between its read of
`timer_cb` and the mask (`timer_not_lost`).
-/

namespace JdPico

open Machine

variable {Cb : Type}

/-- The callback and the due time of the latest `tim_set_timer`. -/
def latestSet : List (TimEvent Cb) → Option (Option Cb × UInt32)
  | [] => none
  | .set cb due :: _ => some (cb, due)
  | .invoke _ :: log => latestSet log

/-- The callback `f` was invoked after the latest `tim_set_timer`. -/
def InvokedSince (f : Cb) : List (TimEvent Cb) → Prop
  | [] => False
  | .set _ _ :: _ => False
  | .invoke g :: log => g = f ∨ InvokedSince f log

/-- Every invoked callback was that of the latest `tim_set_timer` at the time. -/
def NoneSuperseded : List (TimEvent Cb) → Prop
  | [] => True
  | .set _ _ :: log => NoneSuperseded log
  | .invoke f :: log => (∃ due, latestSet log = some (some f, due)) ∧ NoneSuperseded log

/-- The callback of the latest `tim_set_timer` was invoked, or is stored with its due time. -/
def TimState.Kept (s : TimState Cb) : Prop :=
  ∀ f due, latestSet s.log = some (some f, due) →
    InvokedSince f s.log ∨ s.timerCb = some f ∧ s.alarm = due

/-- No callback is lost and none is invoked after it was superseded. -/
def TimState.NoLoss (s : TimState Cb) : Prop :=
  (s.pc = .out → s.Kept) ∧ NoneSuperseded s.log

/-- The step does not run into the window of the handler: no `tim_set_timer` comes after the masked
section and before the call, and when the handler looks at the alarm, either `timer_cb` still is the
callback it read or the alarm is ahead. -/
def TimState.OutsideWindow (s : TimState Cb) : TimAction Cb → Prop
  | .setTimer _ _ _ =>
    match s.pc with
    | .unlocked _ => False
    | .cleared _ => False
    | _ => True
  | .handler =>
    match s.pc with
    | .locked f => s.timerCb = some f ∨ timAhead s.alarm (UInt32.ofNat s.time) = true
    | _ => True
  | _ => True

instance [DecidableEq Cb] : ∀ (s : TimState Cb) (a : TimAction Cb), Decidable (s.OutsideWindow a)
  | ⟨_, _, _, .unlocked _, _⟩, .setTimer _ _ _ => .isFalse id
  | ⟨_, _, _, .cleared _, _⟩, .setTimer _ _ _ => .isFalse id
  | ⟨_, _, _, .out, _⟩, .setTimer _ _ _ | ⟨_, _, _, .entry, _⟩, .setTimer _ _ _
  | ⟨_, _, _, .loaded _, _⟩, .setTimer _ _ _ | ⟨_, _, _, .locked _, _⟩, .setTimer _ _ _
  | ⟨_, _, _, .calling _, _⟩, .setTimer _ _ _ => .isTrue trivial
  | ⟨time, timerCb, alarm, .locked f, _⟩, .handler =>
    inferInstanceAs (Decidable (timerCb = some f ∨ timAhead alarm (UInt32.ofNat time) = true))
  | ⟨_, _, _, .out, _⟩, .handler | ⟨_, _, _, .entry, _⟩, .handler
  | ⟨_, _, _, .loaded _, _⟩, .handler | ⟨_, _, _, .unlocked _, _⟩, .handler
  | ⟨_, _, _, .cleared _, _⟩, .handler | ⟨_, _, _, .calling _, _⟩, .handler => .isTrue trivial
  | _, .tick _ => .isTrue trivial
  | _, .enter => .isTrue trivial

/-- The invariant of the runs that stay outside of the window.  While the handler is committed to
its callback `f`, it is the callback of the latest `tim_set_timer`. -/
structure TimState.Inv (s : TimState Cb) : Prop where
  superseded : NoneSuperseded s.log
  stored : ∀ f, s.timerCb = some f → ∃ due, latestSet s.log = some (some f, due)
  kept : (∀ f, s.pc ≠ .cleared f) → s.Kept
  unlocked : ∀ f, s.pc = .unlocked f → s.timerCb = some f
  cleared : ∀ f, s.pc = .cleared f → ∃ due, latestSet s.log = some (some f, due)

lemma TimState.inv_initial : (initial : TimState Cb).Inv :=
  ⟨trivial, by simp [initial], fun _ _ _ h => by simp [initial, latestSet] at h, by simp [initial],
    by simp [initial]⟩

/-- A `tim_set_timer` outside of the window keeps the invariant: its callback is the latest. -/
lemma TimState.Inv.setTimer {s : TimState Cb} (h : s.Inv) (delay : ℤ) (cb : Option Cb)
    (hun : ∀ f, s.pc ≠ .unlocked f) (hcl : ∀ f, s.pc ≠ .cleared f) :
    (timSetTimer s delay cb).Inv where
  superseded := h.superseded
  stored f hf := ⟨timDue s.time delay, by simpa [timSetTimer, latestSet] using hf⟩
  kept _ f due hlatest := by
    simp only [timSetTimer, latestSet, Option.some.injEq, Prod.mk.injEq] at hlatest
    exact .inr ⟨hlatest.1, hlatest.2⟩
  unlocked f hf := absurd hf (hun f)
  cleared f hf := absurd hf (hcl f)

/-- The time may pass. -/
lemma TimState.Inv.tick {s : TimState Cb} (h : s.Inv) (us : ℕ) :
    ({ s with time := s.time + us } : TimState Cb).Inv :=
  ⟨h.superseded, h.stored, h.kept, h.unlocked, h.cleared⟩

/-- The handler may move between steps at which it is not committed. -/
lemma TimState.Inv.move {s : TimState Cb} (h : s.Inv) {pc : TimPc Cb}
    (hfrom : ∀ f, s.pc ≠ .cleared f) (hun : ∀ f, pc = .unlocked f → s.timerCb = some f)
    (hto : ∀ f, pc ≠ .cleared f) : ({ s with pc := pc } : TimState Cb).Inv :=
  ⟨h.superseded, h.stored, fun _ => h.kept hfrom, hun, fun f hf => absurd hf (hto f)⟩

/-- Clearing `timer_cb` commits the handler to its callback, which is still the latest. -/
lemma TimState.Inv.clear {s : TimState Cb} (h : s.Inv) {f : Cb} (hpc : s.pc = .unlocked f) :
    ({ s with timerCb := none, pc := .cleared f } : TimState Cb).Inv where
  superseded := h.superseded
  stored g hg := nomatch hg
  kept hne := absurd rfl (hne f)
  unlocked g hg := nomatch hg
  cleared g hg := by
    obtain rfl : f = g := TimPc.cleared.inj hg
    exact h.stored f (h.unlocked f hpc)

/-- The call invokes the latest callback. -/
lemma TimState.Inv.call {s : TimState Cb} (h : s.Inv) {f : Cb} (hpc : s.pc = .cleared f) :
    ({ s with pc := .calling f, log := .invoke f :: s.log } : TimState Cb).Inv where
  superseded := ⟨h.cleared f hpc, h.superseded⟩
  stored g hg := h.stored g hg
  kept _ g due hlatest := by
    obtain ⟨due', hdue'⟩ := h.cleared f hpc
    simp only [latestSet, hdue', Option.some.injEq, Prod.mk.injEq] at hlatest
    exact .inl (.inl hlatest.1)
  unlocked g hg := nomatch hg
  cleared g hg := nomatch hg

/-- A step of the handler outside of the window keeps the invariant. -/
lemma TimState.Inv.handler {s t : TimState Cb} (h : s.Inv) (hwin : s.OutsideWindow .handler)
    (ht : timHandler s = some t) : t.Inv := by
  simp only [timHandler] at ht
  simp only [OutsideWindow] at hwin
  cases hpc : s.pc with
  | out => simp [hpc] at ht
  | entry =>
    simp only [hpc] at ht
    split at ht
    · exact Option.some.inj ht ▸ h.move (by simp [hpc]) (by simp) (by simp)
    · exact Option.some.inj ht ▸ h.move (by simp [hpc]) (by simp) (by simp)
  | loaded f =>
    simp only [hpc, Option.some.injEq] at ht
    exact ht ▸ h.move (by simp [hpc]) (by simp) (by simp)
  | locked f =>
    simp only [hpc] at ht hwin
    split_ifs at ht with hahead
    · exact Option.some.inj ht ▸ h.move (by simp [hpc]) (by simp) (by simp)
    · have hcb : s.timerCb = some f := hwin.resolve_right hahead
      refine Option.some.inj ht ▸ h.move (by simp [hpc]) ?_ (by simp)
      intro g hg
      rw [hcb, TimPc.unlocked.inj hg]
  | unlocked f =>
    simp only [hpc, Option.some.injEq] at ht
    exact ht ▸ h.clear hpc
  | cleared f =>
    simp only [hpc, Option.some.injEq] at ht
    exact ht ▸ h.call hpc
  | calling f =>
    simp only [hpc, Option.some.injEq] at ht
    exact ht ▸ h.move (by simp [hpc]) (by simp) (by simp)

/-- Every step outside of the window keeps the invariant. -/
lemma TimState.step_inv (minMaxSleep : ℤ) (s : TimState Cb) (a : TimAction Cb) (t : TimState Cb)
    (h : s.Inv) (hwin : s.OutsideWindow a) (ht : s.step minMaxSleep a = some t) : t.Inv := by
  cases a with
  | tick us => exact Option.some.inj ht ▸ h.tick us
  | setTimer delta maxSleep cb =>
    simp only [step] at ht
    split_ifs at ht
    refine Option.some.inj ht ▸ h.setTimer _ cb ?_ ?_
    · intro f hf
      simp [OutsideWindow, hf] at hwin
    · intro f hf
      simp [OutsideWindow, hf] at hwin
  | enter =>
    simp only [step] at ht
    cases hpc : s.pc <;> simp only [hpc, reduceCtorEq, Option.some.injEq] at ht
    exact ht ▸ h.move (by simp [hpc]) (by simp) (by simp)
  | handler => exact h.handler hwin ht

/-- **No callback is lost outside of the window.**  In every run whose steps all stay outside of the
window of the handler, no callback is lost and no superseded callback is invoked. -/
theorem timer_not_lost (minMaxSleep : ℤ) (as : List (TimAction Cb)) (s : TimState Cb)
    (hrun : exec (TimState.step minMaxSleep) .initial as = some s)
    (hwin : AllSteps (TimState.step minMaxSleep) TimState.OutsideWindow .initial as) :
    s.NoLoss := by
  have h := exec_inv_of_allSteps (TimState.step_inv minMaxSleep) TimState.inv_initial hwin hrun
  exact ⟨fun hpc => h.kept (by simp [hpc]), h.superseded⟩

/-- A callback that comes due and sets the next timer while it runs: nothing is lost. -/
theorem timer_not_lost_rearm :
    ∃ s, exec (TimState.step 10000) .initial
        [.setTimer 100 0 (some 1), .tick 100, .enter, .handler, .handler, .handler, .handler,
          .handler, .setTimer 50 0 (some 2), .handler] = some s ∧ s.NoLoss ∧
      s.timerCb = some 2 := by
  have hrun : exec (TimState.step 10000) .initial
      [.setTimer 100 0 (some 1), .tick 100, .enter, .handler, .handler, .handler, .handler,
        .handler, .setTimer 50 0 (some 2), .handler] =
      some ⟨100, some 2, 150, .out, [.set (some 2) 150, .invoke 1, .set (some 1) 100]⟩ := by decide
  exact ⟨_, hrun, timer_not_lost 10000 _ _ hrun (by decide), rfl⟩

/-- An interrupt that sets a timer right after the masked section: its callback `2` is cleared with
the one the handler read, and the superseded callback `1` is invoked instead. -/
theorem timer_lost_in_window :
    ∃ s, exec (TimState.step 10000) .initial
        [.setTimer 100 0 (some 1), .tick 100, .enter, .handler, .handler, .handler,
          .setTimer 50 0 (some 2), .handler, .handler, .handler] = some s ∧
      s.pc = .out ∧ s.timerCb = none ∧ ¬s.Kept ∧ ¬NoneSuperseded s.log := by
  refine ⟨⟨100, none, 150, .out, [.invoke 1, .set (some 2) 150, .set (some 1) 100]⟩, by decide, rfl,
    rfl, ?_, ?_⟩
  · intro hkept
    rcases hkept 2 150 rfl with h | h
    · simp [InvokedSince] at h
    · exact nomatch h.1
  · intro hsup
    obtain ⟨due, hdue⟩ := hsup.1
    simp [latestSet] at hdue

end JdPico
