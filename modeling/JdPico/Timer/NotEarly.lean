import JdPico.Lib.Log
import JdPico.Timer.Model

/-!
# Timers are not early

Here `tim_set_timer` and `tim_handler` are single steps.  The alarm interrupt may be taken at any
time, due or not, so a callback is only kept from being early by the test of the handler: a
difference of two 32-bit times, shifted so that it tells the alarms that are up to `2 ^ 29`
microseconds ahead from all others.  With delays that are no longer than that, an alarm that is five
or more microseconds ahead is found to be ahead wherever the two times are with respect to the wrap
of the 32-bit counter (`timAhead_timDue`).

A run keeps the times and the delays of its `tim_set_timer` calls and the times of the invocations
(`TimCall`); the driver does not see them.
-/

namespace JdPico

open Machine

variable {Cb : Type}

/-- What happened at which time. -/
inductive TimCall (Cb : Type) where
  /-- `tim_set_timer` installed `cb`, to be called `delay` microseconds later. -/
  | set (time : ℕ) (delay : ℤ) (cb : Option Cb)
  /-- The handler called `f`. -/
  | invoke (time : ℕ) (f : Cb)
  deriving DecidableEq, Repr

/-- A run of the timer driver. -/
structure TimRun (Cb : Type) where
  tim : TimState Cb
  /-- The values written to the alarm register, newest first; a write arms the alarm. -/
  alarmWrites : List UInt32
  /-- What happened so far, newest first. -/
  calls : List (TimCall Cb)
  deriving DecidableEq, Repr

/-- The steps of a run. -/
inductive TimCallAct (Cb : Type) where
  /-- Time passes. -/
  | tick (us : ℕ)
  /-- `tim_set_timer(delta, cb)`; `maxSleep` is the value of `jd_max_sleep`. -/
  | setTimer (delta maxSleep : ℤ) (cb : Option Cb)
  /-- `tim_handler`, because of the alarm or not. -/
  | handler

/-- `tim_handler` from its entry to the call of the callback, if it comes to that. -/
def timHandlerCall (s : TimState Cb) : TimState Cb :=
  match s.timerCb with
  | none => s
  | some f =>
    let tal := s.alarm
    if timAhead tal (UInt32.ofNat s.time) then { s with alarm := tal }
    else { s with timerCb := none, log := .invoke f :: s.log }

/-- The handler is that of the model, run without a break. -/
lemma exec_timHandlerCall (minMaxSleep : ℤ) {s : TimState Cb} (hpc : s.pc = .out) :
    ∃ n, exec (TimState.step minMaxSleep) s (.enter :: List.replicate n .handler) =
      some (timHandlerCall s) := by
  obtain ⟨time, timerCb, alarm, pc, log⟩ := s
  obtain rfl : pc = .out := hpc
  cases timerCb with
  | none => exact ⟨1, rfl⟩
  | some f =>
    by_cases hahead : timAhead alarm (UInt32.ofNat time) = true
    · exact ⟨3, by simp [exec, TimState.step, timHandler, timHandlerCall, hahead]⟩
    · exact ⟨6, by simp [exec, TimState.step, timHandler, timHandlerCall, hahead]⟩

namespace TimRun

def initial : TimRun Cb := ⟨.initial, [], []⟩

/-- `tim_set_timer`, with `delay` the delay it uses. -/
def setTimer (r : TimRun Cb) (delay : ℤ) (cb : Option Cb) : TimRun Cb where
  tim := timSetTimer r.tim delay cb
  alarmWrites := timDue r.tim.time delay :: r.alarmWrites
  calls := .set r.tim.time delay cb :: r.calls

/-- `tim_handler`. -/
def handler (r : TimRun Cb) : TimRun Cb where
  tim := timHandlerCall r.tim
  alarmWrites :=
    if r.tim.timerCb.isSome ∧ timAhead r.tim.alarm (UInt32.ofNat r.tim.time) = true then
      r.tim.alarm :: r.alarmWrites
    else r.alarmWrites
  calls :=
    match r.tim.timerCb with
    | none => r.calls
    | some f =>
      if timAhead r.tim.alarm (UInt32.ofNat r.tim.time) then r.calls
      else .invoke r.tim.time f :: r.calls

/-- One step of a run. -/
def step (minMaxSleep : ℤ) (r : TimRun Cb) : TimCallAct Cb → Option (TimRun Cb)
  | .tick us => some { r with tim := { r.tim with time := r.tim.time + us } }
  | .setTimer delta maxSleep cb => some (r.setTimer (timDelay minMaxSleep delta maxSleep) cb)
  | .handler => some r.handler

end TimRun

/-- The time, the delay and the callback of the latest `tim_set_timer`. -/
def latestTimer : List (TimCall Cb) → Option (ℕ × ℤ × Option Cb)
  | [] => none
  | .set time delay cb :: _ => some (time, delay, cb)
  | .invoke _ _ :: calls => latestTimer calls

/-- The number of invocations since the latest `tim_set_timer`. -/
def invocationsSince : List (TimCall Cb) → ℕ
  | [] => 0
  | .set _ _ _ :: _ => 0
  | .invoke _ _ :: calls => invocationsSince calls + 1

/-- Each invocation is of the callback that the latest `tim_set_timer` installed, the first since
then, and less than five microseconds before it is due, or later. -/
def NoneEarly (calls : List (TimCall Cb)) : Prop :=
  ∀ newer older (time : ℕ) f, calls = newer ++ .invoke time f :: older →
    ∃ (start : ℕ) (delay : ℤ), latestTimer older = some (start, delay, some f) ∧
      invocationsSince older = 0 ∧ start + delay - 5 < time

/-- Timers are not early, and an alarm that is ahead is left alone. -/
structure TimRun.NotEarly (r : TimRun Cb) : Prop where
  invoked : NoneEarly r.calls
  /-- An entry that finds a callback installed and its alarm five or more microseconds ahead leaves
  the callback in place and writes the same alarm again. -/
  ahead : ∀ f, r.tim.timerCb = some f →
    ∃ start delay, latestTimer r.calls = some (start, delay, some f) ∧
      ((r.tim.time : ℤ) + 5 ≤ start + delay →
        r.handler = { r with alarmWrites := r.tim.alarm :: r.alarmWrites })

/-- The delay of the step, if it sets a timer, is at most `2 ^ 29` microseconds. -/
def TimCallAct.Short (minMaxSleep : ℤ) : TimCallAct Cb → Prop
  | .setTimer delta maxSleep _ => timDelay minMaxSleep delta maxSleep ≤ 2 ^ 29
  | _ => True

/-- An alarm that is five or more microseconds ahead is found to be ahead. -/
lemma timAhead_timDue {start now : ℕ} {delay : ℤ} (hle : start ≤ now) (hdelay : delay ≤ 2 ^ 29)
    (h : (now : ℤ) + 5 ≤ start + delay) :
    timAhead (timDue start delay) (UInt32.ofNat now) = true := by
  have hdiff : (timDue start delay - (UInt32.ofNat now + 5)).toNat < 2 ^ 29 := by
    simp only [timDue, UInt32.ofInt, UInt32.toNat_sub, UInt32.toNat_add, UInt32.toNat_ofNat',
      UInt32.toNat_ofNat]
    omega
  rw [timAhead, beq_iff_eq]
  apply UInt32.toNat.inj
  rw [UInt32.toNat_shiftRight, Nat.shiftRight_eq_div_pow]
  exact Nat.div_eq_of_lt hdiff

namespace TimRun

/-- The callback that is installed is that of the latest `tim_set_timer`, with its alarm, and was
not invoked yet. -/
structure Inv (r : TimRun Cb) : Prop where
  invoked : NoneEarly r.calls
  stored : ∀ f, r.tim.timerCb = some f →
    ∃ start delay, latestTimer r.calls = some (start, delay, some f) ∧
      invocationsSince r.calls = 0 ∧ start ≤ r.tim.time ∧ delay ≤ 2 ^ 29 ∧
      r.tim.alarm = timDue start delay

lemma inv_initial : (initial : TimRun Cb).Inv :=
  ⟨by simp [initial, NoneEarly], by simp [initial, TimState.initial]⟩

variable {r t : TimRun Cb}

lemma handler_of_none (h : r.tim.timerCb = none) : r.handler = r := by
  simp [handler, timHandlerCall, h]

lemma handler_of_ahead {f : Cb} (hcb : r.tim.timerCb = some f)
    (h : timAhead r.tim.alarm (UInt32.ofNat r.tim.time) = true) :
    r.handler = { r with alarmWrites := r.tim.alarm :: r.alarmWrites } := by
  have hsame : timHandlerCall r.tim = r.tim := by
    simp only [timHandlerCall, hcb, h, if_true]
    rw [← hcb]
  simp [handler, hsame, hcb, h]

lemma handler_of_due {f : Cb} (hcb : r.tim.timerCb = some f)
    (h : timAhead r.tim.alarm (UInt32.ofNat r.tim.time) = false) :
    r.handler =
      { r with
        tim := { r.tim with timerCb := none, log := .invoke f :: r.tim.log }
        calls := .invoke r.tim.time f :: r.calls } := by
  simp [handler, timHandlerCall, hcb, h]

/-- A `tim_set_timer` installs the latest callback. -/
lemma Inv.setTimer (h : r.Inv) {delay : ℤ} (hdelay : delay ≤ 2 ^ 29) (cb : Option Cb) :
    (r.setTimer delay cb).Inv where
  invoked newer older time f hsplit := by
    obtain ⟨newer', hsplit⟩ := Log.split_of_ne (by simp) hsplit
    exact h.invoked newer' older time f hsplit
  stored f hf := by
    obtain rfl : cb = some f := hf
    exact ⟨r.tim.time, delay, rfl, rfl, le_rfl, hdelay, rfl⟩

/-- The handler calls what is installed, when its alarm is no longer ahead. -/
lemma Inv.handler (h : r.Inv) : r.handler.Inv := by
  cases hcb : r.tim.timerCb with
  | none => rwa [handler_of_none hcb]
  | some f =>
    by_cases hahead : timAhead r.tim.alarm (UInt32.ofNat r.tim.time) = true
    · rw [handler_of_ahead hcb hahead]
      exact ⟨h.invoked, h.stored⟩
    · rw [handler_of_due hcb (Bool.not_eq_true _ ▸ hahead)]
      refine ⟨?_, fun g hg => nomatch hg⟩
      intro newer older time g hsplit
      rcases Log.split_cons hsplit with ⟨hcall, hold⟩ | ⟨newer', hsplit⟩
      · obtain ⟨rfl, rfl⟩ := TimCall.invoke.inj hcall
        obtain ⟨start, delay, hlatest, hnone, hle, hdelay, halarm⟩ := h.stored f hcb
        refine ⟨start, delay, hold ▸ hlatest, hold ▸ hnone, ?_⟩
        -- an alarm that is still ahead would have been left alone
        by_contra hearly
        rw [halarm] at hahead
        exact hahead (timAhead_timDue hle hdelay (by omega))
      · exact h.invoked newer' older time g hsplit

/-- One step keeps the invariant. -/
lemma Inv.step {minMaxSleep : ℤ} {a : TimCallAct Cb} (h : r.Inv) (hshort : a.Short minMaxSleep)
    (hst : r.step minMaxSleep a = some t) : t.Inv := by
  cases a with
  | tick us =>
    obtain rfl := Option.some.inj hst
    refine ⟨h.invoked, ?_⟩
    intro f hf
    obtain ⟨start, delay, hlatest, hnone, hle, hrest⟩ := h.stored f hf
    exact ⟨start, delay, hlatest, hnone, hle.trans (Nat.le_add_right _ _), hrest⟩
  | setTimer delta maxSleep cb => exact Option.some.inj hst ▸ h.setTimer hshort cb
  | handler => exact Option.some.inj hst ▸ h.handler

lemma Inv.notEarly (h : r.Inv) : r.NotEarly where
  invoked := h.invoked
  ahead f hf := by
    obtain ⟨start, delay, hlatest, -, hle, hdelay, halarm⟩ := h.stored f hf
    refine ⟨start, delay, hlatest, ?_⟩
    intro hahead
    apply handler_of_ahead hf
    rw [halarm]
    exact timAhead_timDue hle hdelay hahead

end TimRun

/-- **No timer is early.**  In every run of `tim_set_timer` and `tim_handler` with delays of at most
`2 ^ 29` microseconds, each invocation is the first of the callback of the latest `tim_set_timer`,
less than five microseconds before it is due or later, and an alarm that is further ahead is left
alone. -/
theorem timer_not_early (minMaxSleep : ℤ) (acts : List (TimCallAct Cb)) (r : TimRun Cb)
    (hrun : exec (TimRun.step minMaxSleep) .initial acts = some r)
    (hshort : ∀ a ∈ acts, a.Short minMaxSleep) : r.NotEarly :=
  (exec_inv_of_allSteps (C := fun _ a => a.Short minMaxSleep) (fun _ _ _ => TimRun.Inv.step)
    TimRun.inv_initial (AllSteps.of_forall_mem hshort) hrun).notEarly

/-- An alarm behind the wrap of the 32-bit counter: a spurious entry leaves it alone, and the entry
at the alarm calls the callback. -/
theorem timer_not_early_wrap :
    ∃ r, exec (TimRun.step 10000) .initial
        [.tick 4294967000, .setTimer 500 0 (some 1), .tick 200, .handler, .tick 300, .handler] =
          some r ∧
      r.calls = [.invoke 4294967500 1, .set 4294967000 500 (some 1)] ∧ r.NotEarly := by
  have hrun : exec (TimRun.step 10000) .initial
      [.tick 4294967000, .setTimer 500 0 (some 1), .tick 200, .handler, .tick 300, .handler] =
      some ⟨⟨4294967500, none, 204, .out, [.invoke 1, .set (some 1) 204]⟩, [204, 204],
        [.invoke 4294967500 1, .set 4294967000 500 (some 1)]⟩ := by decide
  refine ⟨_, hrun, rfl, timer_not_early 10000 _ _ hrun ?_⟩
  simp [TimCallAct.Short, timDelay]

end JdPico
