import JdPico.Lib.Run
import Mathlib.Data.UInt

/-!
# The timer driver

`tim.c` multiplexes nothing: there is one callback, `timer_cb`, and one alarm register.
`tim_set_timer` installs a callback and sets the alarm with interrupts masked, so it is one step
here.  `tim_handler` is the alarm's interrupt handler.  It runs at a lower priority than the line
interrupts, which call `tim_set_timer` too, so it is modelled instruction group by instruction
group: between any two of its steps, except while it holds the mask, a `tim_set_timer` may run.

Handler entry is not tied to the alarm: an interrupt may be late or spurious, and the handler checks
the clock itself.  The variables that `tim.c` writes for the debugger only are left out.
-/

namespace JdPico

/-- Where `tim_handler` is.  `f` is the local variable of that name. -/
inductive TimPc (Cb : Type) where
  /-- The handler is not running. -/
  | out
  /-- Entered; `timer_cb` is not read yet. -/
  | entry
  /-- `f = timer_cb` was read and is not null. -/
  | loaded (f : Cb)
  /-- Inside `target_disable_irq` and `target_enable_irq`. -/
  | locked (f : Cb)
  /-- After `target_enable_irq`, before `timer_cb = NULL`. -/
  | unlocked (f : Cb)
  /-- After `timer_cb = NULL`, before the call. -/
  | cleared (f : Cb)
  /-- `f()` is running. -/
  | calling (f : Cb)
  deriving DecidableEq, Repr

/-- What is seen from outside: callbacks are installed and invoked. -/
inductive TimEvent (Cb : Type) where
  /-- `tim_set_timer` installed `cb` for the due time `due`. -/
  | set (cb : Option Cb) (due : UInt32)
  /-- The handler called `f`. -/
  | invoke (f : Cb)
  deriving DecidableEq, Repr

/-- The state of the timer driver. -/
structure TimState (Cb : Type) where
  /-- The time in microseconds; the hardware shows the low 32 bits as `timerawl`. -/
  time : ℕ
  /-- `timer_cb`; `none` is the null pointer. -/
  timerCb : Option Cb
  /-- The alarm register. -/
  alarm : UInt32
  /-- The handler. -/
  pc : TimPc Cb
  /-- What happened so far, newest first. -/
  log : List (TimEvent Cb)
  deriving DecidableEq, Repr

variable {Cb : Type}

/-- The state at start-up. -/
def TimState.initial : TimState Cb := ⟨0, none, 0, .out, []⟩

/-- The delay `tim_set_timer` uses: at least 10, and `jd_max_sleep` for `JD_MIN_MAX_SLEEP`. -/
def timDelay (minMaxSleep delta maxSleep : ℤ) : ℤ :=
  let delta := if delta < 10 then 10 else delta
  if delta = minMaxSleep then maxSleep else delta

/-- The value `tim_set_timer` writes to the alarm register. -/
def timDue (time : ℕ) (delay : ℤ) : UInt32 := UInt32.ofNat time + UInt32.ofInt delay

/-- `tim_set_timer`, with `delay` the delay it uses. -/
def timSetTimer (s : TimState Cb) (delay : ℤ) (cb : Option Cb) : TimState Cb :=
  let due := timDue s.time delay
  { s with timerCb := cb, alarm := due, log := .set cb due :: s.log }

/-- The test of `tim_handler`: the alarm `tal` is five or more microseconds ahead of `now`. -/
def timAhead (tal now : UInt32) : Bool := (tal - (now + 5)) >>> 29 == 0

/-- The steps of the system. -/
inductive TimAction (Cb : Type) where
  /-- Time passes. -/
  | tick (us : ℕ)
  /-- `tim_set_timer(delta, cb)` from thread code, from a callback or from an interrupt of higher
  priority than the handler; `maxSleep` is the value of `jd_max_sleep`. -/
  | setTimer (delta maxSleep : ℤ) (cb : Option Cb)
  /-- The alarm interrupt is taken. -/
  | enter
  /-- The handler goes on to its next step. -/
  | handler

/-- The next step of `tim_handler`. -/
def timHandler (s : TimState Cb) : Option (TimState Cb) :=
  match s.pc with
  | .out => none
  | .entry =>
    match s.timerCb with
    | some f => some { s with pc := .loaded f }
    | none => some { s with pc := .out }
  | .loaded f => some { s with pc := .locked f }
  | .locked f =>
    let tal := s.alarm
    if timAhead tal (UInt32.ofNat s.time) then some { s with alarm := tal, pc := .out }
    else some { s with pc := .unlocked f }
  | .unlocked f => some { s with timerCb := none, pc := .cleared f }
  | .cleared f => some { s with pc := .calling f, log := .invoke f :: s.log }
  | .calling _ => some { s with pc := .out }

/-- The handler holds the interrupt mask. -/
def TimState.masked (s : TimState Cb) : Bool :=
  match s.pc with
  | .locked _ => true
  | _ => false

/-- One step of the system; `none` if it is not possible. -/
def TimState.step (minMaxSleep : ℤ) (s : TimState Cb) : TimAction Cb → Option (TimState Cb)
  | .tick us => some { s with time := s.time + us }
  | .setTimer delta maxSleep cb =>
    if s.masked then none else some (timSetTimer s (timDelay minMaxSleep delta maxSleep) cb)
  | .enter =>
    match s.pc with
    | .out => some { s with pc := .entry }
    | _ => none
  | .handler => timHandler s

end JdPico
