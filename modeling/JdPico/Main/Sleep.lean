import JdPico.Lib.Run

/-!
# When the main loop sleeps

The main loop lets the other parts do their work, one after the other, and executes `wfe` when it
finds nothing to do.  Each of the things that it looks at can change in an interrupt after it has
looked: a frame arrives, an SPI transfer completes, an interrupt handler writes to the log.  If the
loop then slept, the work would wait for some other interrupt.

It does not, because `wfe` only sleeps if the event register is not set, and every interrupt sets
it.  Only `wfe` resets it.  The loop looks at everything again after the last `wfe`, and the order
in which it does so does not matter.

What the interrupt handlers, the services and the callback of an SPI transfer do is left open, but
for this: `in_tx` is only set by the main loop, and the callback does not execute `wfe`.
-/

namespace JdPico

open Machine

/-- Where the main loop is. -/
inductive MainPc where
  /-- Before `jd_process_everything` and `jd_tcpsock_process`. -/
  | process
  /-- Before `jd_spi_process`. -/
  | spi
  /-- Before `dmesg_to_stdout`. -/
  | dmesg
  /-- In `dmesg_to_stdout`, before `jd_dmesg_read`. -/
  | dmesgRead
  /-- Before `jd_rx_has_frame`. -/
  | hasFrame
  /-- Before `wfe`. -/
  | wfe
  /-- In `wfe`, waiting for the event register to be set. -/
  | asleep
  deriving DecidableEq, Repr

/-- What the other parts leave for the main loop. -/
structure MainWork where
  /-- `jd_rx_has_frame`. -/
  rxFrame : Bool
  /-- `spi_done_cb` is not null. -/
  spiDone : Bool
  /-- The log has text that was not read. -/
  unread : Bool
  deriving DecidableEq, Repr

/-- The main loop with what it looks at. -/
structure MainLoop where
  pc : MainPc
  work : MainWork
  inTx : Bool
  /-- The event register of the processor. -/
  event : Bool
  deriving DecidableEq, Repr

/-- The steps of the system. -/
inductive MainAct where
  /-- An interrupt; `sent` says that it was the one of the log port. -/
  | interrupt (work : MainWork) (sent : Bool)
  /-- `jd_process_everything`; it may wait for events itself. -/
  | process (work : MainWork) (event : Bool)
  /-- `jd_spi_process`, with what the callback leaves if there is one. -/
  | spi (work : MainWork)
  /-- `uart_log_can_write`. -/
  | canWrite
  /-- `jd_dmesg_read` and, if there is a text, `uart_log_write`, which sends it if logging is on;
  `more` says that there is more than what fits into the buffer. -/
  | dmesgRead (on more : Bool)
  /-- `jd_rx_has_frame`. -/
  | hasFrame
  /-- `wfe`, or its end. -/
  | wfe
  deriving DecidableEq, Repr

namespace MainLoop

/-- The state when the main loop begins. -/
def initial (work : MainWork) (event : Bool) : MainLoop := ⟨.process, work, false, event⟩

/-- One step of the system; `none` if it is not possible. -/
def step (s : MainLoop) : MainAct → Option MainLoop
  | .interrupt work sent => some { s with work := work, inTx := s.inTx && !sent, event := true }
  | .process work event =>
    if s.pc = .process then some { s with pc := .spi, work := work, event := event } else none
  | .spi work =>
    if s.pc = .spi then
      some { s with
        pc := .dmesg
        work := if s.work.spiDone then { work with spiDone := false } else s.work }
    else none
  | .canWrite =>
    if s.pc = .dmesg then some { s with pc := if s.inTx then .process else .dmesgRead } else none
  | .dmesgRead on more =>
    if s.pc = .dmesgRead then
      some (if s.work.unread then
        { s with pc := .process, work := { s.work with unread := more }, inTx := on }
      else { s with pc := .hasFrame })
    else none
  | .hasFrame =>
    if s.pc = .hasFrame then some { s with pc := if s.work.rxFrame then .process else .wfe }
    else none
  | .wfe =>
    if s.pc = .wfe then
      some (if s.event then { s with pc := .process, event := false } else { s with pc := .asleep })
    else if s.pc = .asleep ∧ s.event then some { s with pc := .process, event := false }
    else none

/-! ### One step -/

variable {s t : MainLoop}

/-- What the main loop has looked at at each place. -/
def Looked : MainPc → MainWork → Prop
  | .process, _ => True
  | .spi, _ => True
  | .dmesg, work => work.spiDone = false
  | .dmesgRead, work => work.spiDone = false
  | .hasFrame, work => work.spiDone = false ∧ work.unread = false
  | .wfe, work => work.spiDone = false ∧ work.unread = false ∧ work.rxFrame = false
  | .asleep, work => work.spiDone = false ∧ work.unread = false ∧ work.rxFrame = false

/-- The places that are reached only if no text is being sent. -/
def AfterCanWrite : MainPc → Prop
  | .dmesgRead | .hasFrame | .wfe | .asleep => True
  | _ => False

/-- The invariant: what the loop has looked at is still so, or the event register is set. -/
structure Inv (s : MainLoop) : Prop where
  looked : s.event = true ∨ Looked s.pc s.work
  inTx : AfterCanWrite s.pc → s.inTx = false

lemma inv_initial (work : MainWork) (event : Bool) : (initial work event).Inv :=
  ⟨.inr trivial, False.elim⟩

/-- Every step keeps the invariant. -/
lemma Inv.step (h : s.Inv) {a : MainAct} (hst : s.step a = some t) : t.Inv := by
  cases a with
  | interrupt work sent =>
    obtain rfl := Option.some.inj hst
    exact ⟨.inl rfl, fun hpc => by simp [h.inTx hpc]⟩
  | process work event =>
    obtain ⟨-, rfl⟩ : s.pc = .process ∧
        { s with pc := .spi, work := work, event := event } = t := by
      simpa [MainLoop.step] using hst
    exact ⟨.inr trivial, False.elim⟩
  | spi work =>
    obtain ⟨-, rfl⟩ : s.pc = .spi ∧ { s with
        pc := .dmesg
        work := if s.work.spiDone then { work with spiDone := false } else s.work } = t := by
      simpa [MainLoop.step] using hst
    refine ⟨.inr ?_, False.elim⟩
    cases hdone : s.work.spiDone <;> simp [Looked, hdone]
  | canWrite =>
    obtain ⟨hpc, rfl⟩ : s.pc = .dmesg ∧
        { s with pc := if s.inTx then .process else .dmesgRead } = t := by
      simpa [MainLoop.step] using hst
    have hlooked := h.looked
    rw [hpc] at hlooked
    cases hinTx : s.inTx with
    | false => exact ⟨hlooked, fun _ => rfl⟩
    | true => exact ⟨.inr trivial, False.elim⟩
  | dmesgRead on more =>
    obtain ⟨hpc, rfl⟩ : s.pc = .dmesgRead ∧ (if s.work.unread then
        { s with pc := .process, work := { s.work with unread := more }, inTx := on }
        else { s with pc := .hasFrame }) = t := by
      simpa [MainLoop.step] using hst
    have hlooked := h.looked
    rw [hpc] at hlooked
    cases hunread : s.work.unread with
    | false => exact ⟨hlooked.imp_right fun hspi => ⟨hspi, hunread⟩,
        fun _ => h.inTx (by rw [hpc]; trivial)⟩
    | true => exact ⟨.inr trivial, False.elim⟩
  | hasFrame =>
    obtain ⟨hpc, rfl⟩ : s.pc = .hasFrame ∧
        { s with pc := if s.work.rxFrame then .process else .wfe } = t := by
      simpa [MainLoop.step] using hst
    have hlooked := h.looked
    rw [hpc] at hlooked
    cases hframe : s.work.rxFrame with
    | false => exact ⟨hlooked.imp_right fun ⟨hspi, hunread⟩ => ⟨hspi, hunread, hframe⟩,
        fun _ => h.inTx (by rw [hpc]; trivial)⟩
    | true => exact ⟨.inr trivial, False.elim⟩
  | wfe =>
    simp only [MainLoop.step] at hst
    split_ifs at hst with hpc hevent hasleep
    · obtain rfl := Option.some.inj hst
      exact ⟨.inr trivial, False.elim⟩
    · obtain rfl := Option.some.inj hst
      have hlooked := h.looked.resolve_left hevent
      rw [hpc] at hlooked
      exact ⟨.inr hlooked, fun _ => h.inTx (by rw [hpc]; trivial)⟩
    · obtain rfl := Option.some.inj hst
      exact ⟨.inr trivial, False.elim⟩

end MainLoop

/-! ### Runs -/

/-- **No work waits for an interrupt.**  For every interleaving of the main loop with interrupts,
whatever the interrupts and the services do: while the processor sleeps, no frame has arrived, no
SPI transfer waits for its callback, the log has no text and none is being sent. -/
theorem sleep_without_work (work : MainWork) (event : Bool) (acts : List MainAct) (s : MainLoop)
    (hrun : exec MainLoop.step (.initial work event) acts = some s) (hpc : s.pc = .asleep)
    (hevent : s.event = false) :
    s.work.rxFrame = false ∧ s.work.spiDone = false ∧ s.work.unread = false ∧ s.inTx = false := by
  have h : s.Inv := exec_inv (fun _ _ _ h hst => h.step hst) (MainLoop.inv_initial work event) hrun
  have hlooked := h.looked.resolve_left (by simp [hevent])
  have hinTx := h.inTx
  rw [hpc] at hlooked hinTx
  exact ⟨hlooked.2.2, hlooked.1, hlooked.2.1, hinTx trivial⟩

/-- A frame arrives after the loop has looked for one, and `wfe` does not sleep; the next time
round the loop sleeps. -/
def twoRounds : List MainAct :=
  [.process ⟨false, true, false⟩ false, .spi ⟨false, false, false⟩, .canWrite,
    .dmesgRead true false, .hasFrame, .interrupt ⟨true, false, false⟩ false, .wfe,
    .process ⟨false, false, false⟩ false, .spi ⟨false, false, false⟩, .canWrite,
    .dmesgRead true false, .hasFrame, .wfe]

/-- It is not asleep with the frame. -/
theorem sleep_without_work_two_rounds :
    ∃ s, exec MainLoop.step (.initial ⟨false, true, false⟩ false) twoRounds = some s ∧
      s.pc = .asleep ∧ s.event = false ∧ s.work.rxFrame = false := by
  have hrun : (exec MainLoop.step (.initial ⟨false, true, false⟩ false) twoRounds).map
      (fun s => (s.pc, s.event)) = some (.asleep, false) := by decide
  obtain ⟨s, hs, heq⟩ := Option.map_eq_some_iff.mp hrun
  obtain ⟨hpc, hevent⟩ := Prod.mk.inj heq
  exact ⟨s, hs, hpc, hevent, (sleep_without_work _ _ _ s hs hpc hevent).1⟩

end JdPico
