import JdPico.Uart.HalfDuplex
import JdPico.Uart.Wire

/-!
# The driver on the line

`uart_start_tx` runs below the interrupts of the line, and what it and they do to `uart_status`, the
state machines and the DMA channels was followed statement by statement (`LineState`).  Here these
runs are put on the pin: each step of the driver makes the writes of the functions that it calls
(`wireActs`), and the state machines set their outputs while they are enabled.

In every run in which no reception ends in the window of `uart_start_tx`, the two go together.  All
the writes can be made, the board drives the line exactly while the driver transmits, and what it
drives are the pulses and the levels of its transmissions (`line_drives`): an interrupt that is
taken in the middle of `uart_start_tx` never shows on the line.
-/

namespace JdPico

open Machine Changes

/-! ### The board -/

/-- What can happen while the driver runs. -/
inductive BoardAct where
  /-- A step of the driver. -/
  | line (a : LineAction)
  /-- The transmitter sets its output. -/
  | txLevel (level : Bool)
  /-- The side-set of the receiver, on pin zero. -/
  | rxSide (gpio : Fin 30) (level : Bool)
  /-- A function of `pins.c` is called for another pin. -/
  | other (c : PinCall)

namespace LineState

/-- A step of the board with the Jacdac line on the pin; `none` if it is not possible or an
assertion fails. -/
def boardStep (jacdacPin : Fin 30) (s : LineState) : BoardAct → Option LineState
  | .line a => s.step a
  | .txLevel _ => if s.uart.smtx then some s else none
  | .rxSide gpio _ => if s.uart.smrx ∧ gpio.val = 0 then some s else none
  | .other c => if c.pin = some jacdacPin then none else some s

/-- No reception ends in the window of `uart_start_tx`. -/
def BoardNoEndInWindow (s : LineState) : BoardAct → Prop
  | .line a => s.NoEndInWindow a
  | _ => True

instance (s : LineState) : ∀ a, Decidable (s.BoardNoEndInWindow a)
  | .line a => inferInstanceAs (Decidable (s.NoEndInWindow a))
  | .txLevel _ | .rxSide _ _ | .other _ => .isTrue trivial

/-- `isr_dma_0` calls `rx_handler`. -/
def callsRxHandler (s : LineState) : Bool := s.uart.dmaRx.ints.isSome && s.uart.dmaRx.handler

/-- `isr_dma_0` calls `tx_handler`. -/
def callsTxHandler (s : LineState) : Bool := s.uart.dmaTx.ints.isSome && s.uart.dmaTx.handler

/-- What a step does to the pin.  The writes of `uart_start_tx` are taken together with the probe of
the line. -/
def wireActs (s : LineState) : BoardAct → List WireAct
  | .line (.tx free high) =>
    if s.pc = .claimed ∨ s.pc = .extiOff ∧ s.uart.status = .rx then [.uartStartTx free high] else []
  | .line (.exti high) => [.lineFalling high]
  | .line .pio => if s.uart.pioIrq.isSome then [.rxDone] else []
  | .line .dma =>
    (if s.callsRxHandler then [.rxDone] else []) ++ (if s.callsTxHandler then [.txHandler] else [])
  | .line .timeout => [.uartDisable]
  | .line .call | .line .rxBreak | .line .dmaRxComplete | .line .dmaTxComplete => []
  | .txLevel level => [.txLevel level]
  | .rxSide gpio level => [.rxSide gpio level]
  | .other c => [.other c]

/-- What a step is to drive on the line. -/
def drives (s : LineState) : BoardAct → List (Option Bool)
  | .line (.tx free _) => if s.pc = .claimed ∧ free then [some false, some true] else []
  | .line .dma => if s.callsTxHandler then [some true, some false, some true, none] else []
  | .txLevel level => [some level]
  | _ => []

/-- The status that goes with the pin: the line is not touched before it is probed. -/
def pinStatus (s : LineState) : UartStatus := if s.pc = .claimed then .idle else s.uart.status

/-- The pin is as the driver has it. -/
structure OnPin (jacdacPin : Fin 30) (s : LineState) (w : Wire) : Prop where
  phase : s.uart.line.Phase s.pc
  jacdacPin : w.jacdacPin = jacdacPin
  inited : w.inited = true
  status : w.status = s.pinStatus
  txEnabled : w.status = .tx → w.txEnabled = true
  rxEnabled : w.status = .rx → w.rxEnabled = true

/-- The pin goes along with a step. -/
def PinFollows (jacdacPin : Fin 30) (s : LineState) (a : BoardAct) (t : LineState) (w : Wire) :
    Prop :=
  ∃ w', exec Wire.step w (s.wireActs a) = some w' ∧ OnPin jacdacPin t w' ∧
    outputs Wire.step Wire.wave w (s.wireActs a) = s.drives a

variable {jacdacPin : Fin 30} {s t : LineState} {w w' : Wire} {a : BoardAct} {u v : UartState}

/-! ### What the driver and the pin have in common -/

lemma pinStatus_of_ne (h : s.pc ≠ .claimed) : s.pinStatus = s.uart.status := if_neg h

namespace OnPin

/-- Both receive at the same time. -/
lemma rx_iff (h : OnPin jacdacPin s w) : w.status = .rx ↔ s.uart.status = .rx := by
  rw [h.status, pinStatus]
  constructor
  · intro hrx
    split_ifs at hrx
    exact hrx
  · intro hrx
    have hpc : s.pc ≠ .claimed := by
      rcases (h.phase.receiving hrx).2 with hpc | hpc | hpc | hpc <;> simp [hpc]
    rwa [if_neg hpc]

/-- Nothing is written to the pin. -/
lemma keep (h : OnPin jacdacPin s w) (ht : t.uart.line.Phase t.pc)
    (hstatus : t.pinStatus = s.pinStatus) (hacts : s.wireActs a = []) (hdrives : s.drives a = []) :
    PinFollows jacdacPin s a t w := by
  refine ⟨w, ?_, ⟨ht, h.jacdacPin, h.inited, h.status.trans hstatus.symm, h.txEnabled,
    h.rxEnabled⟩, ?_⟩
  · rw [hacts, exec_nil]
  · rw [hacts, hdrives]
    rfl

/-- Between `uart_status = STATUS_TX` and the probe the transmission is being prepared. -/
lemma preparing (h : OnPin jacdacPin s w) (hpc : s.pc = .claimed) :
    s.uart.line.Preparing false := by
  have hphase := h.phase
  rwa [hpc] at hphase

/-- `uart_disable` is called. -/
lemma of_uartDisable (hpin : w.jacdacPin = jacdacPin) (hinited : w.inited = true)
    (ht : t.uart.line.Phase t.pc) (hidle : t.pinStatus = .idle) :
    OnPin jacdacPin t w.uartDisable :=
  ⟨ht, hpin, hinited, hidle.symm, (fun htx => nomatch htx), (fun hrx => nomatch hrx)⟩

/-- `jd_line_falling` is called. -/
lemma of_jdLineFalling {high : Bool} (hpin : w.jacdacPin = jacdacPin) (hinited : w.inited = true)
    (ht : t.uart.line.Phase t.pc) (hstatus : t.pinStatus = if high then .rx else .idle) :
    OnPin jacdacPin t (w.jdLineFalling high) := by
  cases high with
  | true => exact ⟨ht, hpin, hinited, hstatus.symm, (fun htx => nomatch htx), fun _ => rfl⟩
  | false => exact .of_uartDisable hpin hinited ht hstatus

/-- `rx_done` is called. -/
lemma rxDone (h : OnPin jacdacPin s w) (ht : t.uart.line.Phase t.pc) (hpc : t.pc = s.pc)
    (hstatus : t.uart.status = if s.uart.status = .rx then .idle else s.uart.status) :
    OnPin jacdacPin t w.rxDone := by
  by_cases hrx : w.status = .rx
  · have hidle : t.pinStatus = .idle := by
      rw [pinStatus, hstatus, if_pos (h.rx_iff.mp hrx), ite_self]
    rw [Wire.rxDone, if_pos hrx]
    exact .of_uartDisable h.jacdacPin h.inited ht hidle
  · have hsame : t.pinStatus = s.pinStatus := by
      rw [pinStatus, hstatus, if_neg fun hs => hrx (h.rx_iff.mpr hs), hpc, pinStatus]
    rw [Wire.rxDone, if_neg hrx]
    exact ⟨ht, h.jacdacPin, h.inited, h.status.trans hsame.symm, h.txEnabled, h.rxEnabled⟩

end OnPin

/-- One call that writes to the pin. -/
lemma pinFollows_of_step {b : WireAct} (hacts : s.wireActs a = [b]) (hst : w.step b = some w')
    (hw' : OnPin jacdacPin t w') (hwave : w.wave b = s.drives a) :
    PinFollows jacdacPin s a t w := by
  refine ⟨w', ?_, hw', ?_⟩
  · rw [hacts]
    exact exec_cons.mpr ⟨w', hst, rfl⟩
  · rw [hacts, outputs, hst, hwave]
    exact List.append_nil _

/-! ### The status after an interrupt -/

lemma status_jdLineFalling {high : Bool} (h : JdPico.jdLineFalling high u = some v) :
    v.status = if high then .rx else .idle := by
  unfold JdPico.jdLineFalling at h
  cases high with
  | true =>
    obtain ⟨-, rfl⟩ := uartStartRx_eq_some h
    rfl
  | false =>
    obtain rfl := Option.some.inj h
    rfl

lemma status_rxDone (cause : ℕ) (u : UartState) :
    (JdPico.rxDone cause u).status = if u.status = .rx then .idle else u.status := by
  unfold JdPico.rxDone
  split_ifs <;> rfl

/-- The status after `isr_pio0_0`. -/
lemma status_isrPio00 (h : u.pioIrq.isSome) :
    (isrPio00 u).status = if u.status = .rx then .idle else u.status := by
  obtain ⟨cause, hcause⟩ := Option.isSome_iff_exists.mp h
  rw [isrPio00, hcause]
  exact status_rxDone cause _

/-- The turn for the RX channel calls `rx_done` or does nothing, and keeps the other slot. -/
lemma serviceRx_spec (mask : Option ℕ) (u : UartState) :
    (serviceRx mask u).status =
        (if (mask.isSome && u.dmaRx.handler) = true ∧ u.status = .rx then .idle else u.status) ∧
      (serviceRx mask u).dmaTx.handler = u.dmaTx.handler := by
  cases mask with
  | none => simp [serviceRx]
  | some cause =>
    cases hh : u.dmaRx.handler with
    | false => simp [serviceRx, hh]
    | true =>
      by_cases hrx : u.status = .rx
      · have hfinish : u.dmaTx.finish.handler = u.dmaTx.handler := by
          unfold DmaCh.finish
          split <;> rfl
        simpa [serviceRx, hh, JdPico.rxDone, hrx, JdPico.uartDisable, uartRelease] using hfinish
      · simp [serviceRx, hh, JdPico.rxDone, hrx]

/-- The status after `isr_dma_0`. -/
lemma status_isrDma0 (s : LineState) :
    (isrDma0 s.uart).status =
      if s.callsTxHandler then .idle
      else if s.callsRxHandler ∧ s.uart.status = .rx then .idle else s.uart.status := by
  obtain ⟨hstatus, hhandler⟩ := serviceRx_spec s.uart.dmaRx.ints
    { s.uart with dmaRx := s.uart.dmaRx.clear, dmaTx := s.uart.dmaTx.clear }
  simp only [DmaCh.clear_handler] at hstatus hhandler
  unfold callsTxHandler callsRxHandler
  cases hints : s.uart.dmaTx.ints with
  | none => simpa [isrDma0, hints, serviceTx] using hstatus
  | some k =>
    cases hh : s.uart.dmaTx.handler with
    | false => simpa [isrDma0, hints, serviceTx, hhandler, hh] using hstatus
    | true =>
      simp [isrDma0, hints, serviceTx, hhandler, hh, JdPico.txHandler, JdPico.uartDisable,
        uartRelease]

/-! ### The steps -/

/-- `uart_start_tx` goes on and does not write to the pin. -/
lemma OnPin.unseen (h : OnPin jacdacPin s w) {free high : Bool} (ht : t.uart.line.Phase t.pc)
    (hne : s.pc ≠ .claimed) (hoff : s.pc = .extiOff → s.uart.status ≠ .rx)
    (hstatus : t.pinStatus = s.uart.status) :
    PinFollows jacdacPin s (.line (.tx free high)) t w := by
  refine h.keep ht (hstatus.trans (pinStatus_of_ne hne).symm) (if_neg ?_) (if_neg ?_)
  · rintro (hclaimed | ⟨hpc, hrx⟩)
    · exact hne hclaimed
    · exact hoff hpc hrx
  · exact fun hclaimed => hne hclaimed.1

/-- `uart_start_tx` goes on. -/
lemma OnPin.tx (h : OnPin jacdacPin s w) {free high : Bool} (ht : t.uart.line.Phase t.pc)
    (hst : s.uartStartTx free high = some t) :
    PinFollows jacdacPin s (.line (.tx free high)) t w := by
  unfold uartStartTx at hst
  cases hpc : s.pc with
  | out => simp [hpc] at hst
  | called =>
    simp only [hpc, Option.some.injEq] at hst
    subst hst
    exact h.unseen ht (by simp [hpc]) (by simp [hpc]) rfl
  | extiOff =>
    simp only [hpc] at hst
    split_ifs at hst with hrx
    · obtain rfl := Option.some.inj hst
      have hwrx : w.status = .rx := h.rx_iff.mpr hrx
      have hsame : ({ uart := s.uart, pc := .out } : LineState).pinStatus = .rx := hrx
      have hstep : w.step (.uartStartTx free high) = some w := by
        simp [Wire.step, h.inited, Wire.uartStartTx, hwrx]
      refine pinFollows_of_step ?_ hstep ?_ ?_
      · simp [wireActs, hpc, hrx]
      · exact ⟨ht, h.jacdacPin, h.inited, hwrx.trans hsame.symm, h.txEnabled, h.rxEnabled⟩
      · simp [Wire.wave, hwrx, drives, hpc]
    · obtain rfl := Option.some.inj hst
      exact h.unseen ht (by simp [hpc]) (fun _ => hrx) rfl
  | tested =>
    simp only [hpc] at hst
    split_ifs at hst with hidle
    obtain rfl := Option.some.inj hst
    exact h.unseen ht (by simp [hpc]) (by simp [hpc]) hidle.symm
  | claimed =>
    have hidle : w.status = .idle := h.status.trans (if_pos hpc)
    have hstep : w.step (.uartStartTx free high) = some (w.transmit free high) := by
      simp [Wire.step, h.inited, Wire.uartStartTx, hidle]
    have hacts : s.wireActs (.line (.tx free high)) = [.uartStartTx free high] := by
      simp [wireActs, hpc]
    have hwave : w.wave (.uartStartTx free high) = s.drives (.line (.tx free high)) := by
      simp [Wire.wave, hidle, drives, hpc]
    simp only [hpc] at hst
    cases free with
    | true =>
      obtain rfl := Option.some.inj hst
      have htx : s.uart.status = .tx := (h.preparing hpc).status
      have hwtx : (w.transmit true high).status = .tx := rfl
      exact pinFollows_of_step hacts hstep ⟨ht, h.jacdacPin, h.inited, hwtx.trans htx.symm,
        fun _ => rfl, fun hrx => absurd (hwtx.symm.trans hrx) (by decide)⟩ hwave
    | false =>
      obtain ⟨u, hu, rfl⟩ := Option.map_eq_some_iff.mp hst
      exact pinFollows_of_step hacts hstep
        (.of_jdLineFalling h.jacdacPin h.inited ht (status_jdLineFalling hu)) hwave
  | smOn =>
    simp only [hpc] at hst
    obtain ⟨c, -, rfl⟩ := Option.map_eq_some_iff.mp hst
    exact h.unseen ht (by simp [hpc]) (by simp [hpc]) rfl
  | driving | armed | registered | started =>
    simp only [hpc, Option.some.injEq] at hst
    subst hst
    exact h.unseen ht (by simp [hpc]) (by simp [hpc]) rfl

/-- `isr_dma_0`. -/
lemma OnPin.dma (h : OnPin jacdacPin s w) (ht : (isrDma0 s.uart).line.Phase s.pc) :
    PinFollows jacdacPin s (.line .dma) ⟨isrDma0 s.uart, s.pc⟩ w := by
  have hstatus := status_isrDma0 s
  cases htxh : s.callsTxHandler with
  | true =>
    -- Only a transmission has the interrupt of the TX channel.
    have hints : s.uart.dmaTx.ints ≠ none := by
      intro hnone
      simp [callsTxHandler, hnone] at htxh
    obtain ⟨hsend, hpc⟩ := h.phase.sending_or_quiet.resolve_left fun hquiet => hints hquiet.1
    have hne : s.pc ≠ .claimed := by
      rcases hpc with hpc | hpc <;> simp [hpc]
    have hwtx : w.status = .tx := h.status.trans ((pinStatus_of_ne hne).trans hsend.status)
    have hrxPart : exec Wire.step w (if s.callsRxHandler then [.rxDone] else []) = some w ∧
        outputs Wire.step Wire.wave w (if s.callsRxHandler then [.rxDone] else []) = [] := by
      have hrxDone : w.step .rxDone = some w := by
        simp [Wire.step, h.inited, Wire.rxDone, hwtx]
      split_ifs
      · exact ⟨exec_cons.mpr ⟨w, hrxDone, rfl⟩, by simp [outputs, hrxDone, Wire.wave]⟩
      · exact ⟨rfl, rfl⟩
    have hend : w.step .txHandler = some w.txHandler := if_pos (h.txEnabled hwtx)
    have hidle : ({ uart := isrDma0 s.uart, pc := s.pc } : LineState).pinStatus = .idle := by
      rw [htxh, if_pos rfl] at hstatus
      exact (if_neg hne).trans hstatus
    refine ⟨w.txHandler, ?_, .of_uartDisable h.jacdacPin h.inited ht hidle, ?_⟩
    · rw [wireActs, htxh]
      exact exec_append.mpr ⟨w, hrxPart.1, exec_cons.mpr ⟨_, hend, rfl⟩⟩
    · rw [wireActs, outputs_append hrxPart.1, hrxPart.2, drives, htxh]
      simp [outputs, hend, Wire.wave]
  | false =>
    rw [htxh] at hstatus
    cases hrxh : s.callsRxHandler with
    | true =>
      have hstep : w.step .rxDone = some w.rxDone := if_pos h.inited
      refine pinFollows_of_step ?_ hstep ?_ ?_
      · simp [wireActs, htxh, hrxh]
      · exact h.rxDone ht rfl (by simpa [hrxh] using hstatus)
      · simp [Wire.wave, drives, htxh]
    | false =>
      refine h.keep ht ?_ (by simp [wireActs, htxh, hrxh]) (by simp [drives, htxh])
      simp [pinStatus, hstatus, hrxh]

/-- A step of the driver. -/
lemma OnPin.line (h : OnPin jacdacPin s w) {a : LineAction} (hwin : s.NoEndInWindow a)
    (hst : s.step a = some t) : PinFollows jacdacPin s (.line a) t w := by
  have ht := step_phase s a t h.phase hwin hst
  cases a with
  | call =>
    simp only [step] at hst
    split_ifs at hst with hcall
    obtain rfl := Option.some.inj hst
    exact h.keep ht (by simp [pinStatus, hcall.1]) rfl rfl
  | tx free high => exact h.tx ht hst
  | exti high =>
    simp only [step] at hst
    split_ifs at hst with hexti
    obtain ⟨u, hu, rfl⟩ := Option.map_eq_some_iff.mp hst
    obtain ⟨hidle, hpc⟩ := h.phase.listening hexti
    have hne : s.pc ≠ .claimed := by
      rcases hpc with hpc | hpc | hpc <;> simp [hpc]
    have hwidle : w.status = .idle := h.status.trans ((pinStatus_of_ne hne).trans hidle.status)
    refine pinFollows_of_step (b := .lineFalling high) rfl (if_pos ⟨h.inited, hwidle⟩) ?_ rfl
    exact .of_jdLineFalling h.jacdacPin h.inited ht ((if_neg hne).trans (status_jdLineFalling hu))
  | rxBreak =>
    obtain ⟨u, hu, rfl⟩ := Option.map_eq_some_iff.mp hst
    unfold JdPico.rxBreak at hu
    split_ifs at hu
    obtain rfl := Option.some.inj hu
    exact h.keep ht rfl rfl rfl
  | pio =>
    obtain rfl := Option.some.inj hst
    by_cases hirq : s.uart.pioIrq.isSome
    · exact pinFollows_of_step (b := .rxDone) (by simp [wireActs, hirq]) (if_pos h.inited)
        (h.rxDone ht rfl (status_isrPio00 hirq)) rfl
    · have hsame : isrPio00 s.uart = s.uart := by
        rw [isrPio00, Option.not_isSome_iff_eq_none.mp hirq]
      refine h.keep ht ?_ (by simp [wireActs, hirq]) rfl
      rw [hsame]
  | dmaRxComplete =>
    obtain ⟨u, hu, rfl⟩ := Option.map_eq_some_iff.mp hst
    unfold JdPico.dmaRxComplete at hu
    split_ifs at hu
    obtain rfl := Option.some.inj hu
    exact h.keep ht rfl rfl rfl
  | dmaTxComplete =>
    obtain ⟨u, hu, rfl⟩ := Option.map_eq_some_iff.mp hst
    unfold JdPico.dmaTxComplete at hu
    split_ifs at hu
    obtain rfl := Option.some.inj hu
    exact h.keep ht rfl rfl rfl
  | dma =>
    obtain rfl := Option.some.inj hst
    exact h.dma ht
  | timeout =>
    simp only [step] at hst
    split_ifs at hst with hrx
    obtain rfl := Option.some.inj hst
    have hwrx : w.status = .rx := h.rx_iff.mpr hrx
    refine pinFollows_of_step (b := .uartDisable) rfl ?_
      (.of_uartDisable h.jacdacPin h.inited ht ?_) rfl
    · exact if_pos ⟨h.inited, by simp [hwrx]⟩
    · simp [pinStatus, JdPico.uartDisable, uartRelease]

/-- Every step of the board. -/
lemma OnPin.board (h : OnPin jacdacPin s w) (hwin : s.BoardNoEndInWindow a)
    (hst : s.boardStep jacdacPin a = some t) : PinFollows jacdacPin s a t w := by
  have hduplex := halfDuplex_of_phase h.phase
  cases a with
  | line a => exact h.line hwin hst
  | txLevel level =>
    simp only [boardStep] at hst
    split_ifs at hst with hsm
    obtain rfl := Option.some.inj hst
    have hne : s.pc ≠ .claimed := by
      intro hpc
      exact nomatch hsm.symm.trans (h.preparing hpc).smtx
    have hwtx : w.status = .tx :=
      h.status.trans ((pinStatus_of_ne hne).trans (hduplex.smtx hsm))
    exact pinFollows_of_step (b := .txLevel level) rfl (if_pos (h.txEnabled hwtx))
      ⟨h.phase, h.jacdacPin, h.inited, h.status, h.txEnabled, h.rxEnabled⟩ rfl
  | rxSide gpio level =>
    simp only [boardStep] at hst
    split_ifs at hst with hsm
    obtain rfl := Option.some.inj hst
    have hwrx : w.status = .rx := h.rx_iff.mpr (hduplex.smrx hsm.1)
    exact pinFollows_of_step (b := .rxSide gpio level) rfl (if_pos ⟨h.rxEnabled hwrx, hsm.2⟩)
      ⟨h.phase, h.jacdacPin, h.inited, h.status, h.txEnabled, h.rxEnabled⟩ rfl
  | other c =>
    simp only [boardStep] at hst
    split_ifs at hst with hpin
    obtain rfl := Option.some.inj hst
    exact pinFollows_of_step (b := .other c) rfl (if_neg (h.jacdacPin ▸ hpin))
      ⟨h.phase, h.jacdacPin, h.inited, h.status, h.txEnabled, h.rxEnabled⟩ rfl

end LineState

open LineState

/-- **The driver on the line.**  In every run of the driver after `uart_init_`, with its interrupts
between any two statements of `uart_start_tx`, in which no reception ends between `exti_disable` and
the test of `uart_status`: the writes to the pin go through, the line is driven exactly from the
probe of a transmission to the end of its `tx_handler`, and what is driven are the pulses of
`uart_start_tx` and `tx_handler` and the levels of the transmitter in between. -/
theorem line_drives (jacdacPin : Fin 30) (txPinctrl rxPinctrl : BitVec 32) (acts : List BoardAct)
    (s : LineState) (hrun : exec (boardStep jacdacPin) .initial acts = some s)
    (hwin : AllSteps (boardStep jacdacPin) BoardNoEndInWindow .initial acts) :
    ∃ w, exec Wire.step (.initial jacdacPin) (.uartInit txPinctrl rxPinctrl ::
        outputs (boardStep jacdacPin) wireActs .initial acts) = some w ∧
      (w.view.driven.isSome ↔ s.pinStatus = .tx) ∧
      w.seen.destutter' (· ≠ ·) none =
        ([some true, none, some true, none] ++
          outputs (boardStep jacdacPin) drives .initial acts).destutter' (· ≠ ·) none := by
  have hinit : OnPin jacdacPin .initial ((Wire.initial jacdacPin).uartInit txPinctrl rxPinctrl) :=
    .of_uartDisable rfl rfl (.inl ⟨rfl, rfl, rfl, rfl, ⟨rfl, rfl, rfl⟩⟩) rfl
  have hfollows : ∀ s a t w, OnPin jacdacPin s w → s.BoardNoEndInWindow a →
      s.boardStep jacdacPin a = some t → PinFollows jacdacPin s a t w :=
    fun s a t w h hwin hst => h.board hwin hst
  obtain ⟨w, hw, hon, houts⟩ := exec_simulates_of_allSteps hfollows hinit hwin hrun
  have hrun' : exec Wire.step (.initial jacdacPin) (.uartInit txPinctrl rxPinctrl ::
      outputs (boardStep jacdacPin) wireActs .initial acts) = some w :=
    exec_cons.mpr ⟨_, rfl, hw⟩
  obtain ⟨hsame, hphase⟩ := Wire.sameChanges_of_exec hrun'
  refine ⟨w, hrun', ?_, ?_⟩
  · rw [← hon.status]
    exact hphase.isSome_driven_iff
  · rw [hsame.changes, ← houts]
    rfl

/-- A transmission that gives way to a reception, and one that sends a start bit. -/
def givesWay (gpio : Fin 30) : List BoardAct :=
  [.line .call, .line (.exti true), .line (.tx true true), .rxSide gpio true,
    .line (.tx true true), .line .rxBreak, .line .pio, .line .dma, .line .call,
    .line (.tx true true), .line (.tx true true), .line (.tx true true), .line (.tx true true),
    .line (.tx true true), .line (.tx true true), .txLevel true, .txLevel false, .txLevel true,
    .line (.tx true true), .line (.tx true true), .line (.tx true true), .line .dmaTxComplete,
    .line .dma]

/-- The reception does not show on the line, and the transmission does. -/
theorem line_drives_gives_way :
    ∃ s w, exec (boardStep 9) .initial (givesWay 0) = some s ∧
      exec Wire.step (.initial 9)
        (.uartInit 0 0 :: outputs (boardStep 9) wireActs .initial (givesWay 0)) = some w ∧
      s.pinStatus = .idle ∧ w.view.driven.isSome = false ∧
      w.seen.destutter' (· ≠ ·) none = [none, some true, none, some true, none, some false,
        some true, some false, some true, some false, some true, none] := by
  have hstatus : (exec (boardStep 9) .initial (givesWay 0)).map pinStatus = some .idle := by
    decide +kernel
  obtain ⟨s, hs, hidle⟩ := Option.map_eq_some_iff.mp hstatus
  obtain ⟨w, hrun, hdriven, hseen⟩ := line_drives 9 0 0 (givesWay 0) s hs (by decide +kernel)
  refine ⟨s, w, hs, hrun, hidle, ?_, hseen.trans (by decide +kernel)⟩
  rw [← Bool.not_eq_true, hdriven, hidle]
  decide

end JdPico
