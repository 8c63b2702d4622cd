import JdPico.Uart.Model

/-!
# Half-duplex use of the line

`uart_start_tx` runs below the interrupts of the line and may be interrupted by them between any
two of its statements.  It disables the falling edge interrupt first and then looks at
`uart_status`: if a reception has started before, it gives up, and the end of the reception
enables the interrupt again.

This leaves a window.  A reception that ends between the two statements enables the falling edge
interrupt and clears the status, and `uart_start_tx` goes on to transmit with the interrupt enabled;
it is then hit by the falling edge it makes itself.  We show that in every run in which no reception
ends in that window the two state machines are used one at a time and under the right status, the
falling edge interrupt stays disabled while the driver transmits, an idle driver listens, and the
assertion in `uart_start_tx` holds (`line_half_duplex`).

The interrupts, and the timeout of a reception, are single steps; nothing is assumed about the order
in which pending interrupts are taken.
-/

namespace JdPico

open Machine

/-- Where `uart_start_tx` is. -/
inductive TxPc where
  /-- Not running. -/
  | out
  /-- Called: neither direction was active when jacdac-c looked. -/
  | called
  /-- After `exti_disable`, before the test of `uart_status`. -/
  | extiOff
  /-- No reception was seen; before the assertion. -/
  | tested
  /-- After `uart_status = STATUS_TX`, before the line is probed. -/
  | claimed
  /-- The line is pulled low for the start pulse. -/
  | driving
  /-- After `jd_tx_arm_pin`. -/
  | armed
  /-- After the TX state machine is enabled. -/
  | smOn
  /-- After `dma_set_ch_cb`. -/
  | registered
  /-- After the transfer is started, before the return. -/
  | started
  deriving DecidableEq, Repr

/-- The driver together with `uart_start_tx`. -/
structure LineState where
  uart : UartState
  pc : TxPc
  deriving DecidableEq, Repr

/-- The steps of the system. -/
inductive LineAction where
  /-- jacdac-c sees neither direction active and calls `uart_start_tx`. -/
  | call
  /-- `uart_start_tx` goes on to its next step; `free` is the level of the line when it is probed,
  `high` the result of `uart_wait_high`. -/
  | tx (free high : Bool)
  /-- The falling edge interrupt is taken; `high` is the result of `uart_wait_high`. -/
  | exti (high : Bool)
  /-- The RX state machine sees a break. -/
  | rxBreak
  /-- The PIO interrupt is taken. -/
  | pio
  /-- The RX transfer completes. -/
  | dmaRxComplete
  /-- The TX transfer completes. -/
  | dmaTxComplete
  /-- The DMA interrupt is taken. -/
  | dma
  /-- The reception times out. -/
  | timeout

namespace LineState

/-- The next step of `uart_start_tx`; `none` if an assertion fails. -/
def uartStartTx (free high : Bool) (s : LineState) : Option LineState :=
  match s.pc with
  | .out => none
  | .called => some ⟨{ s.uart with exti := false }, .extiOff⟩
  | .extiOff => if s.uart.status = .rx then some ⟨s.uart, .out⟩ else some ⟨s.uart, .tested⟩
  | .tested =>
    if s.uart.status = .idle then some ⟨{ s.uart with status := .tx }, .claimed⟩ else none
  | .claimed =>
    -- the line is low already: somebody else transmits, and interrupts are masked for the reception
    if free then some ⟨s.uart, .driving⟩
    else (jdLineFalling high s.uart).map fun u => ⟨u, .out⟩
  | .driving => some ⟨s.uart, .armed⟩
  | .armed => some ⟨{ s.uart with smtx := true }, .smOn⟩
  | .smOn => (s.uart.dmaTx.setChCb).map fun c => ⟨{ s.uart with dmaTx := c }, .registered⟩
  | .registered => some ⟨{ s.uart with dmaTx := s.uart.dmaTx.start 0 }, .started⟩
  | .started => some ⟨s.uart, .out⟩

/-- The state after `uart_init_`. -/
def initial : LineState := ⟨.initial, .out⟩

/-- One step of the system; `none` if it is not possible or an assertion fails. -/
def step (s : LineState) : LineAction → Option LineState
  | .call => if s.pc = .out ∧ s.uart.status = .idle then some ⟨s.uart, .called⟩ else none
  | .tx free high => s.uartStartTx free high
  | .exti high =>
    if s.uart.exti then (jdLineFalling high s.uart).map fun u => ⟨u, s.pc⟩ else none
  | .rxBreak => (JdPico.rxBreak s.uart).map fun u => ⟨u, s.pc⟩
  | .pio => some ⟨isrPio00 s.uart, s.pc⟩
  | .dmaRxComplete => (JdPico.dmaRxComplete s.uart).map fun u => ⟨u, s.pc⟩
  | .dmaTxComplete => (JdPico.dmaTxComplete s.uart).map fun u => ⟨u, s.pc⟩
  | .dma => some ⟨isrDma0 s.uart, s.pc⟩
  | .timeout => if s.uart.status = .rx then some ⟨uartDisable s.uart, s.pc⟩ else none

/-- The half-duplex property. -/
structure HalfDuplex (s : LineState) : Prop where
  exclusive : ¬(s.uart.smtx = true ∧ s.uart.smrx = true)
  smtx : s.uart.smtx = true → s.uart.status = .tx
  smrx : s.uart.smrx = true → s.uart.status = .rx
  /-- From the moment the line is pulled low, a transmission is not hit by its own edges. -/
  exti : s.uart.status = .tx → s.pc ≠ .claimed → s.uart.exti = false
  /-- The driver is never left deaf. -/
  listening : s.uart.status = .idle → s.pc = .out → s.uart.exti = true
  /-- The assertion in `uart_start_tx` holds. -/
  assertion : s.pc = .tested → s.uart.status = .idle

/-- The step ends the reception in progress: a timeout, the PIO interrupt with the break flag set,
or the DMA interrupt of the RX channel. -/
def EndsReception (s : LineState) : LineAction → Prop
  | .timeout => True
  | .pio => s.uart.pioIrq.isSome
  | .dma => s.uart.dmaRx.ints.isSome ∧ s.uart.dmaRx.handler = true
  | _ => False

/-- No reception ends while `uart_start_tx` is between `exti_disable` and its test of
`uart_status`. -/
def NoEndInWindow (s : LineState) (a : LineAction) : Prop :=
  s.pc = .extiOff → s.uart.status = .rx → ¬s.EndsReception a

instance (s : LineState) : ∀ a, Decidable (s.EndsReception a)
  | .timeout => .isTrue trivial
  | .pio => inferInstanceAs (Decidable (s.uart.pioIrq.isSome = true))
  | .dma => inferInstanceAs (Decidable (s.uart.dmaRx.ints.isSome = true ∧
    s.uart.dmaRx.handler = true))
  | .call | .tx _ _ | .exti _ | .rxBreak | .dmaRxComplete | .dmaTxComplete => .isFalse id

instance (s : LineState) (a : LineAction) : Decidable (s.NoEndInWindow a) :=
  inferInstanceAs (Decidable (s.pc = .extiOff → s.uart.status = .rx → ¬s.EndsReception a))

end LineState

/-! ### The phases of the driver -/

/-- The TX channel is not in use. -/
structure DmaCh.Unused (c : DmaCh) : Prop where
  busy : c.busy = none
  inte : c.inte = false
  handler : c.handler = false

lemma DmaCh.Unused.ints {c : DmaCh} (h : c.Unused) : c.ints = none := by
  simp [DmaCh.ints, h.inte]

lemma DmaCh.Unused.finish {c : DmaCh} (h : c.Unused) : c.finish = c := by
  simp [DmaCh.finish, h.busy]

/-- The part of the state of the driver that the property is about. -/
structure Line where
  status : UartStatus
  exti : Bool
  smtx : Bool
  smrx : Bool
  dmaTx : DmaCh

/-- The part of the state of the driver that the property is about. -/
def UartState.line (u : UartState) : Line := ⟨u.status, u.exti, u.smtx, u.smrx, u.dmaTx⟩

namespace Line

/-- The driver is idle; `exti` says whether it listens. -/
structure Idle (l : Line) (exti : Bool) : Prop where
  status : l.status = .idle
  exti : l.exti = exti
  smtx : l.smtx = false
  smrx : l.smrx = false
  dmaTx : l.dmaTx.Unused

/-- The driver receives. -/
structure Receiving (l : Line) : Prop where
  status : l.status = .rx
  exti : l.exti = false
  smtx : l.smtx = false
  dmaTx : l.dmaTx.Unused

/-- The driver prepares a transmission; `smtx` says whether the state machine is enabled already. -/
structure Preparing (l : Line) (smtx : Bool) : Prop where
  status : l.status = .tx
  exti : l.exti = false
  smtx : l.smtx = smtx
  smrx : l.smrx = false
  dmaTx : l.dmaTx.Unused

/-- The driver waits for the end of a transmission. -/
structure Sending (l : Line) : Prop where
  status : l.status = .tx
  exti : l.exti = false
  smrx : l.smrx = false

/-- The phase of the driver that goes with each step of `uart_start_tx`. -/
def Phase (l : Line) : TxPc → Prop
  | .out => l.Idle true ∨ l.Receiving ∨ l.Sending
  | .called => l.Idle true ∨ l.Receiving
  | .extiOff => l.Idle false ∨ l.Receiving
  | .tested => l.Idle false
  | .claimed => l.Preparing false
  | .driving => l.Preparing false
  | .armed => l.Preparing false
  | .smOn => l.Preparing true
  -- the transfer is not started, so its interrupt is not pending
  | .registered => l.Sending ∧ l.dmaTx.busy = none ∧ l.dmaTx.intr = none
  | .started => l.Idle true ∨ l.Receiving ∨ l.Sending

variable {l : Line} {pc : TxPc}

/-- While the driver receives, `uart_start_tx` has not passed its test. -/
lemma Phase.receiving (h : l.Phase pc) (hrx : l.status = .rx) :
    l.Receiving ∧ (pc = .out ∨ pc = .called ∨ pc = .extiOff ∨ pc = .started) := by
  cases pc with
  | out | started =>
    rcases h with h | h | h
    · simp [h.status] at hrx
    · exact ⟨h, by simp⟩
    · simp [h.status] at hrx
  | called | extiOff =>
    rcases h with h | h
    · simp [h.status] at hrx
    · exact ⟨h, by simp⟩
  | tested => simp [Idle.status h] at hrx
  | claimed | driving | armed | smOn => simp [Preparing.status h] at hrx
  | registered => simp [h.1.status] at hrx

/-- While the falling edge interrupt is enabled, the driver is idle and `uart_start_tx` has not
begun or has started its transfer. -/
lemma Phase.listening (h : l.Phase pc) (hexti : l.exti = true) :
    l.Idle true ∧ (pc = .out ∨ pc = .called ∨ pc = .started) := by
  cases pc with
  | out | started =>
    rcases h with h | h | h
    · exact ⟨h, by simp⟩
    · simp [h.exti] at hexti
    · simp [h.exti] at hexti
  | called =>
    rcases h with h | h
    · exact ⟨h, by simp⟩
    · simp [h.exti] at hexti
  | extiOff =>
    rcases h with h | h
    · simp [h.exti] at hexti
    · simp [h.exti] at hexti
  | tested => simp [Idle.exti h] at hexti
  | claimed | driving | armed | smOn => simp [Preparing.exti h] at hexti
  | registered => simp [h.1.exti] at hexti

/-- The TX channel is only active while a transmission goes on. -/
lemma Phase.sending_or_quiet (h : l.Phase pc) :
    l.dmaTx.ints = none ∧ l.dmaTx.busy = none ∨ l.Sending ∧ (pc = .out ∨ pc = .started) := by
  cases pc with
  | out | started =>
    rcases h with h | h | h
    · exact .inl ⟨h.dmaTx.ints, h.dmaTx.busy⟩
    · exact .inl ⟨h.dmaTx.ints, h.dmaTx.busy⟩
    · exact .inr ⟨h, by simp⟩
  | called | extiOff =>
    rcases h with h | h
    · exact .inl ⟨h.dmaTx.ints, h.dmaTx.busy⟩
    · exact .inl ⟨h.dmaTx.ints, h.dmaTx.busy⟩
  | tested => exact .inl ⟨(Idle.dmaTx h).ints, (Idle.dmaTx h).busy⟩
  | claimed | driving | armed | smOn =>
    exact .inl ⟨(Preparing.dmaTx h).ints, (Preparing.dmaTx h).busy⟩
  | registered => exact .inl ⟨by simp [DmaCh.ints, h.2.2], h.2.1⟩

/-- A listening driver fits all steps but those between `exti_disable` and the start. -/
lemma phase_of_idle (h : l.Idle true) (hpc : pc = .out ∨ pc = .called ∨ pc = .started) :
    l.Phase pc := by
  rcases hpc with rfl | rfl | rfl <;> exact .inl h

/-- A receiving driver fits the same steps. -/
lemma phase_of_receiving (h : l.Receiving) (hpc : pc = .out ∨ pc = .called ∨ pc = .started) :
    l.Phase pc := by
  rcases hpc with rfl | rfl | rfl
  · exact .inr (.inl h)
  · exact .inr h
  · exact .inr (.inl h)

/-- A transmission goes on after `uart_start_tx` has started it. -/
lemma phase_of_sending (h : l.Sending) (hpc : pc = .out ∨ pc = .started) : l.Phase pc := by
  rcases hpc with rfl | rfl <;> exact .inr (.inr h)

/-- A reception that does not end in the window leaves a listening driver. -/
lemma Phase.endReception (h : l.Phase pc) (hrx : l.status = .rx) (hpc : pc ≠ .extiOff) {l' : Line}
    (hidle : l'.Idle true) : l'.Phase pc := by
  rcases h.receiving hrx with ⟨-, hout | hcalled | hoff | hstarted⟩
  · exact phase_of_idle hidle (.inl hout)
  · exact phase_of_idle hidle (.inr (.inl hcalled))
  · exact absurd hoff hpc
  · exact phase_of_idle hidle (.inr (.inr hstarted))

end Line

open Line

variable {u v : UartState}

/-- `uart_disable` leaves a listening driver if the TX channel is not used. -/
lemma idle_uartDisable (h : u.dmaTx.Unused) : (uartDisable u).line.Idle true where
  status := rfl
  exti := rfl
  smtx := rfl
  smrx := rfl
  dmaTx := by
    change u.dmaTx.finish.Unused
    rwa [h.finish]

/-- `jd_line_falling` leaves a receiving or a listening driver if the TX channel is not used. -/
lemma line_jdLineFalling {high : Bool} (hv : jdLineFalling high u = some v) (htx : u.dmaTx.Unused)
    (hsm : u.smtx = false) : v.line.Receiving ∨ v.line.Idle true := by
  unfold jdLineFalling at hv
  split_ifs at hv
  · obtain ⟨-, rfl⟩ := uartStartRx_eq_some hv
    exact .inl ⟨rfl, rfl, hsm, htx⟩
  · exact .inr (Option.some.inj hv ▸ idle_uartDisable htx)

/-- During a reception, the PIO interrupt does nothing or ends the reception. -/
lemma line_isrPio00 (h : u.line.Receiving) :
    (isrPio00 u).line = u.line ∨ u.pioIrq.isSome ∧ (isrPio00 u).line.Idle true := by
  unfold isrPio00
  cases u.pioIrq with
  | none => exact .inl rfl
  | some cause =>
    have hrx : u.status = .rx := h.status
    refine .inr ⟨rfl, ?_⟩
    simp only [rxDone, hrx, if_true]
    exact idle_uartDisable (u := { u with pioIrq := none, status := .idle }) h.dmaTx

/-- During a reception, the DMA interrupt does nothing or ends the reception. -/
lemma line_isrDma0 (h : u.line.Receiving) :
    (isrDma0 u).line = u.line ∨
      (u.dmaRx.ints.isSome ∧ u.dmaRx.handler = true) ∧ (isrDma0 u).line.Idle true := by
  have hrx : u.status = .rx := h.status
  have htx : u.dmaTx.Unused := h.dmaTx
  simp only [isrDma0, htx.ints, DmaCh.clear_of_ints_none htx.ints, serviceTx]
  cases hints : u.dmaRx.ints with
  | none => exact .inl rfl
  | some cause =>
    simp only [serviceRx, DmaCh.clear_handler]
    split_ifs with hh
    · refine .inr ⟨⟨rfl, hh⟩, ?_⟩
      simp only [rxDone, hrx, if_true]
      exact idle_uartDisable (u := { u with dmaRx := u.dmaRx.clear.release, status := .idle }) htx
    · exact .inl rfl

/-- The handler of a transmission ends it. -/
lemma idle_txHandler (u : UartState) : (txHandler { u with dmaTx := u.dmaTx.release }).line.Idle
    true where
  status := rfl
  exti := rfl
  smtx := rfl
  smrx := rfl
  dmaTx := by
    change u.dmaTx.release.finish.Unused
    refine ⟨DmaCh.finish_busy _, ?_, ?_⟩ <;> unfold DmaCh.finish <;> split <;> rfl

/-- During a transmission, the DMA interrupt lets it go on or ends it. -/
lemma line_isrDma0_sending (h : u.line.Sending) :
    (isrDma0 u).line.Sending ∨ (isrDma0 u).line.Idle true := by
  have hne : u.status ≠ .rx := fun hrx => nomatch hrx.symm.trans h.status
  obtain ⟨c, hc⟩ := serviceRx_of_ne_rx
    (u := { u with dmaRx := u.dmaRx.clear, dmaTx := u.dmaTx.clear }) hne u.dmaRx.ints
  simp only [isrDma0, hc]
  unfold serviceTx
  cases u.dmaTx.ints with
  | none => exact .inl ⟨h.status, h.exti, h.smrx⟩
  | some k =>
    dsimp only
    split_ifs
    · exact .inr (idle_txHandler { u with dmaRx := c, dmaTx := u.dmaTx.clear })
    · exact .inl ⟨h.status, h.exti, h.smrx⟩

/-! ### The steps -/

namespace LineState

/-- `uart_start_tx` keeps to its phases. -/
lemma phase_uartStartTx {s t : LineState} {free high : Bool} (h : s.uart.line.Phase s.pc)
    (ht : s.uartStartTx free high = some t) : t.uart.line.Phase t.pc := by
  unfold uartStartTx at ht
  cases hpc : s.pc with
  | out => simp [hpc] at ht
  | called =>
    simp only [hpc, Option.some.injEq] at ht h
    subst ht
    rcases h with h | h
    · exact .inl ⟨h.status, rfl, h.smtx, h.smrx, h.dmaTx⟩
    · exact .inr ⟨h.status, rfl, h.smtx, h.dmaTx⟩
  | extiOff =>
    simp only [hpc] at ht h
    split_ifs at ht with hrx
    · obtain rfl := Option.some.inj ht
      exact .inr (.inl (h.resolve_left fun hidle => nomatch hrx.symm.trans hidle.status))
    · obtain rfl := Option.some.inj ht
      exact h.resolve_right fun hrec => hrx hrec.status
  | tested =>
    simp only [hpc] at ht h
    split_ifs at ht
    obtain rfl := Option.some.inj ht
    exact ⟨rfl, h.exti, h.smtx, h.smrx, h.dmaTx⟩
  | claimed =>
    simp only [hpc] at ht h
    split_ifs at ht
    · obtain rfl := Option.some.inj ht
      exact h
    · obtain ⟨u, hu, rfl⟩ := Option.map_eq_some_iff.mp ht
      rcases line_jdLineFalling hu h.dmaTx h.smtx with hrec | hidle
      · exact .inr (.inl hrec)
      · exact .inl hidle
  | driving =>
    simp only [hpc, Option.some.injEq] at ht h
    exact ht ▸ h
  | armed =>
    simp only [hpc, Option.some.injEq] at ht h
    exact ht ▸ ⟨h.status, h.exti, rfl, h.smrx, h.dmaTx⟩
  | smOn =>
    simp only [hpc] at ht h
    obtain ⟨c, hc, rfl⟩ := Option.map_eq_some_iff.mp ht
    unfold DmaCh.setChCb at hc
    split_ifs at hc
    obtain rfl := Option.some.inj hc
    exact ⟨⟨h.status, h.exti, h.smrx⟩, h.dmaTx.busy, rfl⟩
  | registered =>
    simp only [hpc, Option.some.injEq] at ht h
    exact ht ▸ .inr (.inr ⟨h.1.status, h.1.exti, h.1.smrx⟩)
  | started =>
    simp only [hpc, Option.some.injEq] at ht h
    exact ht ▸ h

/-- Every step outside of the window keeps the driver in a phase that goes with `uart_start_tx`. -/
lemma step_phase (s : LineState) (a : LineAction) (t : LineState) (h : s.uart.line.Phase s.pc)
    (hwin : s.NoEndInWindow a) (ht : s.step a = some t) : t.uart.line.Phase t.pc := by
  cases a with
  | call =>
    simp only [step] at ht
    split_ifs at ht with hcall
    obtain ⟨hout, hidle⟩ := hcall
    obtain rfl := Option.some.inj ht
    rw [hout] at h
    rcases h with h | h | h
    · exact .inl h
    · exact .inr h
    · exact nomatch hidle.symm.trans h.status
  | tx free high => exact phase_uartStartTx h ht
  | exti high =>
    simp only [step] at ht
    split_ifs at ht with hexti
    obtain ⟨u, hu, rfl⟩ := Option.map_eq_some_iff.mp ht
    obtain ⟨hidle, hpc⟩ := h.listening hexti
    rcases line_jdLineFalling hu hidle.dmaTx hidle.smtx with hrec | hidle
    · exact phase_of_receiving hrec hpc
    · exact phase_of_idle hidle hpc
  | rxBreak =>
    obtain ⟨u, hu, rfl⟩ := Option.map_eq_some_iff.mp ht
    unfold JdPico.rxBreak at hu
    split_ifs at hu
    exact Option.some.inj hu ▸ h
  | pio =>
    obtain rfl := Option.some.inj ht
    by_cases hrx : s.uart.status = .rx
    · rcases line_isrPio00 (h.receiving hrx).1 with hsame | ⟨hirq, hidle⟩
      · exact hsame ▸ h
      · exact h.endReception hrx (fun hpc => hwin hpc hrx hirq) hidle
    · simp only [isrPio00_of_ne_rx hrx]
      exact h
  | dmaRxComplete =>
    obtain ⟨u, hu, rfl⟩ := Option.map_eq_some_iff.mp ht
    unfold JdPico.dmaRxComplete at hu
    split_ifs at hu
    exact Option.some.inj hu ▸ h
  | dmaTxComplete =>
    obtain ⟨u, hu, rfl⟩ := Option.map_eq_some_iff.mp ht
    unfold JdPico.dmaTxComplete at hu
    split_ifs at hu with hbusy
    obtain rfl := Option.some.inj hu
    rcases h.sending_or_quiet with ⟨-, hnone⟩ | ⟨hsend, hpc⟩
    · exact absurd hbusy (by simp [show s.uart.dmaTx.busy = none from hnone])
    · exact phase_of_sending ⟨hsend.status, hsend.exti, hsend.smrx⟩ hpc
  | dma =>
    obtain rfl := Option.some.inj ht
    by_cases hrx : s.uart.status = .rx
    · rcases line_isrDma0 (h.receiving hrx).1 with hsame | ⟨hirq, hidle⟩
      · exact hsame ▸ h
      · exact h.endReception hrx (fun hpc => hwin hpc hrx hirq) hidle
    · rcases h.sending_or_quiet with ⟨hints, -⟩ | ⟨hsend, hpc⟩
      · obtain ⟨c, hc⟩ := isrDma0_of_ne_rx hrx hints
        simp only [hc]
        exact h
      · rcases line_isrDma0_sending hsend with hsend | hidle
        · exact phase_of_sending hsend hpc
        · exact phase_of_idle hidle (hpc.imp_right .inr)
  | timeout =>
    simp only [step] at ht
    split_ifs at ht with hrx
    obtain rfl := Option.some.inj ht
    exact h.endReception hrx (fun hpc => hwin hpc hrx trivial)
      (idle_uartDisable (h.receiving hrx).1.dmaTx)

/-! ### The property -/

variable {s : LineState}

lemma halfDuplex_of_idle {exti : Bool} (h : s.uart.line.Idle exti)
    (hexti : s.pc = .out → exti = true) :
    s.HalfDuplex where
  exclusive hboth := nomatch hboth.1.symm.trans h.smtx
  smtx hsm := nomatch hsm.symm.trans h.smtx
  smrx hsm := nomatch hsm.symm.trans h.smrx
  exti htx := nomatch htx.symm.trans h.status
  listening _ hpc := h.exti.trans (hexti hpc)
  assertion _ := h.status

lemma halfDuplex_of_receiving (h : s.uart.line.Receiving) (hpc : s.pc ≠ .tested) :
    s.HalfDuplex where
  exclusive hboth := nomatch hboth.1.symm.trans h.smtx
  smtx hsm := nomatch hsm.symm.trans h.smtx
  smrx _ := h.status
  exti htx := nomatch htx.symm.trans h.status
  listening hidle := nomatch hidle.symm.trans h.status
  assertion htested := absurd htested hpc

lemma halfDuplex_of_sending (h : s.uart.line.Sending) (hpc : s.pc ≠ .tested) : s.HalfDuplex where
  exclusive hboth := nomatch hboth.2.symm.trans h.smrx
  smtx _ := h.status
  smrx hsm := nomatch hsm.symm.trans h.smrx
  exti _ _ := h.exti
  listening hidle := nomatch hidle.symm.trans h.status
  assertion htested := absurd htested hpc

/-- The phases have the half-duplex property. -/
lemma halfDuplex_of_phase (h : s.uart.line.Phase s.pc) : s.HalfDuplex := by
  cases hpc : s.pc with
  | out | started =>
    rw [hpc] at h
    rcases h with h | h | h
    · exact halfDuplex_of_idle h fun _ => rfl
    · exact halfDuplex_of_receiving h (by simp [hpc])
    · exact halfDuplex_of_sending h (by simp [hpc])
  | called =>
    rw [hpc] at h
    rcases h with h | h
    · exact halfDuplex_of_idle h fun _ => rfl
    · exact halfDuplex_of_receiving h (by simp [hpc])
  | extiOff =>
    rw [hpc] at h
    rcases h with h | h
    · exact halfDuplex_of_idle h (by simp [hpc])
    · exact halfDuplex_of_receiving h (by simp [hpc])
  | tested =>
    rw [hpc] at h
    exact halfDuplex_of_idle h (by simp [hpc])
  | claimed | driving | armed | smOn =>
    rw [hpc] at h
    exact halfDuplex_of_sending ⟨h.status, h.exti, h.smrx⟩ (by simp [hpc])
  | registered =>
    rw [hpc] at h
    exact halfDuplex_of_sending h.1 (by simp [hpc])

end LineState

open LineState

/-- **Half-duplex use of the line.**  In every run in which no reception ends between `exti_disable`
and the test of `uart_status` in `uart_start_tx`, every state has the half-duplex property. -/
theorem line_half_duplex (as : List LineAction) (s : LineState)
    (hrun : exec LineState.step .initial as = some s)
    (hwin : AllSteps LineState.step NoEndInWindow .initial as) : s.HalfDuplex := by
  have hinit : LineState.initial.uart.line.Phase LineState.initial.pc :=
    .inl ⟨rfl, rfl, rfl, rfl, ⟨rfl, rfl, rfl⟩⟩
  exact halfDuplex_of_phase
    (exec_inv_of_allSteps (P := fun s => s.uart.line.Phase s.pc) step_phase hinit hwin hrun)

/-- A transmission that gives way to a reception, and one that is completed. -/
theorem line_half_duplex_two_calls :
    ∃ s, exec LineState.step .initial
        [.call, .exti true, .tx true true, .tx true true, .rxBreak, .pio, .dma, .call,
          .tx true true, .tx true true, .tx true true, .tx true true, .tx true true,
          .tx true true, .tx true true, .tx true true, .tx true true, .dmaTxComplete, .dma] =
        some s ∧ s.HalfDuplex ∧ s.uart.log = [.txCompleted, .rxCompleted 1 1] :=
  ⟨_, rfl, line_half_duplex [.call, .exti true, .tx true true, .tx true true, .rxBreak, .pio,
    .dma, .call, .tx true true, .tx true true, .tx true true, .tx true true, .tx true true,
    .tx true true, .tx true true, .tx true true, .tx true true, .dmaTxComplete, .dma]
    _ rfl (by decide), rfl⟩

/-- A reception that ends between `exti_disable` and the test: the line is pulled low with the
falling edge interrupt enabled, and in the end both state machines are enabled. -/
theorem line_not_half_duplex :
    (∃ s, exec LineState.step .initial
        [.call, .exti true, .tx true true, .rxBreak, .pio, .dma, .tx true true, .tx true true,
          .tx true true] = some s ∧
      s.uart.status = .tx ∧ s.pc = .driving ∧ s.uart.exti = true) ∧
    ∃ s, exec LineState.step .initial
        [.call, .exti true, .tx true true, .rxBreak, .pio, .dma, .tx true true, .tx true true,
          .tx true true, .exti false, .tx true true, .tx true true, .exti true] = some s ∧
      s.uart.status = .rx ∧ s.uart.smtx = true ∧ s.uart.smrx = true :=
  ⟨⟨_, rfl, rfl, rfl, rfl⟩, ⟨_, rfl, rfl, rfl, rfl⟩⟩

end JdPico
