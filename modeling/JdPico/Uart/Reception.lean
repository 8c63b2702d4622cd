import JdPico.Uart.Model

/-!
# One completion for each reception

A reception ends with the break interrupt, with the completion of its DMA transfer, or with a
timeout.  The first two race for every frame, and stopping the driver aborts the transfer, which
raises the completion interrupt once more.  We show that `jd_rx_completed` is nevertheless called
exactly once for a reception that is ended by an interrupt and never for one that is ended by a
timeout, always by an interrupt of that reception, and that the handler slot is empty when the next
one starts (`rx_completed_once`).

What makes it work is that the falling edge interrupt has the same priority as the DMA interrupt and
the higher number, so a pending completion is always served, and its slot cleared, before the next
reception can start.  Nothing is assumed about when the PIO interrupt is served.

The timeout runs below the interrupts, so they may come between the two parts of its `uart_disable`.
-/

namespace JdPico

open Machine

/-- The driver while it receives; `timingOut` says that a timeout has cleared `uart_status` and not
done the rest of `uart_disable`. -/
structure RxState where
  uart : UartState
  timingOut : Bool
  deriving DecidableEq, Repr

/-- The steps of the system. -/
inductive RxAction where
  /-- The falling edge interrupt is taken; `high` is the result of `uart_wait_high`. -/
  | exti (high : Bool)
  /-- The RX state machine sees a break. -/
  | rxBreak
  /-- The PIO interrupt is taken. -/
  | pio
  /-- The RX transfer fills its buffer. -/
  | dmaComplete
  /-- The DMA interrupt is taken. -/
  | dma
  /-- A timeout enters `uart_disable`. -/
  | timeout
  /-- The timeout goes on to the masked part of `uart_disable`. -/
  | release

namespace RxState

/-- The falling edge interrupt can be taken: it is enabled, and the DMA interrupt, which goes first,
is not pending. -/
def extiReady (s : RxState) : Bool := s.uart.exti && s.uart.dmaRx.ints.isNone

/-- The state after `uart_init_`. -/
def initial : RxState := ⟨.initial, false⟩

/-- One step of the system; `none` if it is not possible or an assertion fails. -/
def step (s : RxState) : RxAction → Option RxState
  | .exti high =>
    if s.extiReady then (jdLineFalling high s.uart).map fun u => { s with uart := u } else none
  | .rxBreak => (JdPico.rxBreak s.uart).map fun u => { s with uart := u }
  | .pio => some { s with uart := isrPio00 s.uart }
  | .dmaComplete => (dmaRxComplete s.uart).map fun u => { s with uart := u }
  | .dma => some { s with uart := isrDma0 s.uart }
  | .timeout =>
    -- a timeout is only set up for a reception, and cancelled when it is completed
    if s.uart.status = .rx then
      some ⟨{ s.uart with
        status := .idle, log := .rxTimeout s.uart.receptions :: s.uart.log }, true⟩
    else none
  | .release => if s.timingOut then some ⟨uartRelease s.uart, false⟩ else none

end RxState

/-! ### Counting completions -/

/-- The number of times `jd_rx_completed` was called during the reception `k`. -/
def completions (log : List UartEvent) (k : ℕ) : ℕ :=
  log.countP fun e =>
    match e with
    | .rxCompleted n _ => n = k
    | _ => false

/-- The reception has ended as it should: completed once, or not at all if a timeout ended it. -/
def Accounted (log : List UartEvent) (k : ℕ) : Prop :=
  completions log k = if .rxTimeout k ∈ log then 0 else 1

/-- Nothing has happened for the reception yet. -/
def Fresh (log : List UartEvent) (k : ℕ) : Prop :=
  completions log k = 0 ∧ .rxTimeout k ∉ log

variable {log : List UartEvent} {k n : ℕ}

lemma completions_cons_self (cause : ℕ) :
    completions (.rxCompleted k cause :: log) k = completions log k + 1 := by
  simp [completions]

lemma completions_cons_ne (cause : ℕ) (h : n ≠ k) :
    completions (.rxCompleted n cause :: log) k = completions log k := by
  simp [completions, h]

lemma completions_cons_rxTimeout : completions (.rxTimeout n :: log) k = completions log k := by
  simp [completions]

/-- A completion accounts for its reception. -/
lemma Fresh.completed (h : Fresh log k) (cause : ℕ) :
    Accounted (.rxCompleted k cause :: log) k := by
  rw [Accounted, completions_cons_self, h.1, if_neg (by simpa using h.2)]

/-- A timeout accounts for its reception. -/
lemma Fresh.rxTimeout (h : Fresh log k) : Accounted (.rxTimeout k :: log) k := by
  rw [Accounted, completions_cons_rxTimeout, h.1, if_pos (by simp)]

/-- The end of a reception says nothing about another one. -/
lemma accounted_cons_completed (h : n ≠ k) (cause : ℕ) :
    Accounted (.rxCompleted n cause :: log) k ↔ Accounted log k := by
  simp [Accounted, completions_cons_ne cause h]

lemma accounted_cons_rxTimeout (h : n ≠ k) :
    Accounted (.rxTimeout n :: log) k ↔ Accounted log k := by
  simp [Accounted, completions_cons_rxTimeout, h.symm]

lemma fresh_cons_completed (h : n ≠ k) (cause : ℕ) :
    Fresh (.rxCompleted n cause :: log) k ↔ Fresh log k := by
  simp [Fresh, completions_cons_ne cause h]

lemma fresh_cons_rxTimeout (h : n ≠ k) : Fresh (.rxTimeout n :: log) k ↔ Fresh log k := by
  simp [Fresh, completions_cons_rxTimeout, h.symm]

/-! ### The RX channel -/

namespace DmaCh

/-- The state of a channel that is used for the reception `n`: everything on it belongs to that
reception, and a handler waits for a transfer or for its interrupt. -/
structure Serves (c : DmaCh) (n : ℕ) : Prop where
  busy : ∀ k, c.busy = some k → k = n
  intr : ∀ k, c.intr = some k → k = n
  armed : c.handler = true → c.inte = true ∧ (c.busy.isSome ∨ c.intr.isSome)

variable {c : DmaCh} {n : ℕ}

lemma Serves.finish (h : c.Serves n) : c.finish.Serves n := by
  unfold DmaCh.finish
  cases hb : c.busy with
  | none => exact h
  | some k =>
    obtain rfl := h.busy k hb
    exact ⟨by simp, by simp, fun hh => ⟨(h.armed hh).1, .inr rfl⟩⟩

/-- Once the channel has stopped and its interrupt is not pending, its slot is empty. -/
lemma Serves.handler_eq_false (h : c.Serves n) (hbusy : c.busy = none) (hints : c.ints = none) :
    c.handler = false := by
  by_contra hh
  obtain ⟨hinte, hor⟩ := h.armed (by simpa using hh)
  rcases hor with hb | hi
  · simp [hbusy] at hb
  · simp only [ints, hinte, if_true] at hints
    simp [hints] at hi

/-- An interrupt that is served belongs to the reception. -/
lemma Serves.ints (h : c.Serves n) {k : ℕ} (hk : c.ints = some k) : k = n := by
  simp only [DmaCh.ints] at hk
  split_ifs at hk
  exact h.intr k hk

/-- Serving the interrupt empties the slot. -/
lemma Serves.release (h : c.Serves n) : c.clear.release.Serves n := by
  unfold clear DmaCh.release
  split_ifs
  · exact ⟨h.busy, by simp, by simp⟩
  · exact ⟨h.busy, h.intr, by simp⟩

lemma Serves.clear_of_handler (h : c.Serves n) (hh : c.handler = false) : c.clear.Serves n := by
  unfold clear
  split_ifs
  · exact ⟨h.busy, by simp, by simp [hh]⟩
  · exact h

end DmaCh

/-! ### The invariant -/

/-- All receptions that have ended are accounted for, and nothing has happened for the others. -/
structure UartState.Counted (u : UartState) : Prop where
  ended : ∀ k, 1 ≤ k → k ≤ u.receptions → (k = u.receptions → u.status ≠ .rx) → Accounted u.log k
  fresh : ∀ k, u.receptions < k ∨ k = u.receptions ∧ u.status = .rx → Fresh u.log k
  own : ∀ n cause, .rxCompleted n cause ∈ u.log → cause = n

/-- The invariant of the driver while it receives.  The falling edge interrupt is only enabled when
the driver is idle and its channel has stopped. -/
structure UartState.RxInv (u : UartState) : Prop extends UartState.Counted u where
  dmaTx : u.dmaTx = .off
  pioIrq : ∀ k, u.pioIrq = some k → k = u.receptions
  dmaRx : u.dmaRx.Serves u.receptions
  exti : u.exti = true → u.status ≠ .rx ∧ u.dmaRx.busy = none

namespace UartState

variable {u : UartState}

lemma RxInv.initial : RxInv initial where
  ended k hk hle := absurd hle (by simp [UartState.initial]; omega)
  fresh k _ := by simp [Fresh, completions, UartState.initial]
  own n cause h := by simp [UartState.initial] at h
  dmaTx := rfl
  pioIrq k h := by simp [UartState.initial] at h
  dmaRx := ⟨by simp [UartState.initial, DmaCh.off], by simp [UartState.initial, DmaCh.off],
    by simp [UartState.initial, DmaCh.off]⟩
  exti _ := ⟨by simp [UartState.initial], rfl⟩

/-- The masked part of `uart_disable`, in an idle state. -/
lemma RxInv.uartRelease (h : RxInv u) (hidle : u.status ≠ .rx) : RxInv (uartRelease u) where
  ended := h.ended
  fresh := h.fresh
  own := h.own
  dmaTx := by simp [JdPico.uartRelease, h.dmaTx, DmaCh.off, DmaCh.finish]
  pioIrq := h.pioIrq
  dmaRx := h.dmaRx.finish
  exti _ := ⟨hidle, DmaCh.finish_busy _⟩

/-- `uart_disable` in an idle state. -/
lemma RxInv.uartDisable (h : RxInv u) (hidle : u.status ≠ .rx) : RxInv (uartDisable u) := by
  have hset : RxInv { u with status := .idle } :=
    ⟨⟨fun k hk hle _ => h.ended k hk hle fun _ => hidle,
      fun k hk => h.fresh k (.inl (hk.resolve_right (by simp))), h.own⟩, h.dmaTx, h.pioIrq, h.dmaRx,
      fun hexti => ⟨by simp, (h.exti hexti).2⟩⟩
  exact hset.uartRelease (by simp)

/-- The end of a reception: the status is cleared and its end is logged. -/
lemma RxInv.endReception (h : RxInv u) (hrx : u.status = .rx) (e : UartEvent)
    (he : e = .rxTimeout u.receptions ∨ e = .rxCompleted u.receptions u.receptions) :
    RxInv { u with status := .idle, log := e :: u.log } where
  ended k hk hle _ := by
    by_cases hcur : k = u.receptions
    · have hfresh := h.fresh u.receptions (.inr ⟨rfl, hrx⟩)
      rw [hcur]
      rcases he with rfl | rfl
      · exact hfresh.rxTimeout
      · exact hfresh.completed _
    · have hpast := h.ended k hk hle fun hk => absurd hk hcur
      rcases he with rfl | rfl
      · exact (accounted_cons_rxTimeout (Ne.symm hcur)).mpr hpast
      · exact (accounted_cons_completed (Ne.symm hcur) _).mpr hpast
  fresh k hk := by
    have hlt : u.receptions < k := hk.resolve_right (by simp)
    have hfresh := h.fresh k (.inl hlt)
    rcases he with rfl | rfl
    · exact (fresh_cons_rxTimeout (by omega)).mpr hfresh
    · exact (fresh_cons_completed (by omega) _).mpr hfresh
  own n cause hmem := by
    rcases List.mem_cons.mp hmem with heq | hmem
    · rcases he with rfl | rfl
      · exact nomatch heq
      · obtain ⟨rfl, rfl⟩ := UartEvent.rxCompleted.inj heq
        rfl
    · exact h.own n cause hmem
  dmaTx := h.dmaTx
  pioIrq := h.pioIrq
  dmaRx := h.dmaRx
  exti hexti := absurd hrx (h.exti hexti).1

/-- `rx_done` for an interrupt of the current reception. -/
lemma RxInv.rxDone (h : RxInv u) {cause : ℕ} (hcause : cause = u.receptions) :
    RxInv (rxDone cause u) := by
  unfold JdPico.rxDone
  split_ifs with hrx
  · subst hcause
    exact (h.endReception hrx _ (.inr rfl)).uartRelease (by simp)
  · exact h

/-- `isr_pio0_0` completes the reception that raised the flag. -/
lemma RxInv.isrPio00 (h : RxInv u) : RxInv (isrPio00 u) := by
  unfold JdPico.isrPio00
  cases hirq : u.pioIrq with
  | none => exact h
  | some cause =>
    have hcleared : RxInv { u with pioIrq := none } :=
      ⟨⟨h.ended, h.fresh, h.own⟩, h.dmaTx, by simp, h.dmaRx, h.exti⟩
    exact hcleared.rxDone (h.pioIrq cause hirq)

/-- The TX channel is not used. -/
lemma RxInv.dmaTx_ints (h : RxInv u) : u.dmaTx.ints = none := by
  simp [h.dmaTx, DmaCh.off, DmaCh.ints]

/-- `isr_dma_0` completes the reception whose transfer raised the interrupt, if its handler is still
there. -/
lemma RxInv.isrDma0 (h : RxInv u) : RxInv (isrDma0 u) := by
  have htx := h.dmaTx_ints
  simp only [JdPico.isrDma0, htx, DmaCh.clear_of_ints_none htx, serviceTx]
  cases hints : u.dmaRx.ints with
  | none =>
    rw [DmaCh.clear_of_ints_none hints]
    exact h
  | some cause =>
    simp only [serviceRx, DmaCh.clear_handler]
    split_ifs with hh
    · have hreleased : RxInv { u with dmaRx := u.dmaRx.clear.release } :=
        ⟨⟨h.ended, h.fresh, h.own⟩, h.dmaTx, h.pioIrq, h.dmaRx.release,
          fun hexti => ⟨(h.exti hexti).1, by simpa [DmaCh.release] using (h.exti hexti).2⟩⟩
      exact hreleased.rxDone (h.dmaRx.ints hints)
    · exact ⟨⟨h.ended, h.fresh, h.own⟩, h.dmaTx, h.pioIrq,
        h.dmaRx.clear_of_handler (by simpa using hh),
        fun hexti => ⟨(h.exti hexti).1, by simpa using (h.exti hexti).2⟩⟩

/-- `uart_start_rx` on an idle driver. -/
lemma RxInv.uartStartRx (h : RxInv u) (hidle : u.status ≠ .rx) {v : UartState}
    (hv : uartStartRx u = some v) : RxInv v := by
  obtain ⟨-, rfl⟩ := uartStartRx_eq_some hv
  refine ⟨⟨?_, ?_, h.own⟩, h.dmaTx, by simp, ?_, by simp⟩
  · intro k hk hle hcur
    have hne : k ≠ u.receptions + 1 := fun hk => hcur hk rfl
    have hle' : k ≤ u.receptions + 1 := hle
    exact h.ended k hk (by omega) fun _ => hidle
  · intro k hk
    refine h.fresh k (.inl ?_)
    rcases hk with hk | ⟨hk, -⟩
    · have hk' : u.receptions + 1 < k := hk
      omega
    · exact hk ▸ Nat.lt_succ_self _
  · exact ⟨by simp, by simp, fun _ => ⟨rfl, .inl rfl⟩⟩

end UartState

namespace RxState

open UartState

/-- What a reachable state guarantees: every reception that has ended is accounted for, completions
are caused by interrupts of the same reception, and the slot is empty whenever the next reception
can start. -/
structure CompletedOnce (s : RxState) : Prop where
  ended : ∀ k, 1 ≤ k → k ≤ s.uart.receptions → (k = s.uart.receptions → s.uart.status ≠ .rx) →
    Accounted s.uart.log k
  current : s.uart.status = .rx → Fresh s.uart.log s.uart.receptions
  own : ∀ n cause, .rxCompleted n cause ∈ s.uart.log → cause = n
  slot : s.extiReady = true → ∀ high, (jdLineFalling high s.uart).isSome

/-- The invariant of the system: between the two parts of a timeout the driver is idle and the
falling edge interrupt is still disabled. -/
structure Inv (s : RxState) : Prop where
  uart : s.uart.RxInv
  timingOut : s.timingOut = true → s.uart.status ≠ .rx ∧ s.uart.exti = false

lemma Inv.initial : Inv initial := ⟨RxInv.initial, by simp [RxState.initial]⟩

/-- One step keeps the invariant. -/
lemma Inv.step (s : RxState) (a : RxAction) (t : RxState) (h : Inv s) (ht : s.step a = some t) :
    Inv t := by
  cases a with
  | exti high =>
    simp only [RxState.step] at ht
    split_ifs at ht with hready
    have hexti : s.uart.exti = true := by
      simp only [extiReady, Bool.and_eq_true] at hready
      exact hready.1
    have hidle := (h.uart.exti hexti).1
    have hwin : ¬s.timingOut = true := fun hw => by simp [(h.timingOut hw).2] at hexti
    obtain ⟨u, hu, rfl⟩ := Option.map_eq_some_iff.mp ht
    refine ⟨?_, fun hw => absurd hw hwin⟩
    unfold jdLineFalling at hu
    split_ifs at hu
    · exact h.uart.uartStartRx hidle hu
    · exact Option.some.inj hu ▸ h.uart.uartDisable hidle
  | rxBreak =>
    obtain ⟨u, hu, rfl⟩ := Option.map_eq_some_iff.mp ht
    unfold JdPico.rxBreak at hu
    split_ifs at hu
    obtain rfl := Option.some.inj hu
    exact ⟨⟨⟨h.uart.ended, h.uart.fresh, h.uart.own⟩, h.uart.dmaTx,
      fun k hk => (Option.some.inj hk).symm, h.uart.dmaRx, h.uart.exti⟩, h.timingOut⟩
  | pio =>
    obtain rfl := Option.some.inj ht
    refine ⟨h.uart.isrPio00, ?_⟩
    intro hw
    obtain ⟨hidle, hexti⟩ := h.timingOut hw
    simp only [isrPio00_of_ne_rx hidle]
    exact ⟨hidle, hexti⟩
  | dmaComplete =>
    obtain ⟨u, hu, rfl⟩ := Option.map_eq_some_iff.mp ht
    unfold dmaRxComplete at hu
    split_ifs at hu
    obtain rfl := Option.some.inj hu
    exact ⟨⟨⟨h.uart.ended, h.uart.fresh, h.uart.own⟩, h.uart.dmaTx, h.uart.pioIrq,
      h.uart.dmaRx.finish, fun hexti => ⟨(h.uart.exti hexti).1, DmaCh.finish_busy _⟩⟩, h.timingOut⟩
  | dma =>
    obtain rfl := Option.some.inj ht
    refine ⟨h.uart.isrDma0, ?_⟩
    intro hw
    obtain ⟨hidle, hexti⟩ := h.timingOut hw
    obtain ⟨c, hc⟩ := isrDma0_of_ne_rx hidle h.uart.dmaTx_ints
    simp only [hc]
    exact ⟨hidle, hexti⟩
  | timeout =>
    simp only [RxState.step] at ht
    split_ifs at ht with hrx
    obtain rfl := Option.some.inj ht
    have hexti : s.uart.exti = false := by
      by_contra hexti
      exact (h.uart.exti (by simpa using hexti)).1 hrx
    exact ⟨h.uart.endReception hrx _ (.inl rfl), fun _ => ⟨by simp, hexti⟩⟩
  | release =>
    simp only [RxState.step] at ht
    split_ifs at ht with hwin
    obtain rfl := Option.some.inj ht
    exact ⟨h.uart.uartRelease (h.timingOut hwin).1, fun hw => nomatch hw⟩

/-- A state of the invariant accounts for all receptions. -/
lemma Inv.completedOnce {s : RxState} (h : Inv s) : CompletedOnce s where
  ended := h.uart.ended
  current hrx := h.uart.fresh _ (.inr ⟨rfl, hrx⟩)
  own := h.uart.own
  slot hready high := by
    simp only [extiReady, Bool.and_eq_true, Option.isNone_iff_eq_none] at hready
    have hslot := h.uart.dmaRx.handler_eq_false (h.uart.exti hready.1).2 hready.2
    cases high with
    | false => rfl
    | true => simp [jdLineFalling, JdPico.uartStartRx, DmaCh.setChCb, hslot]

end RxState

/-- **One completion for each reception.**  In every reachable state, each reception that has ended
was completed exactly once if an interrupt ended it and never if a timeout did, every completion was
caused by an interrupt of the same reception, and the assertion on the handler slot holds whenever
the next reception can start. -/
theorem rx_completed_once (s : RxState) (hs : Reachable RxState.step .initial s) :
    s.CompletedOnce :=
  (hs.inv RxState.Inv.step RxState.Inv.initial).completedOnce

/-- Two receptions: in the first one the break wins over the transfer, whose interrupt is served
after the end; the second one times out. -/
theorem rx_completed_once_race :
    ∃ s, exec RxState.step .initial
        [.exti true, .rxBreak, .dmaComplete, .pio, .dma, .exti true, .timeout, .rxBreak, .pio,
          .release, .dma] = some s ∧ s.CompletedOnce ∧
      s.uart.log = [.rxTimeout 2, .rxCompleted 1 1] ∧ s.extiReady = true :=
  ⟨_, rfl, rx_completed_once _ ⟨[.exti true, .rxBreak, .dmaComplete, .pio, .dma, .exti true,
    .timeout, .rxBreak, .pio, .release, .dma], rfl⟩, rfl, rfl⟩

end JdPico
