import JdPico.Spi.Phase

/-!
# A full-duplex transfer on the first block

Started with empty FIFOs and channels that are not busy, a full-duplex transfer keeps account of its
bytes (`Exchange`).  What was clocked out together with the TX FIFO is what the TX channel has moved
so far.  What the RX channel has stored together with the RX FIFO is what was clocked in, unless a
byte was lost because the FIFO was full; then there are fewer of them, and since no more bytes are
clocked in than out, the RX channel never gets as many as it waits for.  So a transfer that ends has
stored exactly the bytes that were clocked in (`Serving.rxStored_eq`).
-/

namespace JdPico

open SpiState

variable {env : SpiEnv} {s t : SpiState} {tx : ℕ → UInt8} {n : ℕ}

/-! ### Reading the log -/

/-- The bytes a block clocked in since the latest transfer was accepted, the oldest first. -/
def clockedIn (inst : SpiInst) : List SpiEvent → List UInt8
  | [] => []
  | .accepted .. :: _ => []
  | .shifted i _ miso :: log =>
    if i = inst then clockedIn inst log ++ [miso] else clockedIn inst log
  | .configured _ :: log => clockedIn inst log
  | .completed .. :: log => clockedIn inst log
  | .invoked _ :: log => clockedIn inst log

/-- The bytes a block clocked out since the latest transfer was accepted, the oldest first. -/
def clockedOut (inst : SpiInst) : List SpiEvent → List UInt8
  | [] => []
  | .accepted .. :: _ => []
  | .shifted i mosi _ :: log =>
    if i = inst then clockedOut inst log ++ [mosi] else clockedOut inst log
  | .configured _ :: log => clockedOut inst log
  | .completed .. :: log => clockedOut inst log
  | .invoked _ :: log => clockedOut inst log

/-- A block clocks in a byte with each byte it clocks out. -/
lemma length_clockedIn (inst : SpiInst) (log : List SpiEvent) :
    (clockedIn inst log).length = (clockedOut inst log).length := by
  induction log with
  | nil => rfl
  | cons e log ih =>
    cases e with
    | shifted i mosi miso =>
      simp only [clockedIn, clockedOut]
      split <;> simp [ih]
    | accepted k tx rx len fn => rfl
    | configured i => exact ih
    | completed f cause => exact ih
    | invoked f => exact ih

/-! ### The account of the bytes -/

/-- Both channels work on the first block. -/
structure OnSpi0 (s : SpiState) : Prop where
  dreq : ∀ d, (s.dma d).dreq = .spi0
  dr : ∀ d, (s.dma d).dr = .spi0

/-- The account of the bytes of a full-duplex transfer of the first `n` bytes of `tx`. -/
structure Exchange (tx : ℕ → UInt8) (n : ℕ) (s : SpiState) : Prop where
  on : OnSpi0 s
  /-- The bytes that are stored or wait are those clocked in, or one of them was lost. -/
  received : s.rxStored ++ (s.hw .spi0).rxFifo = clockedIn .spi0 s.log ∨
    s.rxStored.length + (s.hw .spi0).rxFifo.length < (clockedIn .spi0 s.log).length
  /-- The bytes clocked out or waiting are the first ones of the buffer; the channel has
  the rest. -/
  sent : ∃ m, m + (s.dma .tx).count = n ∧
    clockedOut .spi0 s.log ++ (s.hw .spi0).txFifo = (List.range m).map tx ∧
    s.txSrc = fun i => tx (m + i)
  stored : s.rxStored.length + (s.dma .rx).count = n

/-- The hardware leaves the channels on their block. -/
lemma OnSpi0.of_hwFrame (h : OnSpi0 s) (hf : HwFrame s t) : OnSpi0 t :=
  ⟨fun d => (hf.setup d).2.2.2.2.1.trans (h.dreq d), fun d => (hf.setup d).2.2.2.2.2.trans (h.dr d)⟩

namespace Exchange

/-- The TX channel moves the next byte of the buffer. -/
lemma txMove (h : Exchange tx n s) (hst : s.step env .txMove = some t) : Exchange tx n t := by
  have hf := hwFrame_of_step (by trivial) hst
  obtain ⟨⟨hpos, -⟩, rfl⟩ := spiTxMove_eq_some.mp hst
  obtain ⟨m, hm, hout, hsrc⟩ := h.sent
  have hdr := h.on.dr .tx
  refine ⟨h.on.of_hwFrame hf, ?_, ⟨m + 1, ?_, ?_, ?_⟩, ?_⟩
  · simpa [SpiState.txMoved, setDma, setHw, hdr] using h.received
  · simp only [SpiState.txMoved, setDma, Function.update_self, SpiDma.moved]
    omega
  · simp [SpiState.txMoved, setDma, setHw, hdr, hsrc, List.range_succ, ← hout]
  · funext i
    simp [SpiState.txMoved, hsrc, Nat.add_assoc, Nat.add_comm 1 i]
  · simpa [SpiState.txMoved, setDma, setHw] using h.stored

/-- The RX channel takes the oldest byte that waits. -/
lemma rxMove (h : Exchange tx n s) (hst : s.step env .rxMove = some t) : Exchange tx n t := by
  have hf := hwFrame_of_step (by trivial) hst
  obtain ⟨⟨hpos, hne⟩, rfl⟩ := spiRxMove_eq_some.mp hst
  have hdr := h.on.dr .rx
  rw [h.on.dreq .rx] at hne
  obtain ⟨b, rest, hfifo⟩ := List.exists_cons_of_ne_nil hne
  refine ⟨h.on.of_hwFrame hf, ?_, ?_, ?_⟩
  · have hrec := h.received
    rw [hfifo] at hrec
    simp only [SpiState.rxMoved, setDma, setHw, hdr, hfifo, Function.update_self, List.headD_cons,
      List.tail_cons, List.append_assoc, List.singleton_append, List.length_append,
      List.length_cons, List.length_nil] at hrec ⊢
    exact hrec.imp_right fun hlt => by omega
  · simpa [SpiState.rxMoved, setDma, setHw, hdr] using h.sent
  · have hcount := h.stored
    simp only [SpiState.rxMoved, setDma, Function.update_self, SpiDma.moved, List.length_append,
      List.length_singleton]
    omega

/-- A byte is clocked out and another one in; it is lost if the RX FIFO is full. -/
lemma shift {inst : SpiInst} {miso : UInt8} (h : Exchange tx n s)
    (hst : s.step env (.shift inst miso) = some t) : Exchange tx n t := by
  have hf := hwFrame_of_step (by trivial) hst
  obtain ⟨mosi, rest, hfifo, rfl⟩ := spiShift_eq_some.mp hst
  cases inst with
  | spi1 => exact ⟨h.on.of_hwFrame hf, h.received, h.sent, h.stored⟩
  | spi0 =>
    refine ⟨h.on.of_hwFrame hf, ?_, ?_, h.stored⟩
    · simp only [note, setHw, Function.update_self, clockedIn, if_true, SpiHw.clockIn]
      rcases h.received with hrec | hrec
      · split
        · exact .inl (by rw [← List.append_assoc, hrec])
        · refine .inr ?_
          have := congrArg List.length hrec
          simp only [List.length_append, List.length_singleton] at this ⊢
          omega
      · refine .inr ?_
        split <;> simp only [List.length_append, List.length_singleton] <;> omega
    · obtain ⟨m, hm, hout, hsrc⟩ := h.sent
      refine ⟨m, hm, ?_, hsrc⟩
      simpa [note, setHw, clockedOut, hfifo] using hout

/-- A transfer that is stored completely is what was clocked in, and all of the buffer was clocked
out. -/
lemma complete (h : Exchange tx n s) (hrx : (s.dma .rx).count = 0) :
    s.rxStored = clockedIn .spi0 s.log ∧ clockedOut .spi0 s.log = (List.range n).map tx ∧
      s.hw .spi0 = .reset ∧ (s.dma .tx).count = 0 := by
  obtain ⟨m, hm, hout, -⟩ := h.sent
  have hstored := h.stored
  have hlen := length_clockedIn .spi0 s.log
  have houtlen := congrArg List.length hout
  simp only [List.length_append, List.length_map, List.length_range] at houtlen
  -- no byte was lost: otherwise fewer bytes than `n` would be stored
  have hrec : s.rxStored ++ (s.hw .spi0).rxFifo = clockedIn .spi0 s.log :=
    h.received.resolve_right fun hlt => by omega
  have hreclen := congrArg List.length hrec
  rw [List.length_append] at hreclen
  have hrxFifo : (s.hw .spi0).rxFifo = [] := List.length_eq_zero_iff.mp (by omega)
  have htxFifo : (s.hw .spi0).txFifo = [] := List.length_eq_zero_iff.mp (by omega)
  obtain rfl : m = n := by omega
  refine ⟨by simpa [hrxFifo] using hrec, by simpa [htxFifo] using hout, ?_, by omega⟩
  calc s.hw .spi0 = ⟨(s.hw .spi0).txFifo, (s.hw .spi0).rxFifo⟩ := rfl
    _ = .reset := by rw [htxFifo, hrxFifo, SpiHw.reset]

end Exchange

/-! ### From the acceptance to the end -/

/-- No transfer is in progress, the channels are not busy, and the FIFOs of the first block
are empty. -/
structure Clear (s : SpiState) : Prop where
  idle : s.Idle
  on : OnSpi0 s
  hw : s.hw .spi0 = .reset
  count : ∀ d, (s.dma d).count = 0

/-- A full-duplex transfer is in progress, or its done function is pending. -/
structure Serving (tx : ℕ → UInt8) (n : ℕ) (s : SpiState) : Prop where
  exchange : Exchange tx n s
  latch : (s.dma .rx).intr.isSome → (s.dma .rx).count = 0
  phase : s.Active .rx ∨ (∃ f, s.Pending f) ∧ (s.dma .rx).count = 0

/-- The latch of a channel is set by the last of its moves. -/
lemma HwFrame.latch {d : SpiDir} (hf : HwFrame s t)
    (h : (s.dma d).intr.isSome → (s.dma d).count = 0) :
    (t.dma d).intr.isSome → (t.dma d).count = 0 := by
  rcases hf.dma d with hd | ⟨hpos, hd⟩
  · rwa [hd]
  · rw [hd]
    intro hintr
    by_cases hone : (s.dma d).count = 1
    · simp [SpiDma.moved, hone]
    · have := h (by simpa [SpiDma.moved, hone] using hintr)
      omega

/-- A full-duplex transfer accepted by a driver that is clear starts an exchange. -/
lemma Clear.serving {fn : ℕ} (h : Clear s) {r : ℤ × SpiState}
    (hx : jdSpiXfer ⟨some tx, true, n, some fn⟩ s = some r) (h0 : r.1 = 0) : Serving tx n r.2 := by
  obtain ⟨r', hr', rfl⟩ := Option.map_eq_some_iff.mp hx
  rcases jdSpiXferPrepare_cases hr' with ⟨h1, -⟩ | ⟨fn', hfn, -, -, hpos, -, -, rfl⟩
  · rw [if_neg h1] at h0
    exact absurd h0 h1
  · have hcount := h.count
    have hstart : ∀ d : SpiDir,
      ((dmaStart true true (s.prepared ⟨some tx, true, n, some fn⟩ fn')).dma d).count
        = n := by
      intro d
      cases d <;> simp [dmaStart_eq, SpiDir.pick, SpiState.prepared, SpiDma.start, SpiXfer.carrier,
        SpiXfer.uses, hcount]
    simp only [if_true, Option.isSome_some]
    refine ⟨⟨⟨fun d => ?_, fun d => ?_⟩, .inl ?_, ⟨0, ?_, ?_, ?_⟩, ?_⟩, fun hintr => ?_, .inl ?_⟩
    · have := h.on.dreq d
      cases d <;> simpa [dmaStart_eq, SpiDir.pick, SpiState.prepared, SpiDma.start, SpiXfer.carrier,
        SpiXfer.uses, hcount] using this
    · have := h.on.dr d
      cases d <;> simpa [dmaStart_eq, SpiDir.pick, SpiState.prepared, SpiDma.start, SpiXfer.carrier,
        SpiXfer.uses, hcount] using this
    · simp [dmaStart_eq, SpiState.prepared, h.hw, SpiHw.reset, clockedIn]
    · rw [hstart, Nat.zero_add]
    · simp [dmaStart_eq, SpiState.prepared, h.hw, SpiHw.reset, clockedOut]
    · simp [dmaStart_eq, SpiState.prepared]
    · rw [hstart]
      simp [dmaStart_eq, SpiState.prepared]
    · simp [dmaStart_eq, SpiDir.pick, SpiState.prepared, SpiDma.start, SpiXfer.carrier,
        SpiXfer.uses, hcount] at hintr
    · rw [dmaStart_eq]
      exact (h.idle.prepared ⟨some tx, true, n, some fn⟩ fn').of_start true true

namespace Serving

/-- The hardware keeps the account of a transfer. -/
lemma of_hw {a : SpiAction} (h : Serving tx n s) (ha : a.IsHw) (hst : s.step env a = some t) :
    Serving tx n t := by
  have hf := hwFrame_of_step ha hst
  refine ⟨?_, hf.latch h.latch,
    h.phase.imp hf.active fun hp => ⟨hp.1.imp fun _ => hf.pending, hf.count_eq_zero hp.2⟩⟩
  cases a with
  | txMove => exact h.exchange.txMove hst
  | rxMove => exact h.exchange.rxMove hst
  | shift inst miso => exact h.exchange.shift hst
  | init cfg => exact ha.elim
  | xfer x => exact ha.elim
  | process => exact ha.elim
  | irq => exact ha.elim

/-- The interrupt service ends a transfer only when all its bytes are stored. -/
lemma irq (h : Serving tx n s) (hst : s.step env .irq = some t) : Serving tx n t := by
  have hst : spiIsr s = some t := hst
  rcases h.phase with hact | ⟨⟨f, hpend⟩, hrx⟩
  · rw [spiIsr_of_active hact] at hst
    cases hk : (s.dma .rx).intr with
    | none =>
      obtain rfl : s = t := by simpa [hk] using hst
      exact h
    | some k =>
      obtain rfl : s.completedBy .rx k = t := by simpa [hk] using hst
      have hrx := h.latch (by simp [hk])
      have hex := h.exchange
      refine ⟨⟨⟨fun d => ?_, fun d => ?_⟩, hex.received, hex.sent, ?_⟩, ?_,
        .inr ⟨⟨_, hact.completedBy k⟩, ?_⟩⟩
      · simpa using hex.on.dreq d
      · simpa using hex.on.dr d
      · simpa using hex.stored
      · simp [SpiState.completedBy]
      · simpa using hrx
  · rw [spiIsr_of_ints fun d => (hpend.released d).ints] at hst
    exact Option.some.inj hst ▸ h

/-- When the done function is pending, the bytes stored are those that were clocked in. -/
lemma rxStored_eq (h : Serving tx n s) (hdone : s.spiDoneCb.isSome) :
    s.rxStored = clockedIn .spi0 s.log ∧ s.rxStored.length = n ∧
      clockedOut .spi0 s.log = (List.range n).map tx := by
  rcases h.phase with hact | ⟨-, hrx⟩
  · simp [hact.done] at hdone
  · obtain ⟨hin, hout, -, -⟩ := h.exchange.complete hrx
    exact ⟨hin, by simpa [hrx] using h.exchange.stored, hout⟩

/-- The call of the done function leaves the driver clear for the next transfer. -/
lemma clear_of_process (h : Serving tx n s) (hdone : s.spiDoneCb.isSome) :
    Clear (jdSpiProcess s) := by
  rcases h.phase with hact | ⟨⟨f, hpend⟩, hrx⟩
  · simp [hact.done] at hdone
  · obtain ⟨-, -, hhw, htx⟩ := h.exchange.complete hrx
    simp only [jdSpiProcess, hpend.done]
    refine ⟨⟨rfl, rfl, hpend.released⟩, ⟨h.exchange.on.dreq, h.exchange.on.dr⟩, hhw, fun d => ?_⟩
    cases d with
    | tx => exact htx
    | rx => exact hrx

end Serving

end JdPico
