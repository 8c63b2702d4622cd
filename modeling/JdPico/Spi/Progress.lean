import JdPico.Spi.Phase

/-!
# Progress of SPI transfers

The channels move a byte as soon as they are requested to, so a block shifts only when no move is
possible, and the interrupt of a channel is served at once (`SpiState.promptStep`).

A transfer that waits for the TX channel goes on until it is complete.  One that waits for the RX
channel needs bytes to come in, and these come only with bytes that go out.  `jd_spi_xfer` starts
the TX channel only if there is something to send: without `txdata` a transfer lives on what is left
over in the FIFOs and in the TX channel, and waits for ever if that is too little (`Supplied`).
-/

namespace JdPico

open SpiState

variable {env : SpiEnv} {s t : SpiState} {d : SpiDir}

/-! ### The machine -/

/-- One step of the system whose channels and interrupts are prompt. -/
def SpiState.promptStep (env : SpiEnv) (s : SpiState) : SpiAction → Option SpiState
  | .irq => none
  | .shift inst miso =>
    if (spiTxMove s).isNone ∧ (spiRxMove env s).isNone then
      (spiShift inst miso s).bind spiIsr else none
  | a => (s.step env a).bind spiIsr

/-- No transfer is stuck: while one is in progress, its done function is pending or the hardware can
do something. -/
def Unstuck (env : SpiEnv) (s : SpiState) : Prop :=
  s.spiInUse = true → s.spiDoneCb.isSome ∨ ∃ a : SpiAction, a.IsHw ∧ (s.step env a).isSome

/-- The bytes that have come in or will: those in the FIFOs of the block and those the TX channel
has left. -/
def SpiState.supply (s : SpiState) (inst : SpiInst) (txLeft : ℕ) : ℕ :=
  (s.hw inst).rxFifo.length + (s.hw inst).txFifo.length + txLeft

/-- What the TX channel has left to move once the transfer is started. -/
def SpiState.txLeft (s : SpiState) (x : SpiXfer) : ℕ :=
  if x.txdata.isSome ∧ (s.dma .tx).count = 0 then x.numbytes else (s.dma .tx).count

/-- A transfer that wants the received bytes finds enough of them.  On the second block one is
enough: the RX channel does not take it away from the FIFO it is paced by. -/
def Supplied (s : SpiState) (a : SpiAction) : Prop :=
  ∀ x, a = .xfer x → x.rxdata = true → jdSpiIsReady s = true →
    (s.spi = some .spi0 → x.numbytes ≤ s.supply .spi0 (s.txLeft x)) ∧
    (s.spi = some .spi1 → 0 < s.supply .spi1 (s.txLeft x))

/-- The condition can be evaluated along a run. -/
instance Supplied.decidable (s : SpiState) (a : SpiAction) : Decidable (Supplied s a) :=
  match a with
  | .xfer x =>
    decidable_of_iff (x.rxdata = true → jdSpiIsReady s = true →
        (s.spi = some .spi0 → x.numbytes ≤ s.supply .spi0 (s.txLeft x)) ∧
        (s.spi = some .spi1 → 0 < s.supply .spi1 (s.txLeft x)))
      ⟨fun h _ hx => SpiAction.xfer.inj hx ▸ h, fun h => h x rfl⟩
  | .init _ | .process | .txMove | .rxMove | .shift .. | .irq => .isTrue fun _ hx => by cases hx

/-! ### The invariant -/

/-- The channel is busy and has not told its end. -/
structure SpiDma.Running (c : SpiDma) : Prop where
  intr : c.intr = none
  count : 0 < c.count

/-- The channel has made its last move and tells so. -/
structure SpiDma.Over (c : SpiDma) : Prop where
  intr : c.intr.isSome
  count : c.count = 0

/-- The TX channel works on the block that paces the RX channel, which reads from the
first block. -/
structure Wired (s : SpiState) : Prop where
  txDreq : (s.dma .tx).dreq = (s.dma .rx).dreq
  txDr : (s.dma .tx).dr = (s.dma .rx).dreq
  rxDr : (s.dma .rx).dr = .spi0
  spi : ∀ inst, s.spi = some inst → (s.dma .rx).dreq = inst

/-- The RX channel will get the bytes it waits for. -/
def Fed (s : SpiState) : Prop :=
  match (s.dma .rx).dreq with
  | .spi0 => (s.dma .rx).count ≤ s.supply .spi0 (s.dma .tx).count
  | .spi1 => 0 < s.supply .spi1 (s.dma .tx).count

/-- Nothing is in progress, or a done function is pending. -/
def Still (s : SpiState) : Prop := (s.Idle ∨ ∃ f, s.Pending f) ∧ (s.dma .rx).count = 0

/-- The transfer in progress waits for a channel that is busy, and the RX channel will get what it
waits for. -/
structure Waiting (d : SpiDir) (s : SpiState) : Prop where
  active : s.Active d
  running : (s.dma d).Running
  rx : d = .tx → (s.dma .rx).count = 0
  fed : d = .rx → Fed s

/-- The channel the transfer in progress waits for is over, and the interrupt is not served yet. -/
structure Ending (d : SpiDir) (s : SpiState) : Prop where
  active : s.Active d
  ended : (s.dma d).Over
  rx : d = .tx → (s.dma .rx).count = 0

/-- The invariant between the steps. -/
def Live (s : SpiState) : Prop := Wired s ∧ (Still s ∨ ∃ d, Waiting d s)

/-- The invariant before the interrupt is served. -/
def Serviceable (s : SpiState) : Prop := Wired s ∧ (Still s ∨ (∃ d, Waiting d s) ∨ ∃ d, Ending d s)

lemma Live.serviceable (h : Live s) : Serviceable s := ⟨h.1, h.2.imp_right .inl⟩

lemma Live.initial : Live (.initial env) :=
  ⟨⟨rfl, rfl, rfl, fun _ h => by simp [SpiState.initial] at h⟩,
    .inl ⟨.inl ⟨rfl, rfl, fun _ => ⟨rfl, rfl⟩⟩, rfl⟩⟩

/-- Some step of the hardware is possible while a transfer waits. -/
lemma Waiting.enabled (h : Waiting d s) (hw : Wired s) :
    ∃ a : SpiAction, a.IsHw ∧ (s.step env a).isSome := by
  set inst := (s.dma .rx).dreq with hinst
  have hshift : (s.hw inst).txFifo ≠ [] → ∃ a : SpiAction, a.IsHw ∧ (s.step env a).isSome := by
    intro hne
    obtain ⟨mosi, rest, hfifo⟩ := List.exists_cons_of_ne_nil hne
    exact ⟨.shift inst 0, trivial,
      Option.isSome_iff_exists.mpr ⟨_, spiShift_eq_some.mpr ⟨mosi, rest, hfifo, rfl⟩⟩⟩
  -- the TX channel moves, or the FIFO is full and the block shifts
  have htx : 0 < (s.dma .tx).count → ∃ a : SpiAction, a.IsHw ∧ (s.step env a).isSome := by
    intro hpos
    by_cases hroom : (s.hw inst).txFifo.length < spiFifoSize
    · refine ⟨.txMove, trivial, Option.isSome_iff_exists.mpr ⟨_,
        spiTxMove_eq_some.mpr ⟨⟨hpos, ?_⟩, rfl⟩⟩⟩
      rwa [hw.txDreq]
    · refine hshift fun hnil => hroom ?_
      simp [hnil, spiFifoSize]
  cases d with
  | tx => exact htx h.running.count
  | rx =>
    by_cases hrx : (s.hw inst).rxFifo = []
    · have hsupply : 0 < s.supply inst (s.dma .tx).count := by
        have hfed := h.fed rfl
        have hcount := h.running.count
        unfold Fed at hfed
        rw [← hinst] at hfed
        cases hi : inst <;> rw [hi] at hfed <;> simp only at hfed <;> omega
      by_cases hfifo : (s.hw inst).txFifo = []
      · exact htx (by simpa [SpiState.supply, hrx, hfifo] using hsupply)
      · exact hshift hfifo
    · exact ⟨.rxMove, trivial,
        Option.isSome_iff_exists.mpr ⟨_, spiRxMove_eq_some.mpr ⟨⟨h.running.count, hrx⟩, rfl⟩⟩⟩

lemma Live.unstuck (h : Live s) : Unstuck env s := by
  intro huse
  rcases h with ⟨hw, ⟨hidle | ⟨f, hpend⟩, -⟩ | ⟨d, hwait⟩⟩
  · exact absurd (hidle.inUse.symm.trans huse) (by decide)
  · exact .inl (by simp [hpend.done])
  · exact .inr (hwait.enabled hw)

/-! ### The steps -/

lemma Wired.of_hwFrame (h : Wired s) (hf : HwFrame s t) : Wired t := by
  obtain ⟨-, -, -, -, htdreq, htdr⟩ := hf.setup .tx
  obtain ⟨-, -, -, -, hrdreq, hrdr⟩ := hf.setup .rx
  refine ⟨?_, ?_, ?_, fun inst hi => ?_⟩
  · rw [htdreq, hrdreq, h.txDreq]
  · rw [htdr, hrdreq, h.txDr]
  · rw [hrdr, h.rxDr]
  · rw [hrdreq]
    exact h.spi inst (hf.spi ▸ hi)

/-- A busy channel that moves is still busy, or over. -/
lemma SpiDma.Running.of_hwFrame (h : (s.dma d).Running) (hf : HwFrame s t) :
    (t.dma d).Running ∨ (t.dma d).Over := by
  rcases hf.dma d with hd | ⟨hpos, hd⟩
  · exact .inl (hd ▸ h)
  · rw [hd]
    by_cases hone : (s.dma d).count = 1
    · exact .inr ⟨by simp [SpiDma.moved, hone], by simp [SpiDma.moved, hone]⟩
    · exact .inl ⟨by simp [SpiDma.moved, hone, h.intr], by simp only [SpiDma.moved]; omega⟩

/-- A move of the TX channel turns a byte it has left into one of the FIFO. -/
lemma Fed.txMove (h : Fed s) (hw : Wired s) (hst : spiTxMove s = some t) : Fed t := by
  obtain ⟨⟨hpos, -⟩, rfl⟩ := spiTxMove_eq_some.mp hst
  have hdr := hw.txDr
  unfold Fed at h ⊢
  cases hi : (s.dma .rx).dreq <;> rw [hi] at hdr <;>
    simp only [hi, SpiState.txMoved, setDma, setHw, SpiState.supply, hdr, Function.update_self,
      SpiDma.moved, List.length_append, List.length_singleton, ne_eq, reduceCtorEq,
      not_false_eq_true, Function.update_of_ne] at h ⊢ <;> omega

/-- A move of the RX channel takes a byte it waits for out of the FIFO of the first block. -/
lemma Fed.rxMove (h : Fed s) (hw : Wired s) (hst : spiRxMove env s = some t) : Fed t := by
  obtain ⟨⟨hpos, hne⟩, rfl⟩ := spiRxMove_eq_some.mp hst
  have hdr := hw.rxDr
  have hlen := List.length_pos_of_ne_nil hne
  unfold Fed at h ⊢
  cases hi : (s.dma .rx).dreq <;> rw [hi] at hlen <;>
    simp only [hi, SpiState.rxMoved, setDma, setHw, SpiState.supply, hdr, Function.update_self,
      SpiDma.moved, List.length_tail, ne_eq, reduceCtorEq, not_false_eq_true,
      Function.update_of_ne] at h ⊢ <;> omega

/-- A shift turns a byte to go out into one that has come in; there is room for it, because the RX
channel has nothing to move. -/
lemma Fed.shift {inst : SpiInst} {miso : UInt8} (h : Fed s) (hrx : 0 < (s.dma .rx).count)
    (hnone : spiRxMove env s = none) (hst : spiShift inst miso s = some t) : Fed t := by
  obtain ⟨mosi, rest, hfifo, rfl⟩ := spiShift_eq_some.mp hst
  have hempty : (s.hw (s.dma .rx).dreq).rxFifo = [] := by
    by_contra hne
    have hsome : spiRxMove env s = some (s.rxMoved env) := spiRxMove_eq_some.mpr ⟨⟨hrx, hne⟩, rfl⟩
    simp [hnone] at hsome
  have hsupply : ∀ k, SpiState.supply ((s.setHw inst ⟨rest, (s.hw inst).clockIn miso⟩).note
      (.shifted inst mosi miso)) (s.dma .rx).dreq k = s.supply (s.dma .rx).dreq k := by
    intro k
    by_cases hi : (s.dma .rx).dreq = inst
    · rw [hi] at hempty ⊢
      simp [note, setHw, SpiState.supply, SpiHw.clockIn, hempty, hfifo, spiFifoSize, Nat.add_comm 1]
    · simp [note, setHw, SpiState.supply, Function.update_of_ne hi]
  unfold Fed at h ⊢
  simp only [note, setHw] at hsupply ⊢
  cases hi : (s.dma .rx).dreq <;> rw [hi] at hsupply <;> simp only [hi, hsupply] at h ⊢ <;> exact h

/-- The hardware leaves a driver alone that waits for nothing. -/
lemma Still.of_hwFrame (h : Still s) (hf : HwFrame s t) : Still t :=
  ⟨h.1.imp hf.idle fun ⟨f, hp⟩ => ⟨f, hf.pending hp⟩, hf.count_eq_zero h.2⟩

/-- A step of the hardware that keeps the RX channel fed brings a transfer nearer to its end. -/
lemma Waiting.of_hwFrame (h : Waiting d s) (hf : HwFrame s t) (hfed : d = .rx → Fed t) :
    Waiting d t ∨ Ending d t := by
  have hrx : d = .tx → (t.dma .rx).count = 0 := fun hd => hf.count_eq_zero (h.rx hd)
  exact (h.running.of_hwFrame hf).imp (fun hrun => ⟨hf.active h.active, hrun, hrx, hfed⟩)
    fun hover => ⟨hf.active h.active, hover, hrx⟩

/-- A prompt step of the hardware keeps the invariant. -/
lemma Live.of_hw {a : SpiAction} (h : Live s) (ha : a.IsHw)
    (hprompt : ∀ inst miso, a = .shift inst miso → spiRxMove env s = none)
    (hst : s.step env a = some t) : Serviceable t := by
  have hf := hwFrame_of_step ha hst
  rcases h with ⟨hw, hstill | ⟨d, hwait⟩⟩
  · exact ⟨hw.of_hwFrame hf, .inl (hstill.of_hwFrame hf)⟩
  · refine ⟨hw.of_hwFrame hf, .inr ?_⟩
    refine (hwait.of_hwFrame hf fun hd => ?_).imp (⟨d, ·⟩) (⟨d, ·⟩)
    subst hd
    cases a with
    | txMove => exact (hwait.fed rfl).txMove hw hst
    | rxMove => exact (hwait.fed rfl).rxMove hw hst
    | shift inst miso =>
      exact (hwait.fed rfl).shift hwait.running.count (hprompt inst miso rfl) hst
    | init cfg => exact ha.elim
    | xfer x => exact ha.elim
    | process => exact ha.elim
    | irq => exact ha.elim

/-- The service of the interrupt ends the transfer whose channel is over. -/
lemma Serviceable.irq (h : Serviceable s) : ∃ t, spiIsr s = some t ∧ Live t := by
  rcases h with ⟨hw, hstill | ⟨d, hwait⟩ | ⟨d, hend⟩⟩
  · refine ⟨s, spiIsr_of_ints fun d => ?_, hw, .inl hstill⟩
    rcases hstill.1 with hidle | ⟨f, hpend⟩
    · exact (hidle.released d).ints
    · exact (hpend.released d).ints
  · refine ⟨s, ?_, hw, .inr ⟨d, hwait⟩⟩
    rw [spiIsr_of_active hwait.active, hwait.running.intr]
  · obtain ⟨k, hk⟩ := Option.isSome_iff_exists.mp hend.ended.intr
    refine ⟨s.completedBy d k, by rw [spiIsr_of_active hend.active, hk], ⟨?_, ?_, ?_, ?_⟩,
      .inl ⟨.inr ?_, ?_⟩⟩
    · simpa using hw.txDreq
    · simpa using hw.txDr
    · simpa using hw.rxDr
    · simpa using hw.spi
    · exact ⟨_, hend.active.completedBy k⟩
    · cases d with
      | tx => simpa using hend.rx rfl
      | rx => simpa using hend.ended.count

/-- A driver that is not in use waits for nothing. -/
lemma Live.idle (h : Live s) (huse : s.spiInUse = false) : s.Idle ∧ (s.dma .rx).count = 0 := by
  rcases h with ⟨-, ⟨hidle | ⟨f, hpend⟩, hrx⟩ | ⟨d, hwait⟩⟩
  · exact ⟨hidle, hrx⟩
  · exact absurd (huse.symm.trans hpend.inUse) (by decide)
  · exact absurd (huse.symm.trans hwait.active.inUse) (by decide)

lemma Live.init (h : Live s) (cfg : SpiCfg) : Live (jdSpiInit env cfg s).2 := by
  rcases jdSpiInit_cases env cfg s with ⟨-, hs⟩ | ⟨pin, -, huse, hs⟩
  · rwa [hs]
  · rw [hs]
    obtain ⟨hidle, hrx⟩ := h.idle huse
    refine ⟨⟨rfl, rfl, rfl, fun inst hi => ?_⟩, .inl ⟨.inl (hidle.configured _), hrx⟩⟩
    exact Option.some.inj hi

lemma Live.process (h : Live s) : Live (jdSpiProcess s) := by
  cases hdone : s.spiDoneCb with
  | none => simpa [jdSpiProcess, hdone] using h
  | some f =>
    rcases h with ⟨hw, ⟨hidle | ⟨g, hpend⟩, hrx⟩ | ⟨d, hwait⟩⟩
    · exact absurd (hdone.symm.trans hidle.done) (by simp)
    · simp only [jdSpiProcess, hdone]
      exact ⟨⟨hw.txDreq, hw.txDr, hw.rxDr, hw.spi⟩, .inl ⟨.inl ⟨rfl, rfl, hpend.released⟩, hrx⟩⟩
    · exact absurd (hdone.symm.trans hwait.active.done) (by simp)

/-- The channels once an accepted transfer is started. -/
lemma prepared_start_dma (x : SpiXfer) (fn : ℕ) (s : SpiState) (d : SpiDir) :
    ((dmaStart x.txdata.isSome x.rxdata (s.prepared x fn)).dma d).count =
        (if x.uses d ∧ (s.dma d).count = 0 then x.numbytes else (s.dma d).count) ∧
      ((dmaStart x.txdata.isSome x.rxdata (s.prepared x fn)).dma d).intr =
        (if d = x.carrier then none else (s.dma d).intr) ∧
      ((dmaStart x.txdata.isSome x.rxdata (s.prepared x fn)).dma d).dreq = (s.dma d).dreq ∧
      ((dmaStart x.txdata.isSome x.rxdata (s.prepared x fn)).dma d).dr = (s.dma d).dr := by
  have hpick : d.pick x.txdata.isSome x.rxdata = x.uses d := rfl
  rw [dmaStart_eq]
  simp only [hpick, SpiState.prepared]
  by_cases hd : d = x.carrier
  · subst hd
    cases x.uses x.carrier <;> by_cases hc : (s.dma x.carrier).count = 0 <;> simp [SpiDma.start, hc]
  · cases x.uses d <;> by_cases hc : (s.dma d).count = 0 <;> simp [SpiDma.start, hd, hc]

/-- A transfer that is accepted, and finds enough bytes if it wants them, is not stuck. -/
lemma Live.xfer {x : SpiXfer} (h : Live s) (hC : Supplied s (.xfer x))
    (hst : s.step env (.xfer x) = some t) : Live t := by
  obtain ⟨r, hr, rfl⟩ := Option.map_eq_some_iff.mp hst
  obtain ⟨r', hr', rfl⟩ := Option.map_eq_some_iff.mp hr
  rcases jdSpiXferPrepare_cases hr' with ⟨h1, hs⟩ | ⟨fn, -, hready, -, hpos, hbuf, -, rfl⟩
  · rwa [if_neg h1, hs]
  · have hready' := jdSpiIsReady_iff.mp hready
    obtain ⟨hidle, hrx⟩ := h.idle hready'.2
    have hw := h.1
    simp only [if_true]
    have hdma := prepared_start_dma x fn s
    have hspi : (dmaStart x.txdata.isSome x.rxdata (s.prepared x fn)).spi = s.spi := by
      rw [dmaStart_eq]; rfl
    have hhw : (dmaStart x.txdata.isSome x.rxdata (s.prepared x fn)).hw = s.hw := by
      rw [dmaStart_eq]; rfl
    have hact : (dmaStart x.txdata.isSome x.rxdata (s.prepared x fn)).Active x.carrier := by
      rw [dmaStart_eq]
      exact (hidle.prepared x fn).of_start _ _
    generalize dmaStart x.txdata.isSome x.rxdata (s.prepared x fn) = t at hdma hspi hhw hact ⊢
    obtain ⟨htxCount, -, htxDreq, htxDr⟩ := hdma .tx
    obtain ⟨hrxCount, -, hrxDreq, hrxDr⟩ := hdma .rx
    refine ⟨⟨?_, ?_, ?_, ?_⟩, .inr ⟨x.carrier, hact, ⟨?_, ?_⟩, fun hd => ?_, fun hd => ?_⟩⟩
    · rw [htxDreq, hrxDreq, hw.txDreq]
    · rw [htxDr, hrxDreq, hw.txDr]
    · rw [hrxDr, hw.rxDr]
    · rw [hspi, hrxDreq]
      exact hw.spi
    · rw [(hdma x.carrier).2.1, if_pos rfl]
    · rw [(hdma x.carrier).1, SpiXfer.uses_carrier hbuf]
      simp only [true_and]
      split <;> omega
    · have hb : x.rxdata = false := by
        cases hb : x.rxdata with
        | false => rfl
        | true => simp [SpiXfer.carrier, hb] at hd
      simpa [SpiXfer.uses, SpiDir.pick, hb, hrx] using hrxCount
    · have hb : x.rxdata = true := by
        cases hb : x.rxdata with
        | false => simp [SpiXfer.carrier, hb] at hd
        | true => rfl
      obtain ⟨inst, hinst⟩ := Option.isSome_iff_exists.mp hready'.1
      have hleft : (t.dma .tx).count = s.txLeft x := htxCount
      have hn : (t.dma .rx).count = x.numbytes := by
        simpa [SpiXfer.uses, SpiDir.pick, hb, hrx] using hrxCount
      have hsup := hC x rfl hb hready
      have hdreq := hw.spi inst hinst
      unfold Fed SpiState.supply
      rw [hrxDreq, hdreq, hhw, hleft, hn]
      cases inst with
      | spi0 => exact hsup.1 hinst
      | spi1 => exact hsup.2 hinst

/-- One prompt step keeps the invariant. -/
lemma Live.step {a : SpiAction} (h : Live s) (hC : Supplied s a)
    (hst : s.promptStep env a = some t) :
    Live t := by
  have hirq : ∀ u, Serviceable u → spiIsr u = some t → Live t := by
    intro u hu hut
    obtain ⟨t', ht', hlive⟩ := hu.irq
    rwa [← Option.some.inj (ht'.symm.trans hut)]
  cases a with
  | irq => simp [SpiState.promptStep] at hst
  | shift inst miso =>
    obtain ⟨⟨-, hnone⟩, hbind⟩ := Option.ite_none_right_eq_some.mp hst
    obtain ⟨u, hu, hut⟩ := Option.bind_eq_some_iff.mp hbind
    exact hirq u (h.of_hw (a := .shift inst miso) trivial
      (fun _ _ _ => Option.isNone_iff_eq_none.mp hnone) hu) hut
  | txMove =>
    obtain ⟨u, hu, hut⟩ := Option.bind_eq_some_iff.mp hst
    exact hirq u (h.of_hw (by trivial) (fun _ _ ha => by cases ha) hu) hut
  | rxMove =>
    obtain ⟨u, hu, hut⟩ := Option.bind_eq_some_iff.mp hst
    exact hirq u (h.of_hw (by trivial) (fun _ _ ha => by cases ha) hu) hut
  | init cfg => exact hirq _ (h.init cfg).serviceable hst
  | xfer x =>
    obtain ⟨u, hu, hut⟩ := Option.bind_eq_some_iff.mp hst
    exact hirq u (h.xfer hC hu).serviceable hut
  | process => exact hirq _ h.process.serviceable hst

/-- In every run in which each accepted transfer that wants the received bytes finds enough of them,
no transfer is ever stuck. -/
theorem unstuck_of_supplied (env : SpiEnv) {acts : List SpiAction} {s : SpiState}
    (hC : Machine.AllSteps (SpiState.promptStep env) Supplied (.initial env) acts)
    (hrun : Machine.exec (SpiState.promptStep env) (.initial env) acts = some s) : Unstuck env s :=
  Live.unstuck <| Machine.exec_inv_of_allSteps
    (fun _ _ _ h hC hst => h.step hC hst) Live.initial hC hrun

/-- A transfer that sends two bytes, after the first of them went out. -/
theorem unstuck_two_bytes :
    let env : SpiEnv := ⟨0, fun _ => 0⟩
    let acts : List SpiAction :=
      [.init ⟨2, 4, 3⟩, .xfer ⟨some fun _ => 0, true, 2, some 1⟩, .txMove, .txMove, .shift .spi0 9]
    Machine.AllSteps (SpiState.promptStep env) Supplied (.initial env) acts ∧
      ∃ s, Machine.exec (SpiState.promptStep env) (.initial env) acts = some s ∧ Unstuck env s := by
  intro env acts
  have hC : Machine.AllSteps (SpiState.promptStep env) Supplied (.initial env) acts := by
    decide +kernel
  have hrun : (Machine.exec (SpiState.promptStep env) (.initial env) acts).isSome := by
    decide +kernel
  obtain ⟨s, hs⟩ := Option.isSome_iff_exists.mp hrun
  exact ⟨hC, s, hs, unstuck_of_supplied env hC hs⟩

/-- A transfer that only receives, made first after `jd_spi_init`, is stuck at once. -/
theorem not_unstuck_receive_only :
    let env : SpiEnv := ⟨0, fun _ => 0⟩
    let acts : List SpiAction := [.init ⟨2, 4, 3⟩, .xfer ⟨none, true, 1, some 1⟩]
    ∃ s, Machine.exec (SpiState.promptStep env) (.initial env) acts = some s ∧ s.spiInUse = true ∧
      s.spiDoneCb = none ∧ ¬ Unstuck env s := by
  intro env acts
  have hrun : (Machine.exec (SpiState.promptStep env) (.initial env) acts).map
      (fun s => (s.spiInUse, s.spiDoneCb, (s.dma .tx).count, s.hw .spi0, s.hw .spi1)) =
      some (true, none, 0, .reset, .reset) := rfl
  obtain ⟨s, hs, heq⟩ := Option.map_eq_some_iff.mp hrun
  simp only [Prod.mk.injEq] at heq
  obtain ⟨huse, hdone, htx, hspi0, hspi1⟩ := heq
  have hhw : ∀ inst, s.hw inst = .reset := by
    intro inst
    cases inst with
    | spi0 => exact hspi0
    | spi1 => exact hspi1
  refine ⟨s, hs, huse, hdone, fun h => ?_⟩
  rcases h huse with hsome | ⟨a, ha, hen⟩
  · simp [hdone] at hsome
  · obtain ⟨t, ht⟩ := Option.isSome_iff_exists.mp hen
    cases a with
    | txMove => exact absurd (spiTxMove_eq_some.mp ht).1.1 (by simp [htx])
    | rxMove => exact absurd rfl ((hhw _ ▸ (spiRxMove_eq_some.mp ht).1.2 : SpiHw.reset.rxFifo ≠ []))
    | shift inst miso =>
      obtain ⟨mosi, rest, hfifo, -⟩ := spiShift_eq_some.mp ht
      simp [hhw, SpiHw.reset] at hfifo
    | init cfg => exact ha.elim
    | xfer x => exact ha.elim
    | process => exact ha.elim
    | irq => exact ha.elim

end JdPico
