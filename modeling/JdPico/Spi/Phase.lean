import JdPico.Spi.Model

/-!
# The phases of a transfer

Between two calls the driver is idle, waits for the channel that carries the completion of the
transfer in progress, or holds the done function of a transfer that is complete (`SpiState.Phase`).
Calls move it from one phase to the next; the hardware moves bytes and keeps the phase (`HwFrame`).
This holds for all runs and says nothing yet about which transfer the bytes and the interrupts
belong to.
-/

namespace JdPico

open SpiState

variable {s t : SpiState} {d : SpiDir} {x : SpiXfer} {env : SpiEnv}

/-! ### What the functions do -/

/-- The state after `jd_spi_init` configured the driver for the block `spi`. -/
def SpiState.configured (env : SpiEnv) (spi : SpiInst) (s : SpiState) : SpiState :=
  { s with
    spi := some spi
    dmaClaimed := true
    hw := Function.update s.hw spi .reset
    dma := fun d =>
      match d with
      | .tx => (s.dma .tx).configure spi spi
      | .rx => (s.dma .rx).configure spi .spi0
    txSrc := env.atNull
    rxStored := []
    log := .configured spi :: s.log }

/-- `jd_spi_init` changes nothing, or configures an idle driver for the block of the first pin. -/
lemma jdSpiInit_cases (env : SpiEnv) (cfg : SpiCfg) (s : SpiState) :
    ((jdSpiInit env cfg s).1 ≠ 0 ∧ (jdSpiInit env cfg s).2 = s) ∨
      ∃ pin, cfg.pins.find? (· ≠ noPin) = some pin ∧ s.spiInUse = false ∧
        jdSpiInit env cfg s = (0, s.configured env (spiSelect pin)) := by
  have hdma : ∀ (f : SpiDir → SpiDma) (a b : SpiDma),
      Function.update (Function.update f .tx a) .rx b = fun d =>
        match d with
        | .tx => a
        | .rx => b := by
    intro f a b
    funext d
    cases d <;> rfl
  unfold jdSpiInit
  split
  · exact .inl ⟨by simp, rfl⟩
  · rename_i huse
    split
    · exact .inl ⟨by simp, rfl⟩
    · rename_i pin hpin
      refine .inr ⟨pin, hpin, by simpa using huse, ?_⟩
      simp [SpiState.configured, setHw, setDma, note, hdma]

/-- The flag of a direction. -/
def SpiDir.pick (tx rx : Bool) : SpiDir → Bool
  | .tx => tx
  | .rx => rx

/-- The transfer has a buffer for the direction. -/
def SpiXfer.uses (x : SpiXfer) : SpiDir → Bool := SpiDir.pick x.txdata.isSome x.rxdata

/-- The channel that carries the completion of a transfer is started by it. -/
lemma SpiXfer.uses_carrier (hx : x.txdata.isSome ∨ x.rxdata = true) : x.uses x.carrier = true := by
  cases hrx : x.rxdata with
  | false => simpa [SpiXfer.uses, SpiXfer.carrier, SpiDir.pick, hrx] using hx
  | true => simp [SpiXfer.uses, SpiXfer.carrier, SpiDir.pick, hrx]

/-- The state after `jd_spi_xfer` registered the completion of an accepted transfer. -/
def SpiState.prepared (x : SpiXfer) (fn : ℕ) (s : SpiState) : SpiState :=
  { s with
    spiInUse := true
    xfers := s.xfers + 1
    dma := fun d =>
      let c := if x.uses d then { s.dma d with reload := x.numbytes } else s.dma d
      if d = x.carrier then
        { c with handler := true, context := ⟨fn, s.xfers + 1⟩, intr := none, inte := true }
      else c
    txSrc := x.txdata.getD s.txSrc
    rxStored := if x.rxdata then [] else s.rxStored
    log := .accepted (s.xfers + 1) x.txdata.isSome x.rxdata x.numbytes fn :: s.log }

/-- `jd_spi_xfer` changes nothing, or registers the completion of an accepted transfer. -/
lemma jdSpiXferPrepare_cases {r : ℤ × SpiState} (h : jdSpiXferPrepare x s = some r) :
    (r.1 ≠ 0 ∧ r.2 = s) ∨
      ∃ fn, x.doneFn = some fn ∧ jdSpiIsReady s = true ∧ x.numbytes ≤ spiBlockSize ∧
        0 < x.numbytes ∧ (x.txdata.isSome ∨ x.rxdata = true) ∧
        (s.dma x.carrier).handler = false ∧ r = (0, s.prepared x fn) := by
  unfold jdSpiXferPrepare at h
  split at h
  · exact nomatch h
  · rename_i fn hfn
    split_ifs at h with hready hlarge hzero hnull
    · exact .inl (by simp [← Option.some.inj h])
    · exact .inl (by simp [← Option.some.inj h])
    · exact .inl (by simp [← Option.some.inj h])
    · refine .inr ⟨fn, hfn, by simpa using hready, not_lt.mp hlarge,
        Nat.pos_of_ne_zero hzero, ?_, ?_⟩
      · cases htx : x.txdata with
        | none => simpa [htx] using hnull
        | some mem => simp
      · obtain ⟨c, hc, rfl⟩ := Option.map_eq_some_iff.mp h
        unfold SpiDma.setChCb at hc
        split_ifs at hc with hslot
        obtain rfl := Option.some.inj hc
        constructor
        · cases htx : x.txdata <;> cases hrx : x.rxdata <;>
            simpa [SpiState.setup, SpiXfer.carrier, htx, hrx, setDma] using hslot
        · simp only [Prod.mk.injEq, true_and]
          cases htx : x.txdata <;> cases hrx : x.rxdata <;>
            simp [SpiState.setup, SpiState.prepared, SpiXfer.carrier, SpiXfer.uses, SpiDir.pick,
              htx, hrx, setDma, note] <;>
            funext d <;> cases d <;> simp

/-- `dma_start_channel_mask` starts the channels of the mask that are not busy. -/
lemma dmaStart_eq (tx rx : Bool) (s : SpiState) :
    dmaStart tx rx s =
      { s with dma := fun d => if d.pick tx rx then (s.dma d).start s.xfers else s.dma d } := by
  have hdma : (dmaStart tx rx s).dma =
      fun d => if d.pick tx rx then (s.dma d).start s.xfers else s.dma d := by
    funext d
    cases tx <;> cases rx <;> cases d <;> simp [dmaStart, setDma, SpiDir.pick]
  rw [← hdma]
  cases tx <;> cases rx <;> rfl

/-- The state after an interrupt of the channel `d`, started by the transfer `k`, completed a
transfer. -/
def SpiState.completedBy (d : SpiDir) (k : ℕ) (s : SpiState) : SpiState :=
  { s with
    dma := Function.update s.dma d { s.dma d with intr := none, inte := false, handler := false }
    spiDoneCb := some (s.dma d).context
    log := .completed (s.dma d).context k :: s.log }

section CompletedBy

variable {k : ℕ} {d' : SpiDir}

/-- The interrupt of a channel leaves what the channels were set up for and what they have moved. -/
@[simp] lemma SpiState.completedBy_dreq : ((s.completedBy d k).dma d').dreq = (s.dma d').dreq := by
  by_cases hd : d' = d <;> simp [SpiState.completedBy, Function.update, hd]

@[simp] lemma SpiState.completedBy_dr : ((s.completedBy d k).dma d').dr = (s.dma d').dr := by
  by_cases hd : d' = d <;> simp [SpiState.completedBy, Function.update, hd]

@[simp] lemma SpiState.completedBy_count :
    ((s.completedBy d k).dma d').count = (s.dma d').count := by
  by_cases hd : d' = d <;> simp [SpiState.completedBy, Function.update, hd]

@[simp] lemma SpiState.completedBy_rxStored : (s.completedBy d k).rxStored = s.rxStored := rfl

@[simp] lemma SpiState.completedBy_spi : (s.completedBy d k).spi = s.spi := rfl

end CompletedBy

/-- The state after the TX channel moved a byte. -/
def SpiState.txMoved (s : SpiState) : SpiState :=
  let c := s.dma .tx
  let hw := { s.hw c.dr with txFifo := (s.hw c.dr).txFifo ++ [s.txSrc 0] }
  { (s.setHw c.dr hw).setDma .tx c.moved with txSrc := fun i => s.txSrc (i + 1) }

/-- The state after the RX channel moved a byte. -/
def SpiState.rxMoved (env : SpiEnv) (s : SpiState) : SpiState :=
  let c := s.dma .rx
  let hw := s.hw c.dr
  { (s.setHw c.dr { hw with rxFifo := hw.rxFifo.tail }).setDma .rx c.moved with
    rxStored := s.rxStored ++ [hw.rxFifo.headD env.drEmpty] }

lemma spiTxMove_eq_some :
    spiTxMove s = some t ↔
      (0 < (s.dma .tx).count ∧ (s.hw (s.dma .tx).dreq).txFifo.length < spiFifoSize) ∧
      s.txMoved = t := by
  simp only [spiTxMove, SpiState.txMoved, Option.ite_none_right_eq_some, Option.some.injEq]

lemma spiRxMove_eq_some :
    spiRxMove env s = some t ↔
      (0 < (s.dma .rx).count ∧ (s.hw (s.dma .rx).dreq).rxFifo ≠ []) ∧ s.rxMoved env = t := by
  simp only [spiRxMove, SpiState.rxMoved, Option.ite_none_right_eq_some, Option.some.injEq]

lemma spiShift_eq_some {inst : SpiInst} {miso : UInt8} :
    spiShift inst miso s = some t ↔ ∃ mosi rest, (s.hw inst).txFifo = mosi :: rest ∧
      (s.setHw inst ⟨rest, (s.hw inst).clockIn miso⟩).note (.shifted inst mosi miso) = t := by
  unfold spiShift
  cases hfifo : (s.hw inst).txFifo with
  | nil => simp [hfifo]
  | cons mosi rest => simp [hfifo]

/-! ### The phases -/

/-- The handler slot of the channel is empty and its interrupt is off. -/
structure SpiDma.Released (c : SpiDma) : Prop where
  handler : c.handler = false
  inte : c.inte = false

/-- The handler slot of the channel is taken and its interrupt is on. -/
structure SpiDma.Registered (c : SpiDma) : Prop where
  handler : c.handler = true
  inte : c.inte = true

/-- No transfer is in progress. -/
structure SpiState.Idle (s : SpiState) : Prop where
  inUse : s.spiInUse = false
  done : s.spiDoneCb = none
  released : ∀ d, (s.dma d).Released

/-- A transfer is in progress, and the channel `d` carries its completion. -/
structure SpiState.Active (d : SpiDir) (s : SpiState) : Prop where
  inUse : s.spiInUse = true
  done : s.spiDoneCb = none
  registered : (s.dma d).Registered
  released : ∀ d', d' ≠ d → (s.dma d').Released

/-- A transfer is complete, and its done function was not called yet. -/
structure SpiState.Pending (f : SpiDone) (s : SpiState) : Prop where
  inUse : s.spiInUse = true
  done : s.spiDoneCb = some f
  released : ∀ d, (s.dma d).Released

lemma jdSpiIsReady_iff : jdSpiIsReady s = true ↔ s.spi.isSome = true ∧ s.spiInUse = false := by
  simp [jdSpiIsReady]

/-- The interrupt of the channel that carries the completion makes the done function pending. -/
lemma SpiState.Active.completedBy (h : s.Active d) (k : ℕ) :
    SpiState.Pending (s.dma d).context (s.completedBy d k) := by
  refine ⟨h.inUse, rfl, fun d' => ?_⟩
  by_cases hd : d' = d
  · subst hd
    constructor <;> simp [SpiState.completedBy]
  · simpa [SpiState.completedBy, hd] using h.released d' hd

lemma SpiDma.Released.ints {c : SpiDma} (h : c.Released) : c.ints = none := by
  simp [SpiDma.ints, h.inte]

lemma SpiDma.Registered.ints {c : SpiDma} (h : c.Registered) : c.ints = c.intr := by
  simp [SpiDma.ints, h.inte]

/-- The interrupt service has nothing to do where no latch of a channel that is on is set. -/
lemma spiIsr_of_ints (h : ∀ d, (s.dma d).ints = none) : spiIsr s = some s := by
  have hclear : (fun d => (s.dma d).clear) = s.dma := by
    funext d
    simp [SpiDma.clear, h d]
  simp [spiIsr, spiService, h, hclear]

/-- The interrupt service during a transfer stores its done function, if the latch of its channel is
set. -/
lemma spiIsr_of_active (h : s.Active d) :
    spiIsr s = some (match (s.dma d).intr with
      | none => s
      | some k => s.completedBy d k) := by
  cases hk : (s.dma d).intr with
  | none =>
    refine spiIsr_of_ints fun d' => ?_
    by_cases hd : d' = d
    · rw [hd, h.registered.ints, hk]
    · exact (h.released d' hd).ints
  | some k =>
    have hints : (s.dma d).ints = some k := h.registered.ints.trans hk
    have hself : (s.dma d).clear = { s.dma d with intr := none } := by simp [SpiDma.clear, hints]
    have hclear : (fun d => (s.dma d).clear) =
      Function.update s.dma d { s.dma d with intr := none } := by
      funext d'
      by_cases hd : d' = d
      · rw [hd, hself, Function.update_self]
      · simp [SpiDma.clear, (h.released d' hd).ints, hd]
    cases d with
    | tx =>
      have hother := (h.released .rx (by decide)).ints
      simp [spiIsr, hints, hother, hself, hclear, spiService, h.registered.handler, spiDmaCb,
        h.done, setDma, note, SpiDma.release, SpiState.completedBy]
    | rx =>
      have hother := (h.released .tx (by decide)).ints
      simp [spiIsr, hints, hother, hclear, spiService, h.registered.handler, spiDmaCb, h.done,
        setDma, note, SpiDma.release, SpiState.completedBy]

/-- What a step of the hardware leaves as it is. -/
structure HwFrame (s t : SpiState) : Prop where
  inUse : t.spiInUse = s.spiInUse
  done : t.spiDoneCb = s.spiDoneCb
  spi : t.spi = s.spi
  xfers : t.xfers = s.xfers
  dma : ∀ d, t.dma d = s.dma d ∨ 0 < (s.dma d).count ∧ t.dma d = (s.dma d).moved
  log : t.log = s.log ∨ ∃ inst mosi miso, t.log = .shifted inst mosi miso :: s.log

/-- The steps of the hardware. -/
def SpiAction.IsHw : SpiAction → Prop
  | .txMove | .rxMove | .shift .. => True
  | _ => False

/-- A step of the hardware moves bytes; of the channels it changes the counts and the latches. -/
lemma hwFrame_of_step {a : SpiAction} (ha : a.IsHw) (h : s.step env a = some t) : HwFrame s t := by
  cases a with
  | txMove =>
    obtain ⟨⟨hcount, -⟩, rfl⟩ := spiTxMove_eq_some.mp h
    refine ⟨rfl, rfl, rfl, rfl, fun d => ?_, .inl rfl⟩
    cases d with
    | tx => exact .inr ⟨hcount, by simp [SpiState.txMoved, setDma, setHw]⟩
    | rx => exact .inl (by simp [SpiState.txMoved, setDma, setHw])
  | rxMove =>
    obtain ⟨⟨hcount, -⟩, rfl⟩ := spiRxMove_eq_some.mp h
    refine ⟨rfl, rfl, rfl, rfl, fun d => ?_, .inl rfl⟩
    cases d with
    | tx => exact .inl (by simp [SpiState.rxMoved, setDma, setHw])
    | rx => exact .inr ⟨hcount, by simp [SpiState.rxMoved, setDma, setHw]⟩
  | shift inst miso =>
    obtain ⟨mosi, rest, -, rfl⟩ := spiShift_eq_some.mp h
    exact ⟨rfl, rfl, rfl, rfl, fun d => .inl rfl, .inr ⟨inst, mosi, miso, rfl⟩⟩
  | init cfg => exact ha.elim
  | xfer x => exact ha.elim
  | process => exact ha.elim
  | irq => exact ha.elim

namespace HwFrame

/-- The hardware does not touch what a channel was set up for. -/
lemma setup (h : HwFrame s t) (d : SpiDir) :
    (t.dma d).handler = (s.dma d).handler ∧ (t.dma d).inte = (s.dma d).inte ∧
      (t.dma d).context = (s.dma d).context ∧ (t.dma d).run = (s.dma d).run ∧
      (t.dma d).dreq = (s.dma d).dreq ∧ (t.dma d).dr = (s.dma d).dr := by
  rcases h.dma d with hd | ⟨-, hd⟩ <;> rw [hd] <;> exact ⟨rfl, rfl, rfl, rfl, rfl, rfl⟩

/-- A channel that is not busy is left alone by the hardware. -/
lemma count_eq_zero (hf : HwFrame s t) (h : (s.dma d).count = 0) : (t.dma d).count = 0 := by
  rcases hf.dma d with hd | ⟨hpos, -⟩
  · rw [hd, h]
  · omega

lemma released (h : HwFrame s t) (hd : (s.dma d).Released) : (t.dma d).Released :=
  ⟨(h.setup d).1.trans hd.handler, (h.setup d).2.1.trans hd.inte⟩

lemma registered (h : HwFrame s t) (hd : (s.dma d).Registered) : (t.dma d).Registered :=
  ⟨(h.setup d).1.trans hd.handler, (h.setup d).2.1.trans hd.inte⟩

lemma idle (h : HwFrame s t) (hs : s.Idle) : t.Idle :=
  ⟨h.inUse.trans hs.inUse, h.done.trans hs.done, fun d => h.released (hs.released d)⟩

lemma active (h : HwFrame s t) (hs : s.Active d) : t.Active d :=
  ⟨h.inUse.trans hs.inUse, h.done.trans hs.done, h.registered hs.registered,
    fun d' hd => h.released (hs.released d' hd)⟩

lemma pending {f : SpiDone} (h : HwFrame s t) (hs : s.Pending f) : t.Pending f :=
  ⟨h.inUse.trans hs.inUse, h.done.trans hs.done, fun d => h.released (hs.released d)⟩

end HwFrame

/-- The configuration of an idle driver leaves it idle. -/
lemma SpiState.Idle.configured (hs : s.Idle) (spi : SpiInst) : (s.configured env spi).Idle := by
  refine ⟨hs.inUse, hs.done, fun d => ?_⟩
  cases d <;> exact ⟨(hs.released _).handler, (hs.released _).inte⟩

/-- An accepted transfer makes an idle driver wait for the channel that carries its completion. -/
lemma SpiState.Idle.prepared (hs : s.Idle) (x : SpiXfer) (fn : ℕ) :
    (s.prepared x fn).Active x.carrier := by
  refine ⟨rfl, hs.done, ?_, fun d hd => ?_⟩
  · constructor <;> simp [SpiState.prepared]
  · constructor
    · simp only [SpiState.prepared, if_neg hd]
      split <;> exact (hs.released d).handler
    · simp only [SpiState.prepared, if_neg hd]
      split <;> exact (hs.released d).inte

/-- The start of a channel does not touch what it was set up for. -/
lemma SpiDma.start_setup (c : SpiDma) (k : ℕ) :
    (c.start k).handler = c.handler ∧ (c.start k).inte = c.inte ∧ (c.start k).context = c.context ∧
      (c.start k).intr = c.intr ∧ (c.start k).dreq = c.dreq ∧ (c.start k).dr = c.dr := by
  unfold SpiDma.start
  split <;> exact ⟨rfl, rfl, rfl, rfl, rfl, rfl⟩

/-- The start of the channels keeps the phase. -/
lemma SpiState.Active.of_start (hs : s.Active d) (tx rx : Bool) :
    SpiState.Active d
      { s with dma := fun d => if d.pick tx rx then (s.dma d).start s.xfers else s.dma d } := by
  have hsame : ∀ d' : SpiDir,
      (if d'.pick tx rx then (s.dma d').start s.xfers else s.dma d').handler = (s.dma d').handler ∧
        (if d'.pick tx rx then (s.dma d').start s.xfers else s.dma d').inte = (s.dma d').inte := by
    intro d'
    split
    · exact ⟨(SpiDma.start_setup _ _).1, (SpiDma.start_setup _ _).2.1⟩
    · exact ⟨rfl, rfl⟩
  exact ⟨hs.inUse, hs.done,
    ⟨(hsame d).1.trans hs.registered.handler, (hsame d).2.trans hs.registered.inte⟩,
    fun d' hd => ⟨(hsame d').1.trans (hs.released d' hd).handler,
      (hsame d').2.trans (hs.released d' hd).inte⟩⟩

end JdPico
