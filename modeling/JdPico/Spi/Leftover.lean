import JdPico.Spi.Exchange

/-!
# Bytes left over from a transmit-only transfer

Every byte clocked out clocks a byte in.  A full-duplex transfer reads them all, and leaves the
FIFOs empty for the next one.  A transmit-only transfer leaves what it clocked in in the RX FIFO,
and nothing but `jd_spi_init` empties it: the next full-duplex transfer stores these bytes first.
So the bytes a full-duplex transfer stores are those clocked in during it, as long as no full-duplex
transfer follows a transmit-only one without a `jd_spi_init` in between (`NoLeftover`).
-/

namespace JdPico

open SpiState

variable {env : SpiEnv} {s t : SpiState}

/-! ### Reading the log -/

/-- The latest transfer: it has a TX buffer, it has an RX buffer, and its length. -/
def latestXfer : List SpiEvent → Option (Bool × Bool × ℕ)
  | [] => none
  | .accepted _ tx rx len _ :: _ => some (tx, rx, len)
  | .configured _ :: log => latestXfer log
  | .shifted .. :: log => latestXfer log
  | .completed .. :: log => latestXfer log
  | .invoked _ :: log => latestXfer log

/-- A transmit-only transfer was accepted since the driver was configured. -/
def transmitOnly : List SpiEvent → Bool
  | [] => false
  | .configured _ :: _ => false
  | .accepted _ _ rx _ _ :: log => !rx || transmitOnly log
  | .shifted .. :: log => transmitOnly log
  | .completed .. :: log => transmitOnly log
  | .invoked _ :: log => transmitOnly log

/-- The transfers of two logs read the same. -/
structure SameXfers (old new : List SpiEvent) : Prop where
  latest : latestXfer new = latestXfer old
  only : transmitOnly new = transmitOnly old

lemma HwFrame.sameXfers (hf : HwFrame s t) : SameXfers s.log t.log := by
  rcases hf.log with hl | ⟨inst, mosi, miso, hl⟩
  · rw [hl]
    exact ⟨rfl, rfl⟩
  · rw [hl]
    exact ⟨rfl, rfl⟩

/-! ### The condition and the property -/

/-- The call is one for the first block, and every transfer has a TX buffer. -/
def SpiAction.OnFirstBlock : SpiAction → Prop
  | .init cfg => ∀ pin, cfg.pins.find? (· ≠ noPin) = some pin → spiSelect pin = .spi0
  | .xfer x => x.txdata.isSome
  | _ => True

/-- No full-duplex transfer is accepted after a transmit-only one since the driver was
configured. -/
def NoLeftover (s : SpiState) (a : SpiAction) : Prop :=
  ∀ x, a = .xfer x → x.rxdata = true → jdSpiIsReady s = true → transmitOnly s.log = false

/-- The block of the calls can be evaluated. -/
instance SpiAction.OnFirstBlock.decidable (a : SpiAction) : Decidable a.OnFirstBlock :=
  match a with
  | .init cfg =>
    decidable_of_iff ((cfg.pins.find? (· ≠ noPin)).all (spiSelect · = .spi0) = true)
      (by cases h : cfg.pins.find? (· ≠ noPin) <;> simp only [SpiAction.OnFirstBlock, h] <;> simp)
  | .xfer x => inferInstanceAs (Decidable (x.txdata.isSome = true))
  | .process | .txMove | .rxMove | .shift .. | .irq => .isTrue trivial

/-- The condition can be evaluated along a run. -/
instance NoLeftover.decidable (s : SpiState) (a : SpiAction) : Decidable (NoLeftover s a) :=
  match a with
  | .xfer x =>
    decidable_of_iff (x.rxdata = true → jdSpiIsReady s = true → transmitOnly s.log = false)
      ⟨fun h _ hx => SpiAction.xfer.inj hx ▸ h, fun h => h x rfl⟩
  | .init _ | .process | .txMove | .rxMove | .shift .. | .irq => .isTrue fun _ hx => by cases hx

/-- When the done function of a full-duplex transfer is pending, the bytes it stored are those
clocked in since it was accepted, and there are as many as it asked for. -/
def FullDuplexIntact (s : SpiState) : Prop :=
  s.spiDoneCb.isSome → ∀ n, latestXfer s.log = some (true, true, n) →
    s.rxStored = clockedIn .spi0 s.log ∧ s.rxStored.length = n

/-! ### The invariant -/

/-- The driver waits for the end of a transmit-only transfer, or for the call of its done
function. -/
structure Sending (s : SpiState) : Prop where
  on : OnSpi0 s
  rx : (s.dma .rx).count = 0
  latch : (s.dma .tx).intr.isSome → (s.dma .tx).count = 0
  phase : s.Active .tx ∨ (∃ f, s.Pending f) ∧ (s.dma .tx).count = 0
  latest : ∃ n, latestXfer s.log = some (true, false, n)

/-- No transfer is in progress; if the driver is configured and no transmit-only transfer was made
since, the FIFOs are empty. -/
structure Resting (s : SpiState) : Prop where
  idle : s.Idle
  count : ∀ d, (s.dma d).count = 0
  on : s.spi.isSome → OnSpi0 s
  hw : s.spi.isSome → transmitOnly s.log = false → s.hw .spi0 = .reset

/-- The transfers of the run are kept apart. -/
def Apart (s : SpiState) : Prop :=
  Resting s ∨ (Sending s ∧ transmitOnly s.log = true) ∨
    ((∃ tx n, Serving tx n s ∧ latestXfer s.log = some (true, true, n)) ∧
      transmitOnly s.log = false)

lemma Resting.clear (h : Resting s) (hready : jdSpiIsReady s = true)
    (honly : transmitOnly s.log = false) :
    Clear s := by
  obtain ⟨hspi, -⟩ := jdSpiIsReady_iff.mp hready
  exact ⟨h.idle, h.on hspi, h.hw hspi honly, h.count⟩

lemma Apart.idle_of_not_inUse (h : Apart s) (huse : s.spiInUse = false) : Resting s := by
  rcases h with hrest | ⟨hsend, -⟩ | ⟨⟨tx, n, hserve, -⟩, -⟩
  · exact hrest
  · rcases hsend.phase with hact | ⟨⟨f, hpend⟩, -⟩
    · exact absurd (huse.symm.trans hact.inUse) (by decide)
    · exact absurd (huse.symm.trans hpend.inUse) (by decide)
  · rcases hserve.phase with hact | ⟨⟨f, hpend⟩, -⟩
    · exact absurd (huse.symm.trans hact.inUse) (by decide)
    · exact absurd (huse.symm.trans hpend.inUse) (by decide)

/-- The configuration of the driver empties the FIFOs. -/
lemma Resting.configured (h : Resting s) : Resting (s.configured env .spi0) := by
  refine ⟨h.idle.configured _, fun d => ?_, fun _ => ⟨fun d => ?_, fun d => ?_⟩, fun _ _ => ?_⟩
  · cases d <;> exact h.count _
  · cases d <;> rfl
  · cases d <;> rfl
  · simp [SpiState.configured]

/-- A transmit-only transfer is started. -/
lemma Resting.sending {mem : ℕ → UInt8} {n fn fn' : ℕ} (h : Resting s) (hon : OnSpi0 s) :
    Sending (dmaStart true false (s.prepared ⟨some mem, false, n, some fn⟩ fn')) := by
  have hcount := h.count
  rw [dmaStart_eq]
  refine ⟨⟨fun d => ?_, fun d => ?_⟩, ?_, ?_, .inl ?_, ⟨n, rfl⟩⟩
  · have := hon.dreq d
    cases d <;> simpa [SpiDir.pick, SpiState.prepared, SpiDma.start, SpiXfer.carrier, SpiXfer.uses,
      hcount]
      using this
  · have := hon.dr d
    cases d <;> simpa [SpiDir.pick, SpiState.prepared, SpiDma.start, SpiXfer.carrier, SpiXfer.uses,
      hcount]
      using this
  · simp [SpiDir.pick, SpiState.prepared, SpiXfer.carrier, SpiXfer.uses, hcount]
  · simp [SpiDir.pick, SpiState.prepared, SpiDma.start, SpiXfer.carrier, SpiXfer.uses, hcount]
  · exact (h.idle.prepared ⟨some mem, false, n, some fn⟩ fn').of_start true false

/-- An accepted transfer keeps the transfers apart. -/
lemma Apart.xfer {x : SpiXfer} (h : Apart s) (hx : x.txdata.isSome) (hC : NoLeftover s (.xfer x))
    (hst : s.step env (.xfer x) = some t) : Apart t := by
  obtain ⟨r, hr, rfl⟩ := Option.map_eq_some_iff.mp hst
  obtain ⟨r', hr', rfl⟩ := Option.map_eq_some_iff.mp hr
  rcases jdSpiXferPrepare_cases hr' with ⟨h1, hs⟩ | ⟨fn, hfn, hready, -, -, -, -, rfl⟩
  · rw [if_neg h1, hs]
    exact h
  · have hready' := jdSpiIsReady_iff.mp hready
    have hrest := h.idle_of_not_inUse hready'.2
    obtain ⟨mem, hmem⟩ := Option.isSome_iff_exists.mp hx
    obtain ⟨txdata, rxdata, n, doneFn⟩ := x
    simp only at hmem hfn
    subst hmem hfn
    cases rxdata with
    | false =>
      refine .inr (.inl ⟨hrest.sending (hrest.on hready'.1), ?_⟩)
      simp [dmaStart_eq, SpiState.prepared, transmitOnly]
    | true =>
      have honly := hC _ rfl rfl hready
      refine .inr (.inr ⟨⟨mem, n, (hrest.clear hready honly).serving hr rfl, ?_⟩, ?_⟩)
      · simp [dmaStart_eq, SpiState.prepared, latestXfer]
      · simpa [dmaStart_eq, SpiState.prepared, transmitOnly] using honly

/-- The hardware keeps the transfers apart. -/
lemma Apart.of_hw {a : SpiAction} (h : Apart s) (ha : a.IsHw) (hst : s.step env a = some t) :
    Apart t := by
  have hf := hwFrame_of_step ha hst
  have hsame := hf.sameXfers
  rcases h with hrest | ⟨hsend, honly⟩ | ⟨⟨tx, n, hserve, hlatest⟩, honly⟩
  · refine .inl ⟨hf.idle hrest.idle, fun d => hf.count_eq_zero (hrest.count d),
      fun hspi => (hrest.on (hf.spi ▸ hspi)).of_hwFrame hf, fun hspi honly => ?_⟩
    have hhw := hrest.hw (hf.spi ▸ hspi) (hsame.only ▸ honly)
    -- with idle channels and an empty TX FIFO only the other block can do something
    cases a with
    | txMove => exact absurd (spiTxMove_eq_some.mp hst).1.1 (by simp [hrest.count])
    | rxMove => exact absurd (spiRxMove_eq_some.mp hst).1.1 (by simp [hrest.count])
    | shift inst miso =>
      obtain ⟨mosi, rest, hfifo, rfl⟩ := spiShift_eq_some.mp hst
      cases inst with
      | spi0 => simp [hhw, SpiHw.reset] at hfifo
      | spi1 => simpa [note, setHw] using hhw
    | init cfg => exact ha.elim
    | xfer x => exact ha.elim
    | process => exact ha.elim
    | irq => exact ha.elim
  · refine .inr (.inl ⟨⟨hsend.on.of_hwFrame hf, hf.count_eq_zero hsend.rx, hf.latch hsend.latch,
      ?_, ?_⟩, ?_⟩)
    · exact hsend.phase.imp hf.active fun hp =>
        ⟨hp.1.imp fun _ => hf.pending, hf.count_eq_zero hp.2⟩
    · rw [hsame.latest]
      exact hsend.latest
    · rw [hsame.only, honly]
  · exact .inr (.inr ⟨⟨tx, n, hserve.of_hw ha hst, by rw [hsame.latest, hlatest]⟩,
      by rw [hsame.only, honly]⟩)

/-- The interrupt service keeps the transfers apart. -/
lemma Apart.irq (h : Apart s) (hst : s.step env .irq = some t) : Apart t := by
  have hisr : spiIsr s = some t := hst
  rcases h with hrest | ⟨hsend, honly⟩ | ⟨⟨tx, n, hserve, hlatest⟩, honly⟩
  · rw [spiIsr_of_ints fun d => (hrest.idle.released d).ints] at hisr
    exact Option.some.inj hisr ▸ .inl hrest
  · rcases hsend.phase with hact | ⟨⟨f, hpend⟩, -⟩
    · rw [spiIsr_of_active hact] at hisr
      obtain rfl := Option.some.inj hisr
      cases hk : (s.dma .tx).intr with
      | none => exact .inr (.inl ⟨hsend, honly⟩)
      | some k =>
        have htx := hsend.latch (by simp [hk])
        refine .inr (.inl ⟨⟨⟨fun d => ?_, fun d => ?_⟩, ?_, ?_, .inr ⟨⟨_, hact.completedBy k⟩, ?_⟩,
          hsend.latest⟩, honly⟩)
        · simpa using hsend.on.dreq d
        · simpa using hsend.on.dr d
        · simpa using hsend.rx
        · simp [SpiState.completedBy]
        · simpa using htx
    · rw [spiIsr_of_ints fun d => (hpend.released d).ints] at hisr
      exact Option.some.inj hisr ▸ .inr (.inl ⟨hsend, honly⟩)
  · refine .inr (.inr ?_)
    have hsame : SameXfers s.log t.log := by
      rcases hserve.phase with hact | ⟨⟨f, hpend⟩, -⟩
      · rw [spiIsr_of_active hact] at hisr
        obtain rfl := Option.some.inj hisr
        cases (s.dma .rx).intr <;> exact ⟨rfl, rfl⟩
      · rw [spiIsr_of_ints fun d => (hpend.released d).ints] at hisr
        exact Option.some.inj hisr ▸ ⟨rfl, rfl⟩
    exact ⟨⟨tx, n, hserve.irq hst, by rw [hsame.latest, hlatest]⟩, by rw [hsame.only, honly]⟩

/-- The call of a done function keeps the transfers apart. -/
lemma Apart.process (h : Apart s) : Apart (jdSpiProcess s) := by
  cases hdone : s.spiDoneCb with
  | none => simpa [jdSpiProcess, hdone] using h
  | some f =>
    rcases h with hrest | ⟨hsend, honly⟩ | ⟨⟨tx, n, hserve, hlatest⟩, honly⟩
    · exact absurd (hdone.symm.trans hrest.idle.done) (by simp)
    · rcases hsend.phase with hact | ⟨⟨g, hpend⟩, htx⟩
      · exact absurd (hdone.symm.trans hact.done) (by simp)
      · simp only [jdSpiProcess, hdone]
        refine .inl ⟨⟨rfl, rfl, hpend.released⟩, fun d => ?_, fun _ => ⟨hsend.on.dreq, hsend.on.dr⟩,
          fun _ honly' => ?_⟩
        · cases d with
          | tx => exact htx
          | rx => exact hsend.rx
        · exact absurd (honly.symm.trans honly') (by decide)
    · have hclear := hserve.clear_of_process (by simp [hdone])
      exact .inl ⟨hclear.idle, hclear.count, fun _ => hclear.on, fun _ _ => hclear.hw⟩

/-- One step keeps the transfers apart. -/
lemma Apart.step {a : SpiAction} (h : Apart s) (hC : a.OnFirstBlock ∧ NoLeftover s a)
    (hst : s.step env a = some t) : Apart t := by
  cases a with
  | init cfg =>
    obtain rfl := Option.some.inj hst
    rcases jdSpiInit_cases env cfg s with ⟨-, hs⟩ | ⟨pin, hpin, huse, hs⟩
    · rwa [hs]
    · rw [hs, hC.1 pin hpin]
      exact .inl (h.idle_of_not_inUse huse).configured
  | xfer x => exact h.xfer hC.1 hC.2 hst
  | process => exact Option.some.inj hst ▸ h.process
  | txMove => exact h.of_hw (by trivial) hst
  | rxMove => exact h.of_hw (by trivial) hst
  | shift inst miso => exact h.of_hw (by trivial) hst
  | irq => exact h.irq hst

lemma Apart.initial : Apart (.initial env) :=
  .inl ⟨⟨rfl, rfl, fun _ => ⟨rfl, rfl⟩⟩, fun _ => rfl, fun h => by simp [SpiState.initial] at h,
    fun h => by simp [SpiState.initial] at h⟩

lemma Apart.fullDuplexIntact (h : Apart s) : FullDuplexIntact s := by
  intro hdone n hn
  rcases h with hrest | ⟨hsend, -⟩ | ⟨⟨tx, m, hserve, hlatest⟩, -⟩
  · simp [hrest.idle.done] at hdone
  · obtain ⟨m, hm⟩ := hsend.latest
    simp [hm] at hn
  · obtain rfl : m = n := by simpa [hlatest] using hn
    obtain ⟨hin, hlen, -⟩ := hserve.rxStored_eq hdone
    exact ⟨hin, hlen⟩

/-- In every run on the first block in which no full-duplex transfer follows a transmit-only one
without a `jd_spi_init` in between, the full-duplex transfers store the bytes that were clocked in
during them. -/
theorem fullDuplexIntact_of_noLeftover (env : SpiEnv) {acts : List SpiAction} {s : SpiState}
    (hdom : Machine.AllSteps (SpiState.step env) (fun _ a => a.OnFirstBlock) (.initial env) acts)
    (hC : Machine.AllSteps (SpiState.step env) NoLeftover (.initial env) acts)
    (hrun : Machine.exec (SpiState.step env) (.initial env) acts = some s) : FullDuplexIntact s :=
  Apart.fullDuplexIntact <| Machine.exec_inv_of_allSteps (fun _ _ _ h hC hst => h.step hC hst)
    Apart.initial (hdom.and hC) hrun

/-- A full-duplex transfer of one byte, which receives 9. -/
def exchangeNine : List SpiAction :=
  [.xfer ⟨some fun _ => 0, true, 1, some 2⟩, .txMove, .shift .spi0 9, .rxMove, .irq]

/-- Made first, the transfer stores the byte. -/
theorem fullDuplexIntact_exchangeNine :
    let env : SpiEnv := ⟨0, fun _ => 0⟩
    let acts := .init ⟨2, 4, 3⟩ :: exchangeNine
    Machine.AllSteps (SpiState.step env) (fun _ a => a.OnFirstBlock) (.initial env) acts ∧
      Machine.AllSteps (SpiState.step env) NoLeftover (.initial env) acts ∧
      ∃ s, Machine.exec (SpiState.step env) (.initial env) acts = some s ∧ s.rxStored = [9] ∧
        FullDuplexIntact s := by
  intro env acts
  have hdom : Machine.AllSteps (SpiState.step env) (fun _ a => a.OnFirstBlock)
    (.initial env) acts :=
    .of_forall_mem (by decide)
  have hC : Machine.AllSteps (SpiState.step env) NoLeftover (.initial env) acts := by decide +kernel
  have hrun : (Machine.exec (SpiState.step env) (.initial env) acts).map SpiState.rxStored =
    some [9] := by
    decide +kernel
  obtain ⟨s, hs, hstored⟩ := Option.map_eq_some_iff.mp hrun
  exact ⟨hdom, hC, s, hs, hstored, fullDuplexIntact_of_noLeftover env hdom hC hs⟩

/-- Made after a transmit-only transfer, while 7 was on the line, it stores that byte instead. -/
theorem not_fullDuplexIntact_exchangeNine :
    let env : SpiEnv := ⟨0, fun _ => 0⟩
    let acts := List.append [.init ⟨2, 4, 3⟩, .xfer ⟨some fun _ => 0, false, 1, some 1⟩, .txMove,
      .shift .spi0 7, .irq, .process] exchangeNine
    Machine.AllSteps (SpiState.step env) (fun _ a => a.OnFirstBlock) (.initial env) acts ∧
      ∃ s, Machine.exec (SpiState.step env) (.initial env) acts = some s ∧ s.rxStored = [7] ∧
        clockedIn .spi0 s.log = [9] ∧ ¬ FullDuplexIntact s := by
  intro env acts
  refine ⟨.of_forall_mem (by decide), ?_⟩
  have hrun : (Machine.exec (SpiState.step env) (.initial env) acts).map
      (fun s => (s.rxStored, clockedIn .spi0 s.log)) = some ([7], [9]) := by
    decide +kernel
  have hover : (Machine.exec (SpiState.step env) (.initial env) acts).map
      (fun s => (s.spiDoneCb.isSome, latestXfer s.log)) = some (true, some (true, true, 1)) := by
    decide +kernel
  obtain ⟨s, hs, heq⟩ := Option.map_eq_some_iff.mp hrun
  obtain ⟨hstored, hin⟩ := Prod.mk.inj heq
  rw [hs, Option.map_some, Option.some.injEq] at hover
  obtain ⟨hdone, hlatest⟩ := Prod.mk.inj hover
  refine ⟨s, hs, hstored, hin, fun h => ?_⟩
  have hsame := (h hdone 1 hlatest).1
  rw [hstored, hin] at hsame
  exact absurd hsame (by decide)

end JdPico
