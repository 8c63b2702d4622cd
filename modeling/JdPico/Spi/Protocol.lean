import JdPico.Lib.Log
import JdPico.Spi.Phase

/-!
# The completion protocol of SPI transfers

Interrupts and the hardware may run between any two calls, after `jd_spi_xfer` registered the
completion and before it starts the channels, and after `jd_spi_process` emptied `spi_done_cb` and
before it clears `spi_in_use` (`SpiProc`).  The done function is the last thing `jd_spi_process`
calls, so what it calls itself follows as the next step.

A transfer is accepted, completed by the channel it started, and its done function is called; the
log of a run repeats these three (`Follows`).  That is so as long as no transmit-only transfer is
accepted while the TX channel is busy (`TxIdle`).  The end of a full-duplex transfer is told by the
RX channel alone, and that may be done first: on the second block it reads the data register of the
first, which does not empty the RX FIFO that paces it, so all its moves follow the first byte.  The
start of a busy channel has no effect, and the completion of the old transfer is then taken for that
of the new one.
-/

namespace JdPico

open SpiState

/-! ### Calls that are interrupted -/

/-- Where the main loop is. -/
inductive SpiPc where
  /-- Between two calls. -/
  | out
  /-- In `jd_spi_xfer`, before the start of the channels. -/
  | starting (tx rx : Bool)
  /-- In `jd_spi_process`, before `spi_in_use` is cleared and the done function is called. -/
  | finishing (f : SpiDone)
  deriving DecidableEq, Repr

/-- The driver and the place the main loop is at. -/
structure SpiProc where
  core : SpiState
  pc : SpiPc

/-- The steps of a driver whose calls are interrupted. -/
inductive SpiOp where
  | init (cfg : SpiCfg)
  | xfer (x : SpiXfer)
  | process
  /-- The main loop goes on in the call it is in. -/
  | resume
  | txMove
  | rxMove
  | shift (inst : SpiInst) (miso : UInt8)
  | irq

/-- The rest of the call the main loop is in. -/
def SpiProc.resume (p : SpiProc) : Option SpiProc :=
  match p.pc with
  | .out => none
  | .starting tx rx => some ⟨dmaStart tx rx p.core, .out⟩
  | .finishing f => some ⟨{ p.core with spiInUse := false }.note (.invoked f), .out⟩

/-- A call of the main loop, up to the place where it is interrupted. -/
def SpiProc.call (env : SpiEnv) (p : SpiProc) : SpiOp → Option SpiProc
  | .init cfg => some ⟨(jdSpiInit env cfg p.core).2, .out⟩
  | .xfer x =>
    (jdSpiXferPrepare x p.core).map fun r =>
      if r.1 = 0 then ⟨r.2, .starting x.txdata.isSome x.rxdata⟩ else ⟨r.2, .out⟩
  | .process =>
    match p.core.spiDoneCb with
    | none => some p
    | some f => some ⟨{ p.core with spiDoneCb := none }, .finishing f⟩
  | _ => none

/-- One step of a driver whose calls are interrupted. -/
def SpiProc.step (env : SpiEnv) (p : SpiProc) : SpiOp → Option SpiProc
  | .txMove => (p.core.step env .txMove).map (⟨·, p.pc⟩)
  | .rxMove => (p.core.step env .rxMove).map (⟨·, p.pc⟩)
  | .shift inst miso => (p.core.step env (.shift inst miso)).map (⟨·, p.pc⟩)
  | .irq => (p.core.step env .irq).map (⟨·, p.pc⟩)
  | .resume => p.resume
  | op => if p.pc = .out then p.call env op else none

/-- The driver at start-up. -/
def SpiProc.initial (env : SpiEnv) : SpiProc := ⟨.initial env, .out⟩

variable {env : SpiEnv} {p q : SpiProc} {s t : SpiState}

/-- A transfer that is not interrupted is the call `jd_spi_xfer`. -/
lemma jdSpiXfer_of_step {x : SpiXfer} (hp : p.pc = .out) (h : p.step env (.xfer x) = some q) :
    ∃ r, jdSpiXfer x p.core = some (r, if r = 0 then (q.resume.getD q).core else q.core) := by
  simp only [SpiProc.step, hp, if_true, SpiProc.call] at h
  obtain ⟨⟨r, s⟩, hr, rfl⟩ := Option.map_eq_some_iff.mp h
  refine ⟨r, ?_⟩
  by_cases h0 : r = 0 <;> simp [jdSpiXfer, hr, h0, SpiProc.resume]

/-- A call of the done function that is not interrupted is the call `jd_spi_process`. -/
lemma jdSpiProcess_of_step (hp : p.pc = .out) (h : p.step env .process = some q) :
    jdSpiProcess p.core = (q.resume.getD q).core := by
  simp only [SpiProc.step, hp, if_true, SpiProc.call] at h
  cases hd : p.core.spiDoneCb with
  | none =>
    obtain rfl : p = q := by simpa [hd] using h
    simp [jdSpiProcess, hd, SpiProc.resume, hp]
  | some f =>
    simp only [hd, Option.some.injEq] at h
    simp [jdSpiProcess, hd, SpiProc.resume, ← h]

/-! ### The log of a run -/

/-- How far the latest transfer is. -/
inductive SpiStage where
  | idle
  | active (f : SpiDone)
  | pending (f : SpiDone)
  deriving DecidableEq, Repr

/-- The log, newest entry first, follows the protocol: transfers are accepted one after the other,
each is completed by the channel it started, and its done function is called before the next one.
`n` is the number of transfers accepted and the stage that of the latest. -/
inductive Follows : List SpiEvent → ℕ → SpiStage → Prop
  | start : Follows [] 0 .idle
  | configured {log n} (inst : SpiInst) (h : Follows log n .idle) :
      Follows (.configured inst :: log) n .idle
  | accepted {log n} (tx rx : Bool) (len fn : ℕ) (h : Follows log n .idle) :
      Follows (.accepted (n + 1) tx rx len fn :: log) (n + 1) (.active ⟨fn, n + 1⟩)
  | completed {log n f} (h : Follows log n (.active f)) :
      Follows (.completed f f.xfer :: log) n (.pending f)
  | invoked {log n f} (h : Follows log n (.pending f)) : Follows (.invoked f :: log) n .idle
  | shifted {log n st} (inst : SpiInst) (mosi miso : UInt8) (h : Follows log n st) :
      Follows (.shifted inst mosi miso :: log) n st

/-- The entry is the acceptance of a transfer. -/
def SpiEvent.isAccepted : SpiEvent → Bool
  | .accepted .. => true
  | _ => false

/-- The entry is the call of a done function. -/
def SpiEvent.isInvoked : SpiEvent → Bool
  | .invoked _ => true
  | _ => false

namespace Follows

variable {log : List SpiEvent} {n : ℕ} {st : SpiStage} {f : SpiDone}

/-- A transfer that is not over is the latest one. -/
lemma xfer_eq (h : Follows log n st) (hst : st = .active f ∨ st = .pending f) : f.xfer = n := by
  induction h with
  | start => simp at hst
  | configured inst h ih => simp at hst
  | accepted tx rx len fn h ih =>
    obtain rfl : _ = f := by simpa using hst
    rfl
  | completed h ih =>
    obtain rfl : _ = f := by simpa using hst
    exact ih (.inl rfl)
  | invoked h ih => simp at hst
  | shifted inst mosi miso h ih => exact ih hst

/-- All transfers but the latest have been answered, and that one too if nothing is in progress. -/
lemma count_eq (h : Follows log n st) :
    log.countP SpiEvent.isAccepted =
      log.countP SpiEvent.isInvoked + if st = .idle then 0 else 1 := by
  induction h with
  | start => rfl
  | configured inst h ih => simpa [List.countP_cons, SpiEvent.isAccepted,
    SpiEvent.isInvoked] using ih
  | accepted tx rx len fn h ih =>
    simpa [List.countP_cons, SpiEvent.isAccepted, SpiEvent.isInvoked] using ih
  | completed h ih => simpa [List.countP_cons, SpiEvent.isAccepted, SpiEvent.isInvoked] using ih
  | invoked h ih => simpa [List.countP_cons, SpiEvent.isAccepted, SpiEvent.isInvoked] using ih
  | shifted inst mosi miso h ih =>
    simpa [List.countP_cons, SpiEvent.isAccepted, SpiEvent.isInvoked] using ih

/-- The done functions called belong to transfers before the one in progress. -/
lemma xfer_lt_of_invoked (h : Follows log n st) (hf : .invoked f ∈ log) :
    f.xfer ≤ n ∧ (st ≠ .idle → f.xfer < n) := by
  induction h with
  | start => simp at hf
  | configured inst h ih => exact ih (by simpa using hf)
  | accepted tx rx len fn h ih =>
    obtain ⟨hle, -⟩ := ih (by simpa using hf)
    exact ⟨by omega, fun _ => by omega⟩
  | completed h ih =>
    obtain ⟨hle, hlt⟩ := ih (by simpa using hf)
    exact ⟨hle, fun _ => hlt (by simp)⟩
  | @invoked log n g h ih =>
    refine ⟨?_, by simp⟩
    obtain rfl | hf : f = g ∨ .invoked f ∈ log := by simpa using hf
    · exact (h.xfer_eq (.inr rfl)).le
    · exact (ih hf).1
  | shifted inst mosi miso h ih => exact ih (by simpa using hf)

/-- No done function is called twice for a transfer. -/
lemma count_invoked_le (h : Follows log n st) (f : SpiDone) : log.count (.invoked f) ≤ 1 := by
  induction h with
  | start => simp
  | configured inst h ih => simpa using ih
  | accepted tx rx len fn h ih => simpa using ih
  | completed h ih => simpa using ih
  | @invoked log n g h ih =>
    rw [List.count_cons]
    by_cases hg : g = f
    · subst hg
      have hnot : .invoked g ∉ log := fun hmem => by
        have hlt := (h.xfer_lt_of_invoked hmem).2 (by simp)
        exact hlt.ne (h.xfer_eq (.inr rfl))
      simp [List.count_eq_zero_of_not_mem hnot]
    · simpa [hg] using ih
  | shifted inst mosi miso h ih => simpa using ih

/-- A done function that is not called yet is that of a transfer that was accepted with it. -/
lemma exists_accepted (h : Follows log n st) (hst : st = .active f ∨ st = .pending f) :
    ∃ tx rx len, .accepted f.xfer tx rx len f.fn ∈ log := by
  induction h with
  | start => simp at hst
  | configured inst h ih => simp at hst
  | accepted tx rx len fn h ih =>
    obtain rfl : _ = f := by simpa using hst
    exact ⟨tx, rx, len, by simp⟩
  | completed h ih =>
    obtain rfl : _ = f := by simpa using hst
    obtain ⟨tx, rx, len, hmem⟩ := ih (.inl rfl)
    exact ⟨tx, rx, len, List.mem_cons_of_mem _ hmem⟩
  | invoked h ih => simp at hst
  | shifted inst mosi miso h ih =>
    obtain ⟨tx, rx, len, hmem⟩ := ih hst
    exact ⟨tx, rx, len, List.mem_cons_of_mem _ hmem⟩

/-- A completion is that of the transfer whose done function it stored, and this function is kept
until it is called. -/
lemma of_completed {cause : ℕ} (h : Follows log n st) (hf : .completed f cause ∈ log) :
    cause = f.xfer ∧ (∃ tx rx len, .accepted f.xfer tx rx len f.fn ∈ log) ∧
      (.invoked f ∈ log ∨ st = .pending f) := by
  induction h with
  | start => simp at hf
  | configured inst h ih =>
    obtain ⟨hc, ⟨tx, rx, len, ha⟩, hi⟩ := ih (by simpa using hf)
    exact ⟨hc, ⟨tx, rx, len, by simp [ha]⟩, by simpa using hi⟩
  | accepted tx' rx' len' fn h ih =>
    obtain ⟨hc, ⟨tx, rx, len, ha⟩, hi⟩ := ih (by simpa using hf)
    exact ⟨hc, ⟨tx, rx, len, by simp [ha]⟩, by simpa using hi⟩
  | @completed log n g h ih =>
    obtain ⟨rfl, rfl⟩ | hf : f = g ∧ cause = g.xfer ∨ .completed f cause ∈ log := by simpa using hf
    · obtain ⟨tx, rx, len, ha⟩ := h.exists_accepted (.inl rfl)
      exact ⟨rfl, ⟨tx, rx, len, by simp [ha]⟩, by simp⟩
    · obtain ⟨hc, ⟨tx, rx, len, ha⟩, hi⟩ := ih hf
      exact ⟨hc, ⟨tx, rx, len, by simp [ha]⟩, .inl (by simpa using hi)⟩
  | @invoked log n g h ih =>
    obtain ⟨hc, ⟨tx, rx, len, ha⟩, hi⟩ := ih (by simpa using hf)
    refine ⟨hc, ⟨tx, rx, len, by simp [ha]⟩, .inl ?_⟩
    obtain hi | rfl : .invoked f ∈ log ∨ g = f := by simpa using hi
    · exact List.mem_cons_of_mem _ hi
    · exact List.mem_cons_self
  | shifted inst mosi miso h ih =>
    obtain ⟨hc, ⟨tx, rx, len, ha⟩, hi⟩ := ih (by simpa using hf)
    exact ⟨hc, ⟨tx, rx, len, by simp [ha]⟩, by simpa using hi⟩

/-- The completion a pending done function waits for is in the log. -/
lemma completed_mem (h : Follows log n (.pending f)) : .completed f f.xfer ∈ log := by
  generalize hst : SpiStage.pending f = st at h
  induction h with
  | start => simp at hst
  | configured inst h ih => simp at hst
  | accepted tx rx len fn h ih => simp at hst
  | completed h ih =>
    obtain rfl : f = _ := by simpa using hst
    exact List.mem_cons_self
  | invoked h ih => simp at hst
  | shifted inst mosi miso h ih => exact List.mem_cons_of_mem _ (ih hst)

/-- A done function is called after the completion of its transfer. -/
lemma completed_of_invoked {newer older : List SpiEvent} (h : Follows log n st)
    (hlog : log = newer ++ .invoked f :: older) : .completed f f.xfer ∈ older := by
  induction h generalizing newer with
  | start => simp at hlog
  | configured inst h ih =>
    obtain ⟨newer', hrest⟩ := Log.split_of_ne (by simp) hlog
    exact ih hrest
  | accepted tx rx len fn h ih =>
    obtain ⟨newer', hrest⟩ := Log.split_of_ne (by simp) hlog
    exact ih hrest
  | completed h ih =>
    obtain ⟨newer', hrest⟩ := Log.split_of_ne (by simp) hlog
    exact ih hrest
  | invoked h ih =>
    rcases Log.split_cons hlog with ⟨heq, rfl⟩ | ⟨newer', hrest⟩
    · obtain rfl := SpiEvent.invoked.inj heq
      exact h.completed_mem
    · exact ih hrest
  | shifted inst mosi miso h ih =>
    obtain ⟨newer', hrest⟩ := Log.split_of_ne (by simp) hlog
    exact ih hrest

end Follows

/-! ### The invariant -/

/-- The channel `d` carries the completion of the latest transfer and of no other: it is not started
yet and its latch is clear, or it was started by that transfer. -/
def SpiProc.Carries (p : SpiProc) (d : SpiDir) : Prop :=
  match p.pc with
  | .starting tx rx =>
    d.pick tx rx = true ∧ (d = .tx → rx = false) ∧ (p.core.dma d).count = 0 ∧
      (p.core.dma d).intr = none
  | .out =>
    (p.core.dma d).run = p.core.xfers ∧
      ∀ k, (p.core.dma d).intr = some k → k = p.core.xfers ∧ (p.core.dma d).count = 0
  | .finishing _ => False

/-- The stage of the latest transfer shows in the variables of the driver and in its channels. -/
def SpiProc.At (p : SpiProc) : SpiStage → Prop
  | .idle => p.core.Idle ∧ p.pc = .out ∧ (p.core.dma .rx).count = 0
  | .active f => ∃ d, p.core.Active d ∧ (p.core.dma d).context = f ∧ p.Carries d ∧
      (d = .tx → (p.core.dma .rx).count = 0)
  | .pending f => (p.core.dma .rx).count = 0 ∧ p.core.spiInUse = true ∧
      (∀ d, (p.core.dma d).Released) ∧
      ((p.core.spiDoneCb = some f ∧ p.pc = .out) ∨ (p.core.spiDoneCb = none ∧ p.pc = .finishing f))

/-- The run so far follows the protocol, and the state agrees with it. -/
def SpiProc.Inv (p : SpiProc) : Prop := ∃ st, Follows p.core.log p.core.xfers st ∧ p.At st

/-- No transmit-only transfer is accepted while the TX channel is busy. -/
def TxIdle (p : SpiProc) (op : SpiOp) : Prop :=
  ∀ x, op = .xfer x → x.rxdata = false → jdSpiIsReady p.core = true → (p.core.dma .tx).count = 0

/-- The condition can be evaluated along a run. -/
instance TxIdle.decidable (p : SpiProc) (op : SpiOp) : Decidable (TxIdle p op) :=
  match op with
  | .xfer x =>
    decidable_of_iff
      (x.rxdata = false → jdSpiIsReady p.core = true → (p.core.dma .tx).count = 0)
      ⟨fun h _ hx => SpiOp.xfer.inj hx ▸ h, fun h => h x rfl⟩
  | .init _ | .process | .resume | .txMove | .rxMove | .shift .. | .irq =>
    .isTrue fun _ hx => by cases hx

lemma SpiProc.inv_initial : (SpiProc.initial env).Inv :=
  ⟨.idle, .start, ⟨rfl, rfl, fun _ => ⟨rfl, rfl⟩⟩, rfl, rfl⟩

/-- The hardware does not change which transfer a channel carries. -/
lemma SpiProc.Carries.of_hwFrame {d : SpiDir} (h : p.Carries d) (hf : HwFrame p.core t) :
    SpiProc.Carries ⟨t, p.pc⟩ d := by
  unfold SpiProc.Carries at h ⊢
  cases hpc : p.pc with
  | finishing f => simp [hpc] at h
  | starting tx rx =>
    simp only [hpc] at h ⊢
    obtain ⟨hpick, htx, hcount, hintr⟩ := h
    -- a channel that is not busy does not move
    rcases hf.dma d with hd | ⟨hpos, -⟩
    · rw [hd]
      exact ⟨hpick, htx, hcount, hintr⟩
    · omega
  | out =>
    simp only [hpc] at h ⊢
    obtain ⟨hrun, hintr⟩ := h
    rw [hf.xfers]
    rcases hf.dma d with hd | ⟨hpos, hd⟩
    · rw [hd]
      exact ⟨hrun, hintr⟩
    · rw [hd]
      refine ⟨hrun, fun k hk => ?_⟩
      by_cases hone : (p.core.dma d).count = 1
      · obtain rfl : (p.core.dma d).run = k := by simpa [SpiDma.moved, hone] using hk
        exact ⟨hrun, by simp [SpiDma.moved, hone]⟩
      · have := (hintr k (by simpa [SpiDma.moved, hone] using hk)).2
        omega

/-- The hardware keeps the invariant. -/
lemma SpiProc.Inv.of_hwFrame (h : p.Inv) (hf : HwFrame p.core t) : SpiProc.Inv ⟨t, p.pc⟩ := by
  obtain ⟨st, hlog, hat⟩ := h
  refine ⟨st, ?_, ?_⟩
  · rw [hf.xfers]
    rcases hf.log with hl | ⟨inst, mosi, miso, hl⟩
    · rwa [hl]
    · rw [hl]
      exact .shifted inst mosi miso hlog
  · cases st with
    | idle => exact ⟨hf.idle hat.1, hat.2.1, hf.count_eq_zero hat.2.2⟩
    | active f =>
      obtain ⟨d, hact, hctx, hcar, hrx⟩ := hat
      exact ⟨d, hf.active hact, (hf.setup d).2.2.1.trans hctx, hcar.of_hwFrame hf,
        fun hd => hf.count_eq_zero (hrx hd)⟩
    | pending f =>
      obtain ⟨hrx, huse, hrel, hdone⟩ := hat
      exact ⟨hf.count_eq_zero hrx, hf.inUse.trans huse, fun d => hf.released (hrel d),
        by simpa only [hf.done] using hdone⟩

/-- The interrupt service keeps the invariant, and its assertion holds. -/
lemma SpiProc.Inv.irq (h : p.Inv) : ∃ t, spiIsr p.core = some t ∧ SpiProc.Inv ⟨t, p.pc⟩ := by
  obtain ⟨st, hlog, hat⟩ := h
  cases st with
  | idle => exact ⟨p.core, spiIsr_of_ints fun d => (hat.1.released d).ints, .idle, hlog, hat⟩
  | pending f => exact ⟨p.core, spiIsr_of_ints fun d => (hat.2.2.1 d).ints, .pending f, hlog, hat⟩
  | active f =>
    obtain ⟨d, hact, hctx, hcar, hrx⟩ := hat
    refine ⟨_, spiIsr_of_active hact, ?_⟩
    cases hk : (p.core.dma d).intr with
    | none => exact ⟨.active f, hlog, d, hact, hctx, hcar, hrx⟩
    | some k =>
      -- the latch is set, so the channel was started, by the latest transfer, and is done
      unfold SpiProc.Carries at hcar
      cases hpc : p.pc with
      | finishing g => simp [hpc] at hcar
      | starting tx rx => simp [hpc, hk] at hcar
      | out =>
        simp only [hpc] at hcar
        obtain ⟨rfl, hcount⟩ := hcar.2 k hk
        have hx := hlog.xfer_eq (.inl rfl)
        refine ⟨.pending f, ?_, ?_, hact.inUse, (hact.completedBy _).released, .inl ⟨?_, rfl⟩⟩
        · simpa [SpiState.completedBy, hctx, hx] using hlog.completed
        · cases d with
          | tx => simpa using hrx rfl
          | rx => simpa using hcount
        · simp [SpiState.completedBy, hctx]

/-- A driver that is not in use is idle. -/
lemma SpiProc.At.eq_idle (h : p.At st) (huse : p.core.spiInUse = false) : st = .idle := by
  cases st with
  | idle => rfl
  | active f =>
    obtain ⟨d, hact, -⟩ := h
    exact absurd (huse.symm.trans hact.inUse) (by decide)
  | pending f => exact absurd (huse.symm.trans h.2.1) (by decide)

/-- A transfer that an idle driver has prepared is active. -/
lemma SpiProc.At.prepared (h : p.At .idle) {x : SpiXfer} (fn : ℕ) (hC : TxIdle p (.xfer x))
    (hready : jdSpiIsReady p.core = true) (hbuf : x.txdata.isSome ∨ x.rxdata = true) :
    SpiProc.At ⟨p.core.prepared x fn, .starting x.txdata.isSome x.rxdata⟩
      (.active ⟨fn, p.core.xfers + 1⟩) := by
  obtain ⟨hidle, -, hrx⟩ := h
  have htx : x.carrier = .tx → x.rxdata = false := by
    cases hb : x.rxdata <;> simp [SpiXfer.carrier, hb]
  refine ⟨x.carrier, hidle.prepared x fn, by simp [SpiState.prepared],
    ⟨SpiXfer.uses_carrier hbuf, htx, ?_, by simp [SpiState.prepared]⟩, ?_⟩
  · have hcount : (p.core.dma x.carrier).count = 0 := by
      cases hb : x.rxdata with
      | false => simpa [SpiXfer.carrier, hb] using hC x rfl hb hready
      | true => simpa [SpiXfer.carrier, hb] using hrx
    simpa [SpiState.prepared, SpiXfer.uses_carrier hbuf] using hcount
  · intro hd
    simpa [SpiState.prepared, SpiXfer.uses, SpiDir.pick, htx hd, hd] using hrx

/-- A completion that is found by `jd_spi_process` is that of the pending transfer. -/
lemma SpiProc.At.pending_of_done (h : p.At st) (hdone : p.core.spiDoneCb = some f) :
    st = .pending f := by
  cases st with
  | idle => exact absurd (hdone.symm.trans h.1.done) (by simp)
  | active g =>
    obtain ⟨d, hact, -⟩ := h
    exact absurd (hdone.symm.trans hact.done) (by simp)
  | pending g =>
    obtain ⟨-, -, -, ⟨hg, -⟩ | ⟨hnone, -⟩⟩ := h
    · rw [Option.some.inj (hdone.symm.trans hg)]
    · exact absurd (hdone.symm.trans hnone) (by simp)

/-- A call keeps the invariant, a transmit-only transfer if the TX channel is not busy. -/
lemma SpiProc.Inv.call {op : SpiOp} (h : p.Inv) (hC : TxIdle p op) (hp : p.pc = .out)
    (hstep : p.call env op = some q) : q.Inv := by
  obtain ⟨st, hlog, hat⟩ := h
  cases op with
  | init cfg =>
    obtain rfl := Option.some.inj hstep
    rcases jdSpiInit_cases env cfg p.core with ⟨-, hs⟩ | ⟨pin, -, huse, hs⟩
    · rw [hs, ← hp]
      exact ⟨st, hlog, hat⟩
    · obtain rfl := hat.eq_idle huse
      rw [hs]
      exact ⟨.idle, .configured _ hlog, hat.1.configured _, rfl, hat.2.2⟩
  | xfer x =>
    obtain ⟨r, hr, rfl⟩ := Option.map_eq_some_iff.mp hstep
    rcases jdSpiXferPrepare_cases hr with ⟨h0, hs⟩ | ⟨fn, -, hready, -, hpos, hbuf, -, rfl⟩
    · rw [if_neg h0, hs, ← hp]
      exact ⟨st, hlog, hat⟩
    · obtain rfl := hat.eq_idle (jdSpiIsReady_iff.mp hready).2
      simp only [if_true]
      exact ⟨_, .accepted _ _ _ _ hlog, hat.prepared fn hC hready hbuf⟩
  | process =>
    simp only [SpiProc.call] at hstep
    cases hd : p.core.spiDoneCb with
    | none =>
      obtain rfl : p = q := by simpa [hd] using hstep
      exact ⟨st, hlog, hat⟩
    | some f =>
      obtain rfl : (⟨{ p.core with spiDoneCb := none }, .finishing f⟩ : SpiProc) = q := by
        simpa [hd] using hstep
      obtain rfl := hat.pending_of_done hd
      obtain ⟨hrx, huse, hrel, -⟩ := hat
      exact ⟨.pending f, hlog, hrx, huse, hrel, .inr ⟨rfl, rfl⟩⟩
  | resume => simp [SpiProc.call] at hstep
  | txMove => simp [SpiProc.call] at hstep
  | rxMove => simp [SpiProc.call] at hstep
  | shift inst miso => simp [SpiProc.call] at hstep
  | irq => simp [SpiProc.call] at hstep

/-- The start of the channels and the call of the done function keep the invariant. -/
lemma SpiProc.Inv.resume (h : p.Inv) (hstep : p.resume = some q) : q.Inv := by
  obtain ⟨st, hlog, hat⟩ := h
  unfold SpiProc.resume at hstep
  cases hpc : p.pc with
  | out => simp [hpc] at hstep
  | starting tx rx =>
    simp only [hpc, Option.some.injEq] at hstep
    cases st with
    | idle => exact absurd (hpc.symm.trans hat.2.1) (by simp)
    | pending f =>
      rcases hat with ⟨-, -, -, ⟨-, hout⟩ | ⟨-, hout⟩⟩ <;>
        exact absurd (hpc.symm.trans hout) (by simp)
    | active f =>
      obtain ⟨d, hact, hctx, hcar, hrx⟩ := hat
      simp only [SpiProc.Carries, hpc] at hcar
      obtain ⟨hpick, htx, hcount, hintr⟩ := hcar
      rw [dmaStart_eq] at hstep
      subst hstep
      refine ⟨.active f, hlog, d, ?_, ?_, ?_, fun hd => ?_⟩
      · exact hact.of_start tx rx
      · simpa [hpick, (SpiDma.start_setup _ _).2.2.1] using hctx
      · simp [SpiProc.Carries, hpick, SpiDma.start, hcount, hintr]
      · simpa [SpiDir.pick, htx hd] using hrx hd
  | finishing f =>
    simp only [hpc, Option.some.injEq] at hstep
    subst hstep
    cases st with
    | idle => exact absurd (hpc.symm.trans hat.2.1) (by simp)
    | active g =>
      obtain ⟨d, -, -, hcar, -⟩ := hat
      simp [SpiProc.Carries, hpc] at hcar
    | pending g =>
      rcases hat with ⟨hrx, -, hrel, ⟨-, hout⟩ | ⟨hnone, hfin⟩⟩
      · exact absurd (hpc.symm.trans hout) (by simp)
      · obtain rfl : f = g := by simpa using hpc.symm.trans hfin
        exact ⟨.idle, .invoked hlog, ⟨rfl, hnone, hrel⟩, rfl, hrx⟩

/-- One step keeps the invariant. -/
lemma SpiProc.Inv.step {op : SpiOp} (h : p.Inv) (hC : TxIdle p op)
    (hstep : p.step env op = some q) :
    q.Inv := by
  have hcall : (if p.pc = .out then p.call env op else none) = some q → q.Inv := fun hcall => by
    obtain ⟨hp, hq⟩ := Option.ite_none_right_eq_some.mp hcall
    exact h.call hC hp hq
  cases op with
  | txMove =>
    obtain ⟨t, ht, rfl⟩ := Option.map_eq_some_iff.mp hstep
    exact h.of_hwFrame (hwFrame_of_step (by trivial) ht)
  | rxMove =>
    obtain ⟨t, ht, rfl⟩ := Option.map_eq_some_iff.mp hstep
    exact h.of_hwFrame (hwFrame_of_step (by trivial) ht)
  | shift inst miso =>
    obtain ⟨t, ht, rfl⟩ := Option.map_eq_some_iff.mp hstep
    exact h.of_hwFrame (hwFrame_of_step (by trivial) ht)
  | irq =>
    obtain ⟨t, ht, rfl⟩ := Option.map_eq_some_iff.mp hstep
    obtain ⟨t', ht', hinv⟩ := h.irq
    obtain rfl : t' = t := Option.some.inj (ht'.symm.trans ht)
    exact hinv
  | resume => exact h.resume hstep
  | init cfg => exact hcall hstep
  | xfer x => exact hcall hstep
  | process => exact hcall hstep

/-! ### The protocol -/

/-- What the driver promises about the completion of transfers, in one state of a run. -/
structure SpiProtocol (env : SpiEnv) (p : SpiProc) : Prop where
  /-- At most one transfer is outstanding. -/
  oneOutstanding : p.core.log.countP SpiEvent.isAccepted ≤ p.core.log.countP SpiEvent.isInvoked + 1
  /-- The done function of a transfer is called at most once. -/
  invokedOnce : ∀ f, p.core.log.count (.invoked f) ≤ 1
  /-- It is called after the completion of a channel that the same transfer started. -/
  invokedAfter : ∀ f newer older, p.core.log = newer ++ .invoked f :: older →
    .completed f f.xfer ∈ older
  /-- A completion stores the done function the transfer was accepted with, and nothing but a
  completion of the transfer stores it. -/
  completedOwn : ∀ f cause, .completed f cause ∈ p.core.log →
    cause = f.xfer ∧ ∃ tx rx len, .accepted f.xfer tx rx len f.fn ∈ p.core.log
  /-- A done function stays in `spi_done_cb` until `jd_spi_process` takes it out to call it. -/
  kept : ∀ f cause, .completed f cause ∈ p.core.log →
    .invoked f ∈ p.core.log ∨ p.core.spiDoneCb = some f ∨ p.pc = .finishing f
  /-- A rejected `jd_spi_init` changes nothing. -/
  rejectedInit : ∀ cfg, (jdSpiInit env cfg p.core).1 ≠ 0 → (jdSpiInit env cfg p.core).2 = p.core
  /-- A rejected `jd_spi_xfer` changes nothing. -/
  rejectedXfer : ∀ x r, jdSpiXfer x p.core = some r → r.1 ≠ 0 → r.2 = p.core
  /-- The assertion of `spi_dma_cb` holds. -/
  noneStored : (spiIsr p.core).isSome
  /-- The assertion of `dma_set_ch_cb` holds: a call with a done function and a buffer is
  answered. -/
  slotEmpty : p.pc = .out → ∀ x : SpiXfer, x.doneFn.isSome → (x.txdata.isSome ∨ x.rxdata = true) →
    (jdSpiXferPrepare x p.core).isSome

/-- With empty handler slots, `jd_spi_xfer` fails on no assertion but those about its arguments. -/
lemma jdSpiXferPrepare_isSome {x : SpiXfer}
    (hready : jdSpiIsReady s = true → ∀ d, (s.dma d).Released)
    (hfn : x.doneFn.isSome) (hbuf : x.txdata.isSome ∨ x.rxdata = true) :
    (jdSpiXferPrepare x s).isSome := by
  obtain ⟨fn, hfn⟩ := Option.isSome_iff_exists.mp hfn
  unfold jdSpiXferPrepare
  simp only [hfn]
  split_ifs with h1 h2 h3 h4
  · rfl
  · rfl
  · rfl
  · obtain ⟨htx, hrx⟩ : x.txdata = none ∧ x.rxdata = false := by simpa using h4
    simp [htx, hrx] at hbuf
  · have hslot := (hready (by simpa using h1) x.carrier).handler
    cases htx : x.txdata <;> cases hrx : x.rxdata <;>
      simp_all [SpiState.setup, SpiXfer.carrier, SpiDma.setChCb, setDma]

/-- The invariant gives the protocol. -/
lemma SpiProc.Inv.protocol (h : p.Inv) : SpiProtocol env p := by
  have hirq := h.irq
  obtain ⟨st, hlog, hat⟩ := h
  constructor
  · rw [hlog.count_eq]
    split <;> omega
  · exact hlog.count_invoked_le
  · exact fun f newer older => hlog.completed_of_invoked
  · exact fun f cause hf => ⟨(hlog.of_completed hf).1, (hlog.of_completed hf).2.1⟩
  · intro f cause hf
    rcases (hlog.of_completed hf).2.2 with hi | rfl
    · exact .inl hi
    · rcases hat with ⟨-, -, -, ⟨hdone, -⟩ | ⟨-, hpc⟩⟩
      · exact .inr (.inl hdone)
      · exact .inr (.inr hpc)
  · intro cfg h0
    rcases jdSpiInit_cases env cfg p.core with ⟨-, hs⟩ | ⟨pin, -, -, hs⟩
    · exact hs
    · simp [hs] at h0
  · intro x r hr h0
    obtain ⟨r', hr', rfl⟩ := Option.map_eq_some_iff.mp hr
    rcases jdSpiXferPrepare_cases hr' with ⟨h1, hs⟩ | ⟨fn, -, -, -, -, -, -, rfl⟩
    · simpa [h1] using hs
    · simp at h0
  · obtain ⟨t, ht, -⟩ := hirq
    simp [ht]
  · intro hp x hfn hbuf
    refine jdSpiXferPrepare_isSome (fun hready d => ?_) hfn hbuf
    obtain rfl := hat.eq_idle (jdSpiIsReady_iff.mp hready).2
    exact hat.1.released d

/-- In every run in which no transmit-only transfer is accepted while the TX channel is busy, the
completion protocol holds in every state. -/
theorem spiProtocol_of_txIdle (env : SpiEnv) {ops : List SpiOp} {p : SpiProc}
    (hC : Machine.AllSteps (SpiProc.step env) TxIdle (.initial env) ops)
    (hrun : Machine.exec (SpiProc.step env) (.initial env) ops = some p) : SpiProtocol env p :=
  SpiProc.Inv.protocol <| Machine.exec_inv_of_allSteps (fun _ _ _ h hC hst => h.step hC hst)
    SpiProc.inv_initial hC hrun

/-- A full-duplex transfer of ten bytes on the second block, up to the call of its done function.
The TX channel fills the FIFO and follows the first shift; the RX channel then makes its ten moves
at once. -/
def earlyEndOps : List SpiOp :=
  [[.init ⟨10, 12, 11⟩, .xfer ⟨some fun _ => 0, true, 10, some 1⟩, .resume],
    List.replicate 8 .txMove, [.shift .spi1 0, .txMove], List.replicate 10 .rxMove,
    [.irq, .process, .resume]].flatten

/-- A run on the second block that meets the condition: after the early end of a full-duplex
transfer the TX channel gets rid of its last byte before the next transfer is made. -/
theorem spiProtocol_earlyEnd :
    let env : SpiEnv := ⟨0, fun _ => 0⟩
    let ops := earlyEndOps.append [.shift .spi1 0, .txMove,
      .xfer ⟨some fun _ => 0, false, 1, some 2⟩]
    Machine.AllSteps (SpiProc.step env) TxIdle (.initial env) ops ∧
      ∃ p, Machine.exec (SpiProc.step env) (.initial env) ops = some p ∧ SpiProtocol env p := by
  intro env ops
  have hC : Machine.AllSteps (SpiProc.step env) TxIdle (.initial env) ops := by decide +kernel
  have hrun : (Machine.exec (SpiProc.step env) (.initial env) ops).isSome := by decide +kernel
  obtain ⟨p, hp⟩ := Option.isSome_iff_exists.mp hrun
  exact ⟨hC, p, hp, spiProtocol_of_txIdle env hC hp⟩

/-- The next transfer is a transmit-only one of one byte, made while the TX channel still has a byte
of the first transfer: its done function is stored when that byte is moved, and not for a completion
of its own. -/
theorem not_spiProtocol_earlyEnd :
    let env : SpiEnv := ⟨0, fun _ => 0⟩
    let ops := earlyEndOps.append
      [.xfer ⟨some fun _ => 0, false, 1, some 2⟩, .resume, .shift .spi1 0, .txMove, .irq]
    ∃ p, Machine.exec (SpiProc.step env) (.initial env) ops = some p ∧
      SpiEvent.completed ⟨2, 2⟩ 1 ∈ p.core.log ∧ ¬ SpiProtocol env p := by
  intro env ops
  have hrun : (Machine.exec (SpiProc.step env) (.initial env) ops).map
      (fun p => decide (SpiEvent.completed ⟨2, 2⟩ 1 ∈ p.core.log)) = some true := by decide +kernel
  obtain ⟨p, hp, hmem⟩ := Option.map_eq_some_iff.mp hrun
  rw [decide_eq_true_iff] at hmem
  exact ⟨p, hp, hmem, fun h => absurd (h.completedOwn _ _ hmem).1 (by decide)⟩

end JdPico
