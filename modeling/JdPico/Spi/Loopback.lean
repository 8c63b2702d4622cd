import JdPico.Spi.Exchange

/-!
# SPI loopback

With MISO wired to MOSI, the first full-duplex transfer after `jd_spi_init` gives back the bytes it
sends (`LoopbackLaw`) if the pins belong to the first block, and only then: `jd_spi_init` sets the
RX channel up to read the data register of `spi_default`, whichever block it has selected.
-/

namespace JdPico

open SpiState

variable {env : SpiEnv} {s t : SpiState} {tx : ℕ → UInt8} {n : ℕ}

/-! ### Pins -/

/-- The block that a pin can be given to: the pins 0 to 29 go to the blocks in turn, eight at
a time. -/
def spiOfGpio (pin : UInt8) : Option SpiInst :=
  if pin.toNat < 30 then some (if pin.toNat / 8 % 2 = 0 then .spi0 else .spi1) else none

/-- All pins of the configuration belong to the block. -/
def SpiCfg.On (cfg : SpiCfg) (inst : SpiInst) : Prop :=
  ∀ pin ∈ cfg.pins, pin ≠ noPin → spiOfGpio pin = some inst

/-- Some pin is given, so that `jd_spi_init` accepts the configuration. -/
def SpiCfg.Given (cfg : SpiCfg) : Prop := ∃ pin ∈ cfg.pins, pin ≠ noPin

/-- `jd_spi_init` selects the block of the pin. -/
lemma spiSelect_eq {pin : UInt8} {inst : SpiInst} (h : spiOfGpio pin = some inst) :
    spiSelect pin = inst := by
  have hbit : (pin / 8 &&& 1).toNat = pin.toNat / 8 % 2 := by
    simp [UInt8.toNat_and, Nat.and_one_is_mod]
  have hzero : pin / 8 &&& 1 = 0 ↔ pin.toNat / 8 % 2 = 0 := by
    rw [← UInt8.toNat_inj, hbit, UInt8.toNat_zero]
  obtain ⟨-, hinst⟩ := Option.ite_none_right_eq_some.mp h
  obtain rfl := Option.some.inj hinst
  by_cases h0 : pin.toNat / 8 % 2 = 0 <;> simp [spiSelect, hzero, h0]

/-- An idle driver is configured for the block of its pins. -/
lemma jdSpiInit_of_on {cfg : SpiCfg} {inst : SpiInst} (hgiven : cfg.Given) (hon : cfg.On inst)
    (huse : s.spiInUse = false) : jdSpiInit env cfg s = (0, s.configured env inst) := by
  obtain ⟨pin, hmem, hne⟩ := hgiven
  rcases jdSpiInit_cases env cfg s with ⟨hrej, -⟩ | ⟨pin', hfind, -, hinit⟩
  · exfalso
    unfold jdSpiInit at hrej
    rw [huse] at hrej
    simp only [Bool.false_eq_true, if_false] at hrej
    split at hrej
    · rename_i hnone
      exact absurd (List.find?_eq_none.mp hnone pin hmem) (by simpa using hne)
    · exact hrej rfl
  · have hpin' : pin' ≠ noPin := by simpa using List.find?_some hfind
    rw [hinit, spiSelect_eq (hon pin' (List.mem_of_find?_eq_some hfind) hpin')]

/-! ### The law -/

/-- No transfer is in progress and no channel is busy. -/
structure Quiet (s : SpiState) : Prop where
  idle : s.Idle
  count : ∀ d, (s.dma d).count = 0

/-- The steps between the acceptance of a transfer and its end, with MISO wired to MOSI. -/
def Looped (s : SpiState) : SpiAction → Prop
  | .txMove | .rxMove | .irq => True
  | .shift inst miso => (s.hw inst).txFifo.head? = some miso
  | _ => False

/-- A full-duplex transfer made first after `jd_spi_init` accepted the configuration, with empty
FIFOs, has stored the bytes it sent by the time its done function can be called. -/
def LoopbackLaw (env : SpiEnv) (cfg : SpiCfg) : Prop :=
  ∀ s t u v : SpiState, ∀ (tx : ℕ → UInt8) (n fn : ℕ) (acts : List SpiAction),
    Quiet s → jdSpiInit env cfg s = (0, t) → (∀ inst, t.hw inst = .reset) →
    1 ≤ n → n ≤ spiBlockSize → jdSpiXfer ⟨some tx, true, n, some fn⟩ t = some (0, u) →
    Machine.AllSteps (SpiState.step env) Looped u acts →
    Machine.exec (SpiState.step env) u acts = some v → v.spiDoneCb.isSome →
    v.rxStored = (List.range n).map tx

/-- A step with MISO wired to MOSI keeps the account of the transfer, and what is clocked in is what
is clocked out. -/
lemma Serving.looped {a : SpiAction}
    (h : Serving tx n s ∧ clockedIn .spi0 s.log = clockedOut .spi0 s.log) (hC : Looped s a)
    (hst : s.step env a = some t) :
    Serving tx n t ∧ clockedIn .spi0 t.log = clockedOut .spi0 t.log := by
  obtain ⟨hs, hlog⟩ := h
  cases a with
  | txMove =>
    refine ⟨hs.of_hw (by trivial) hst, ?_⟩
    obtain ⟨-, rfl⟩ := spiTxMove_eq_some.mp hst
    exact hlog
  | rxMove =>
    refine ⟨hs.of_hw (by trivial) hst, ?_⟩
    obtain ⟨-, rfl⟩ := spiRxMove_eq_some.mp hst
    exact hlog
  | shift inst miso =>
    refine ⟨hs.of_hw (by trivial) hst, ?_⟩
    obtain ⟨mosi, rest, hfifo, rfl⟩ := spiShift_eq_some.mp hst
    obtain rfl : mosi = miso := by simpa [Looped, hfifo] using hC
    simp [note, setHw, clockedIn, clockedOut, hlog]
  | irq =>
    refine ⟨hs.irq hst, ?_⟩
    have hst' : spiIsr s = some t := hst
    rcases hs.phase with hact | ⟨⟨f, hpend⟩, -⟩
    · rw [spiIsr_of_active hact] at hst'
      obtain rfl := Option.some.inj hst'
      cases (s.dma .rx).intr <;> exact hlog
    · rw [spiIsr_of_ints fun d => (hpend.released d).ints] at hst'
      exact Option.some.inj hst' ▸ hlog
  | init cfg => exact hC.elim
  | xfer x => exact hC.elim
  | process => exact hC.elim

/-- The configuration for the first block clears a quiet driver. -/
lemma Quiet.configured (h : Quiet s) : Clear (s.configured env .spi0) := by
  refine ⟨h.idle.configured _, ⟨fun d => ?_, fun d => ?_⟩, by simp [SpiState.configured],
    fun d => ?_⟩
  · cases d <;> rfl
  · cases d <;> rfl
  · cases d <;> exact h.count _

/-- On the first block the law holds. -/
lemma loopbackLaw_of_spi0 {cfg : SpiCfg} (hgiven : cfg.Given) (hon : cfg.On .spi0) :
    LoopbackLaw env cfg := by
  intro s t u v tx n fn acts hs hinit _ _ _ hx hC hrun hdone
  rw [jdSpiInit_of_on hgiven hon hs.idle.inUse] at hinit
  obtain rfl := (Prod.mk.inj hinit).2
  have hserve := hs.configured.serving hx rfl
  have hlog : clockedIn .spi0 u.log = clockedOut .spi0 u.log := by
    obtain ⟨r, hr, hu⟩ := Option.map_eq_some_iff.mp hx
    rcases jdSpiXferPrepare_cases hr with ⟨h1, -⟩ | ⟨fn', -, -, -, -, -, -, rfl⟩
    · rw [if_neg h1] at hu
      exact absurd (congrArg Prod.fst hu) h1
    · obtain rfl := (Prod.mk.inj hu).2
      simp [dmaStart_eq, SpiState.prepared, clockedIn, clockedOut]
  obtain ⟨hv, hvlog⟩ := Machine.exec_inv_of_allSteps (fun _ _ _ => Serving.looped)
    ⟨hserve, hlog⟩ hC hrun
  obtain ⟨hin, -, hout⟩ := hv.rxStored_eq hdone
  rw [hin, hvlog, hout]

/-- On the second block the law fails for a single byte: the RX channel reads the data register of
the first block, which has received nothing. -/
lemma not_loopbackLaw_of_spi1 {cfg : SpiCfg} (hgiven : cfg.Given) (hon : cfg.On .spi1) :
    ¬ LoopbackLaw env cfg := by
  intro hlaw
  let tx : ℕ → UInt8 := fun _ => env.drEmpty + 1
  let t := (SpiState.initial env).configured env .spi1
  let u := ((jdSpiXfer ⟨some tx, true, 1, some 0⟩ t).getD (0, t)).2
  let acts : List SpiAction := [.txMove, .shift .spi1 (tx 0), .rxMove, .irq]
  have hinit : jdSpiInit env cfg (.initial env) = (0, t) := jdSpiInit_of_on hgiven hon rfl
  have hquiet : Quiet (.initial env) := ⟨⟨rfl, rfl, fun _ => ⟨rfl, rfl⟩⟩, fun _ => rfl⟩
  have hhw : ∀ inst, t.hw inst = .reset := fun inst => by cases inst <;> rfl
  have hx : jdSpiXfer ⟨some tx, true, 1, some 0⟩ t = some (0, u) := rfl
  have hC : Machine.AllSteps (SpiState.step env) Looped u acts := by
    refine ⟨trivial, fun w hw => ?_⟩
    obtain rfl : u.txMoved = w := (spiTxMove_eq_some (s := u).mp hw).2
    exact ⟨rfl, fun _ _ => ⟨trivial, fun _ _ => ⟨trivial, fun _ _ => trivial⟩⟩⟩
  have hrun : (Machine.exec (SpiState.step env) u acts).map
      (fun v => (v.spiDoneCb.isSome, v.rxStored)) = some (true, [env.drEmpty]) := rfl
  obtain ⟨v, hv, heq⟩ := Option.map_eq_some_iff.mp hrun
  obtain ⟨hdone, hstored⟩ := Prod.mk.inj heq
  have := hlaw _ t u v tx 1 0 acts hquiet hinit hhw le_rfl (by decide) hx hC hv hdone
  rw [hstored] at this
  simp [tx] at this

/-- The law holds for a configuration on one block exactly if this is the first block. -/
theorem loopbackLaw_iff (env : SpiEnv) (cfg : SpiCfg) (inst : SpiInst) (hgiven : cfg.Given)
    (hon : cfg.On inst) : LoopbackLaw env cfg ↔ inst = .spi0 := by
  constructor
  · intro hlaw
    cases inst with
    | spi0 => rfl
    | spi1 => exact absurd hlaw (not_loopbackLaw_of_spi1 hgiven hon)
  · rintro rfl
    exact loopbackLaw_of_spi0 hgiven hon

/-- The pins 2, 4 and 3 are on the first block. -/
theorem loopbackLaw_gpio2 :
    (⟨2, 4, 3⟩ : SpiCfg).Given ∧ (⟨2, 4, 3⟩ : SpiCfg).On .spi0 ∧
      LoopbackLaw ⟨0, fun _ => 0⟩ ⟨2, 4, 3⟩ := by
  have hgiven : (⟨2, 4, 3⟩ : SpiCfg).Given := ⟨2, by decide, by decide⟩
  have hon : (⟨2, 4, 3⟩ : SpiCfg).On .spi0 := by
    rintro pin hmem -
    simp only [SpiCfg.pins, List.mem_cons, List.not_mem_nil, or_false] at hmem
    rcases hmem with rfl | rfl | rfl <;> decide
  exact ⟨hgiven, hon, (loopbackLaw_iff _ _ _ hgiven hon).mpr rfl⟩

/-- The pins 10, 12 and 11 are on the second block. -/
theorem not_loopbackLaw_gpio10 :
    (⟨10, 12, 11⟩ : SpiCfg).Given ∧ (⟨10, 12, 11⟩ : SpiCfg).On .spi1 ∧
      ¬ LoopbackLaw ⟨0, fun _ => 0⟩ ⟨10, 12, 11⟩ := by
  have hgiven : (⟨10, 12, 11⟩ : SpiCfg).Given := ⟨10, by decide, by decide⟩
  have hon : (⟨10, 12, 11⟩ : SpiCfg).On .spi1 := by
    rintro pin hmem -
    simp only [SpiCfg.pins, List.mem_cons, List.not_mem_nil, or_false] at hmem
    rcases hmem with rfl | rfl | rfl <;> decide
  exact ⟨hgiven, hon, not_loopbackLaw_of_spi1 hgiven hon⟩

end JdPico
