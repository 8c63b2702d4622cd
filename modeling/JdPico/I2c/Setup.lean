import JdPico.I2c.Write
import JdPico.Pins.Registers

/-!
# Setting up the I2C bus

`i2c_init_` takes the pins of the bus from the device configuration, which may change while the
program runs, and may be called at any time.  It checks that there are two pins, that they belong to
the same block, and that each is of the right kind; only then does it change anything, and then it
remembers the block and never looks at the configuration again.

So the first call that finds valid pins decides.  The calls before it fail and change nothing, those
after it succeed and change nothing, whatever the configuration says by then
(`i2c_first_valid_setup`).
-/

namespace JdPico

open Machine

/-! ### The code -/

/-- What `i2c_init_` reads from the configuration: the pins, and `i2c.kHz`. -/
structure I2cConfig where
  sda : PinArg
  scl : PinArg
  khz : ℤ
  deriving DecidableEq, Repr

/-- What it changes. -/
structure I2cSetup where
  /-- `i2c_inst`; `none` is the null pointer. -/
  i2cInst : Option I2cInst
  /-- The speed that a block was initialised with. -/
  baud : I2cInst → Option ℤ
  regs : PinRegs

/-- `GPIO_FUNC_I2C`. -/
def funcI2c : BitVec 5 := 3

/-- `I2C_INST`. -/
def i2cBlock (pin : Fin 30) : I2cInst := if pin.val >>> 1 &&& 1 ≠ 0 then .i2c1 else .i2c0

/-- The end of `i2c_init_`: the block is initialised, and the pins are connected to it and pulled
up. -/
def I2cSetup.configure (sda scl : Fin 30) (khz : ℤ) (s : I2cSetup) : I2cSetup where
  i2cInst := some (i2cBlock sda)
  baud := Function.update s.baud (i2cBlock sda) (some (khz * 1000))
  regs := (((s.regs.gpioSetFunction sda funcI2c).gpioSetFunction scl funcI2c).gpioSetPulls sda
    true false).gpioSetPulls scl true false

/-- `i2c_init_`, with its result. -/
def i2cInitAll (s : I2cSetup) (config : I2cConfig) : ℤ × I2cSetup :=
  if s.i2cInst.isSome then (0, s)
  else
    match config.sda, config.scl with
    | some sda, some scl =>
      if i2cBlock sda ≠ i2cBlock scl then (-2, s)
      else if sda.val &&& 1 ≠ 0 ∨ scl.val &&& 1 = 0 then (-3, s)
      else (0, s.configure sda scl config.khz)
    | _, _ => (-1, s)

/-- The state after a call. -/
def I2cSetup.next (s : I2cSetup) (config : I2cConfig) : I2cSetup := (i2cInitAll s config).2

/-- The state at start-up, with any registers. -/
def I2cSetup.initial (regs : PinRegs) : I2cSetup := ⟨none, fun _ => none, regs⟩

/-! ### One call -/

/-- The pins are those of one block, an even one for `SDA` and an odd one for `SCL`. -/
def I2cConfig.Valid (config : I2cConfig) : Prop :=
  match config.sda, config.scl with
  | some sda, some scl => i2cBlock sda = i2cBlock scl ∧ sda.val % 2 = 0 ∧ scl.val % 2 = 1
  | _, _ => False

instance I2cConfig.decidableValid : (config : I2cConfig) → Decidable config.Valid
  | ⟨some _, some _, _⟩ => inferInstanceAs (Decidable (_ ∧ _ ∧ _))
  | ⟨some _, none, _⟩ | ⟨none, _, _⟩ => .isFalse id

variable {s : I2cSetup} {config : I2cConfig} {regs : PinRegs}

/-- What a call can do. -/
lemma i2cInitAll_cases (s : I2cSetup) (config : I2cConfig) :
    (s.i2cInst.isSome ∧ i2cInitAll s config = (0, s)) ∨
    (s.i2cInst.isSome = false ∧ ¬config.Valid ∧ ∃ r < 0, i2cInitAll s config = (r, s)) ∨
    (s.i2cInst.isSome = false ∧ config.Valid ∧ ∃ sda scl, config.sda = some sda ∧
      config.scl = some scl ∧ i2cInitAll s config = (0, s.configure sda scl config.khz)) := by
  unfold i2cInitAll I2cConfig.Valid
  by_cases hsome : s.i2cInst.isSome
  · exact .inl ⟨hsome, if_pos hsome⟩
  rw [if_neg hsome, Bool.not_eq_true] at *
  refine .inr ?_
  rcases hsda : config.sda with _ | sda
  · exact .inl ⟨hsome, id, -1, by decide, rfl⟩
  rcases hscl : config.scl with _ | scl
  · exact .inl ⟨hsome, id, -1, by decide, rfl⟩
  dsimp only
  rw [Nat.and_one_is_mod, Nat.and_one_is_mod]
  by_cases hblock : i2cBlock sda = i2cBlock scl
  · rw [if_neg (not_not.mpr hblock)]
    by_cases hkind : sda.val % 2 ≠ 0 ∨ scl.val % 2 = 0
    · rw [if_pos hkind]
      exact .inl ⟨hsome, fun ⟨_, heven, hodd⟩ => by omega, -3, by decide, rfl⟩
    · rw [if_neg hkind]
      exact .inr ⟨hsome, ⟨hblock, by omega, by omega⟩, sda, scl, rfl, rfl, rfl⟩
  · rw [if_pos hblock]
    exact .inl ⟨hsome, fun h => hblock h.1, -2, by decide, rfl⟩

/-- A pin in the configuration, as a byte. -/
def pinByte : PinArg → UInt8
  | some pin => pin.val.toUInt8
  | none => 0xff

/-- As a byte, a pin belongs to the same block and is of the same kind. -/
lemma pinByte_some (pin : Fin 30) : pinByte (some pin) ≠ 0xff ∧
    i2cInstOf (pinByte (some pin)) = i2cBlock pin ∧
    (pinByte (some pin) &&& 1 = 0 ↔ pin.val &&& 1 = 0) := by
  revert pin
  decide

/-- The block that is chosen, and the result, are those of the model of the writes. -/
lemma i2cInitAll_eq_i2cInit (s : I2cSetup) (config : I2cConfig) (bus : I2cInst → I2cBus) :
    (i2cInit ⟨s.i2cInst, bus⟩ (pinByte config.sda) (pinByte config.scl)).1 =
        (i2cInitAll s config).1 ∧
      (i2cInit ⟨s.i2cInst, bus⟩ (pinByte config.sda) (pinByte config.scl)).2.i2cInst =
        (i2cInitAll s config).2.i2cInst := by
  have hnone : pinByte none = 0xff := rfl
  unfold i2cInit i2cInitAll
  by_cases hsome : s.i2cInst.isSome
  · simp only [if_pos hsome, and_self]
  simp only [if_neg hsome]
  rcases config.sda with _ | sda
  · simp only [hnone, true_or, if_true, and_self]
  rcases config.scl with _ | scl
  · simp only [hnone, or_true, if_true, and_self]
  obtain ⟨hsda, hsdaBlock, hsdaKind⟩ := pinByte_some sda
  obtain ⟨hscl, hsclBlock, hsclKind⟩ := pinByte_some scl
  simp only [if_neg (not_or.mpr ⟨hsda, hscl⟩), hsdaBlock, hsclBlock, ne_eq, hsdaKind, hsclKind]
  split_ifs <;> exact ⟨rfl, rfl⟩

/-- A call succeeds if the bus is set up, or if the pins are valid. -/
lemma i2cInitAll_eq_zero_iff : (i2cInitAll s config).1 = 0 ↔ s.i2cInst.isSome ∨ config.Valid := by
  rcases i2cInitAll_cases s config with ⟨h, heq⟩ | ⟨h, hv, r, hr, heq⟩ | ⟨h, hv, _, _, _, _, heq⟩
  · simp [heq, h]
  · simp [heq, h, hv, hr.ne]
  · simp [heq, hv]

/-- Once the bus is set up a call changes nothing. -/
lemma I2cSetup.next_of_isSome (h : s.i2cInst.isSome) : s.next config = s := by
  rw [I2cSetup.next, i2cInitAll, if_pos h]

/-- A call with pins that are not valid changes nothing. -/
lemma I2cSetup.next_of_not_valid (hv : ¬config.Valid) : s.next config = s := by
  rcases i2cInitAll_cases s config with ⟨-, heq⟩ | ⟨-, -, r, -, heq⟩ | ⟨-, h, -⟩
  · rw [I2cSetup.next, heq]
  · rw [I2cSetup.next, heq]
  · exact absurd h hv

/-- A call with valid pins sets the bus up. -/
lemma I2cSetup.isSome_next (hv : config.Valid) : (s.next config).i2cInst.isSome := by
  rcases i2cInitAll_cases s config with ⟨h, heq⟩ | ⟨-, h, -⟩ | ⟨-, -, sda, scl, -, -, heq⟩
  · rwa [I2cSetup.next, heq]
  · exact absurd hv h
  · rw [I2cSetup.next, heq]
    rfl

/-- Only the two pins are changed. -/
lemma view_configure (sda scl : Fin 30) (khz : ℤ) (gpio : Fin 30) :
    (s.configure sda scl khz).regs.view gpio =
      if gpio = sda ∨ gpio = scl then
        { (s.regs.view gpio).select funcI2c with pullUp := true, pullDown := false }
      else s.regs.view gpio := by
  simp only [I2cSetup.configure, PinRegs.view_gpioSetPulls, PinRegs.view_gpioSetFunction]
  by_cases hsda : gpio = sda
  · simp only [if_pos hsda, if_pos (Or.inl hsda)]
    split_ifs <;> rfl
  · by_cases hscl : gpio = scl
    · simp only [if_neg hsda, if_pos hscl, if_pos (Or.inr hscl)]
    · simp only [if_neg hsda, if_neg hscl, if_neg (not_or.mpr ⟨hsda, hscl⟩)]

/-! ### All calls -/

/-- Once the bus is set up calls change nothing. -/
lemma foldl_next_of_isSome (h : s.i2cInst.isSome) (calls : List I2cConfig) :
    calls.foldl I2cSetup.next s = s := by
  induction calls with
  | nil => rfl
  | cons c calls ih => rw [List.foldl_cons, I2cSetup.next_of_isSome h, ih]

/-- The first call with valid pins decides. -/
lemma foldl_next_eq (s : I2cSetup) (calls : List I2cConfig) :
    calls.foldl I2cSetup.next s = (calls.find? fun c => c.Valid).elim s s.next := by
  induction calls with
  | nil => rfl
  | cons c calls ih =>
    rw [List.foldl_cons]
    by_cases hv : c.Valid
    · rw [List.find?_cons_of_pos (by simpa using hv),
        foldl_next_of_isSome (I2cSetup.isSome_next hv), Option.elim_some]
    · rw [List.find?_cons_of_neg (by simpa using hv), I2cSetup.next_of_not_valid hv, ih]

/-- **The first valid set-up decides.**  For any sequence of calls of `i2c_init_`, with any
configurations: another call succeeds if and only if its pins are valid or those of one of the calls
were; if those of none were, nothing is changed; and if they were, then the first such call has
selected the block and connected its two pins, and nothing else is changed. -/
theorem i2c_first_valid_setup (regs : PinRegs) (calls : List I2cConfig) :
    (∀ config, (i2cInitAll (calls.foldl I2cSetup.next (.initial regs)) config).1 = 0 ↔
      config.Valid ∨ ∃ c ∈ calls, c.Valid) ∧
    match calls.find? fun c => c.Valid with
    | none => calls.foldl I2cSetup.next (.initial regs) = .initial regs
    | some c => ∃ sda scl, c.sda = some sda ∧ c.scl = some scl ∧
        (calls.foldl I2cSetup.next (.initial regs)).i2cInst = some (i2cBlock sda) ∧
        i2cBlock sda = i2cBlock scl ∧
        (calls.foldl I2cSetup.next (.initial regs)).baud =
          Function.update (fun _ => none) (i2cBlock sda) (some (c.khz * 1000)) ∧
        ∀ gpio, (calls.foldl I2cSetup.next (.initial regs)).regs.view gpio =
          if gpio = sda ∨ gpio = scl then
            { (regs.view gpio).select funcI2c with pullUp := true, pullDown := false }
          else regs.view gpio := by
  rw [foldl_next_eq]
  cases hfind : calls.find? fun c => c.Valid with
  | none =>
    have hnone : ∀ c ∈ calls, ¬c.Valid := by simpa using hfind
    refine ⟨fun config => ?_, rfl⟩
    rw [i2cInitAll_eq_zero_iff]
    constructor
    · rintro (h | h)
      · exact absurd h Bool.false_ne_true
      · exact .inl h
    · rintro (h | ⟨c, hc, h⟩)
      · exact .inr h
      · exact absurd h (hnone c hc)
  | some c =>
    have hv : c.Valid := by simpa using List.find?_some hfind
    refine ⟨fun config => ?_, ?_⟩
    · rw [i2cInitAll_eq_zero_iff]
      exact iff_of_true (.inl (I2cSetup.isSome_next hv))
        (.inr ⟨c, List.mem_of_find?_eq_some hfind, hv⟩)
    · rcases i2cInitAll_cases (.initial regs) c with
        ⟨h, -⟩ | ⟨-, h, -⟩ | ⟨-, -, sda, scl, hsda, hscl, heq⟩
      · exact absurd h Bool.false_ne_true
      · exact absurd hv h
      · have hnext : I2cSetup.next (.initial regs) c =
            (I2cSetup.initial regs).configure sda scl c.khz := by rw [I2cSetup.next, heq]
        rw [Option.elim_some, hnext]
        refine ⟨sda, scl, hsda, hscl, rfl, ?_, rfl, fun gpio => view_configure sda scl c.khz gpio⟩
        simp only [I2cConfig.Valid, hsda, hscl] at hv
        exact hv.1

end JdPico
