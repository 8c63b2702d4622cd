import JdPico.Lib.Run
import Mathlib.Tactic

/-!
# The analog inputs

`adc.c` reads the voltage at one of four pins, or the temperature.  The converter has one input at a
time, and keeps it until another one is selected; it has to be initialised before it is used, and
initialising it again would lose its settings.  The temperature sensor is switched on for one
conversion only.

So each conversion depends on what the calls before have left behind.  In every sequence of calls on
pins that can be read, the converter is initialised once, before its first conversion, and each
conversion is that of the input that was asked for, with the sensor on for the temperature and off
for a pin (`adc_conversions`).

The temperature is computed with integers.  It differs from the formula for the sensor, rounded
down, by at most a quarter of a degree (`adc_temperature_error`).
-/

namespace JdPico

open Machine

/-! ### The converter -/

/-- How a conversion was made. -/
structure Conversion where
  /-- `adc_init` was called before. -/
  ready : Bool
  input : ℕ
  tempSensor : Bool
  deriving DecidableEq, Repr

/-- The converter, and the static variable of `adc.c`. -/
structure Adc where
  adcInited : Bool
  ready : Bool
  input : ℕ
  tempSensor : Bool
  /-- How often `adc_init` was called. -/
  inits : ℕ
  /-- The conversions so far, newest first. -/
  conversions : List Conversion
  /-- What the calls returned, newest first. -/
  results : List ℤ
  deriving DecidableEq, Repr

/-- At start-up. -/
def Adc.initial : Adc := ⟨false, false, 0, false, 0, [], []⟩

namespace Adc

/-- `adc_init` resets the converter and enables it. -/
def adcInit (s : Adc) : Adc :=
  { s with ready := true, input := 0, tempSensor := false, inits := s.inits + 1 }

/-- `adc_select_input`; there are five inputs. -/
def adcSelectInput (input : ℤ) (s : Adc) : Option Adc :=
  if 0 ≤ input ∧ input ≤ 4 then some { s with input := input.toNat } else none

/-- `adc_set_temp_sensor_enabled`. -/
def adcSetTempSensorEnabled (enable : Bool) (s : Adc) : Adc := { s with tempSensor := enable }

/-- `adc_read`, apart from its result. -/
def adcRead (s : Adc) : Adc :=
  { s with conversions := ⟨s.ready, s.input, s.tempSensor⟩ :: s.conversions }

end Adc

/-! ### The driver -/

/-- `get_adc_ch`. -/
def getAdcCh (pin : UInt8) : ℤ :=
  let pin : ℤ := pin.toNat - 26
  if pin < 0 ∨ pin > 3 then -1 else pin

/-- `adc_can_read_pin`. -/
def adcCanReadPin (pin : UInt8) : Bool := getAdcCh pin ≠ -1

/-- `init`. -/
def Adc.init (s : Adc) : Adc :=
  if s.adcInited then s else { s with adcInited := true }.adcInit

/-- What `adc_read_pin` makes of a result of the converter, which has twelve bits. -/
def pinReading (adc : BitVec 12) : UInt16 := ⟨adc.setWidth 16 <<< 4⟩

/-- `adc_read_pin`; `adc` is what the converter returns. -/
def adcReadPin (pin : UInt8) (adc : BitVec 12) (s : Adc) : Option Adc :=
  (s.init.adcSelectInput (getAdcCh pin)).map fun s =>
    { s.adcRead with results := (pinReading adc).toNat :: s.results }

/-- What `adc_read_temp` makes of a result of the converter. -/
def tempReading (adc : BitVec 12) : ℤ :=
  let shiftedTemp : ℤ := 27 * 2 ^ 12 - (adc.toNat - 876) * 1917
  shiftedTemp >>> (12 : ℕ)

/-- `adc_read_temp`. -/
def adcReadTemp (adc : BitVec 12) (s : Adc) : Option Adc :=
  ((s.init.adcSetTempSensorEnabled true).adcSelectInput 4).map fun s =>
    { s.adcRead.adcSetTempSensorEnabled false with results := tempReading adc :: s.results }

/-- The calls, with what the converter returns. -/
inductive AdcCall where
  | readPin (pin : UInt8) (adc : BitVec 12)
  | readTemp (adc : BitVec 12)
  deriving DecidableEq, Repr

/-- One call. -/
def Adc.step (s : Adc) : AdcCall → Option Adc
  | .readPin pin adc => adcReadPin pin adc s
  | .readTemp adc => adcReadTemp adc s

/-! ### Conversions -/

/-- The call is allowed: a pin is one that can be read. -/
def AdcCall.Allowed : AdcCall → Prop
  | .readPin pin _ => adcCanReadPin pin
  | .readTemp _ => True

instance AdcCall.decidableAllowed (c : AdcCall) : Decidable c.Allowed := by
  cases c
  · exact inferInstanceAs (Decidable (_ = true))
  · exact inferInstanceAs (Decidable True)

/-- The conversion that a call is for. -/
def AdcCall.conversion : AdcCall → Conversion
  | .readPin pin _ => ⟨true, pin.toNat - 26, false⟩
  | .readTemp _ => ⟨true, 4, true⟩

/-- What a call returns: sixteen times what the converter returns, or the temperature. -/
def AdcCall.result : AdcCall → ℤ
  | .readPin _ adc => 16 * adc.toNat
  | .readTemp adc => tempReading adc

/-- The converter after the calls `before`. -/
structure Adc.After (before : List AdcCall) (s : Adc) : Prop where
  conversions : s.conversions.reverse = before.map AdcCall.conversion
  results : s.results.reverse = before.map AdcCall.result
  inits : s.inits = if before = [] then 0 else 1
  inited : s.adcInited = !before.isEmpty
  ready : s.ready = !before.isEmpty
  tempSensor : s.tempSensor = false

/-- After `init` the converter is ready, and was initialised once. -/
lemma Adc.After.init {before : List AdcCall} {s : Adc} (h : s.After before) :
    s.init.conversions = s.conversions ∧ s.init.results = s.results ∧ s.init.inits = 1 ∧
      s.init.adcInited = true ∧ s.init.ready = true ∧ s.init.tempSensor = false := by
  unfold Adc.init Adc.adcInit
  cases before with
  | nil =>
    rw [if_neg (by simp [h.inited])]
    refine ⟨rfl, rfl, ?_, rfl, rfl, rfl⟩
    rw [h.inits, if_pos rfl]
  | cons c before =>
    rw [if_pos (by simp [h.inited])]
    exact ⟨rfl, rfl, by simp [h.inits], by simp [h.inited], by simp [h.ready], h.tempSensor⟩

/-- The input of a pin that can be read. -/
lemma getAdcCh_of_canRead {pin : UInt8} (h : adcCanReadPin pin) :
    26 ≤ pin.toNat ∧ pin.toNat ≤ 29 ∧ getAdcCh pin = (pin.toNat - 26 : ℕ) := by
  have hch : getAdcCh pin ≠ -1 := by simpa [adcCanReadPin] using h
  unfold getAdcCh at hch ⊢
  dsimp only at hch ⊢
  split_ifs at hch ⊢ with hout <;> omega

/-- Four bits more fit into the result for a pin. -/
lemma pinReading_toNat (adc : BitVec 12) : (pinReading adc).toNat = 16 * adc.toNat := by
  have := adc.isLt
  change (adc.setWidth 16 <<< 4).toNat = _
  rw [BitVec.toNat_shiftLeft, BitVec.toNat_setWidth, Nat.shiftLeft_eq]
  omega

/-- A call that is allowed makes the conversion that it is for. -/
lemma Adc.After.step {before : List AdcCall} {s : Adc} (h : s.After before) {c : AdcCall}
    (hc : c.Allowed) : ∃ t, s.step c = some t ∧ t.After (before ++ [c]) := by
  obtain ⟨hconv, hres, hinits, hinited, hready, htemp⟩ := h.init
  have hafter : ∀ t : Adc, t.conversions = c.conversion :: s.conversions →
      t.results = c.result :: s.results → t.inits = 1 → t.adcInited = true → t.ready = true →
      t.tempSensor = false → t.After (before ++ [c]) := by
    intro t hconv hres hinits hinited hready htemp
    have hne : (before ++ [c]).isEmpty = false := by simp
    refine ⟨?_, ?_, by simpa using hinits, by rw [hne, hinited]; rfl, by rw [hne, hready]; rfl,
      htemp⟩
    · rw [hconv, List.reverse_cons, h.conversions, List.map_append, List.map_singleton]
    · rw [hres, List.reverse_cons, h.results, List.map_append, List.map_singleton]
  cases c with
  | readPin pin adc =>
    obtain ⟨hlow, hhigh, hch⟩ := getAdcCh_of_canRead hc
    have hstep : s.step (.readPin pin adc) = some
        { { s.init with input := pin.toNat - 26 }.adcRead with
          results := (pinReading adc).toNat :: s.init.results } := by
      rw [Adc.step, adcReadPin, Adc.adcSelectInput, hch, if_pos (by omega), Option.map_some,
        Int.toNat_natCast]
    refine ⟨_, hstep, hafter _ ?_ ?_ hinits hinited hready htemp⟩
    · simp [Adc.adcRead, AdcCall.conversion, hready, htemp, hconv]
    · simp [AdcCall.result, pinReading_toNat, hres]
  | readTemp adc =>
    refine ⟨_, rfl, hafter _ ?_ ?_ hinits hinited hready rfl⟩
    · simp [Adc.adcRead, Adc.adcSetTempSensorEnabled, AdcCall.conversion, hready, hconv]
    · simp [Adc.adcSetTempSensorEnabled, AdcCall.result, hres]

/-- **Each call gets its own conversion.**  In every sequence of calls on pins that can be read the
inputs selected are those of the converter, which is initialised once, before its first conversion;
the conversions are those that the calls are for, in their order, the calls return what was
converted, and the temperature sensor is off afterwards. -/
theorem adc_conversions (calls : List AdcCall) (hcalls : ∀ c ∈ calls, c.Allowed) :
    ∃ s, exec Adc.step .initial calls = some s ∧
      s.conversions.reverse = calls.map AdcCall.conversion ∧
      s.results.reverse = calls.map AdcCall.result ∧
      s.inits = (if calls = [] then 0 else 1) ∧ s.tempSensor = false := by
  suffices h : ∃ s, exec Adc.step .initial calls = some s ∧ s.After calls by
    obtain ⟨s, hrun, hs⟩ := h
    exact ⟨s, hrun, hs.conversions, hs.results, hs.inits, hs.tempSensor⟩
  induction calls using List.reverseRecOn with
  | nil => exact ⟨.initial, rfl, rfl, rfl, rfl, rfl, rfl, rfl⟩
  | append_singleton calls c ih =>
    obtain ⟨s, hrun, hs⟩ := ih fun c hc => hcalls c (List.mem_append_left _ hc)
    obtain ⟨t, hst, ht⟩ := hs.step (hcalls c (by simp))
    exact ⟨t, exec_append.mpr ⟨s, hrun, exec_cons.mpr ⟨t, hst, rfl⟩⟩, ht⟩

/-- The temperature between two readings of pins. -/
theorem adc_conversions_three :
    ∃ s, exec Adc.step .initial [.readPin 29 0xfff, .readTemp 876, .readPin 26 1] = some s ∧
      s.conversions.reverse = [⟨true, 3, false⟩, ⟨true, 4, true⟩, ⟨true, 0, false⟩] ∧
      s.results.reverse = [65520, 27, 16] ∧ s.inits = 1 ∧ s.tempSensor = false :=
  adc_conversions [.readPin 29 0xfff, .readTemp 876, .readPin 26 1] (by decide)

/-! ### The temperature -/

/-- The formula for the sensor: 27 degrees at 0.706 volts, and 1.721 millivolts less for each
degree. -/
def sensorTemperature (adc : ℕ) : ℚ := 27 - (adc * 3.3 / 4096 - 0.706) / 0.001721

/-- **The computed temperature.**  For every result of the converter, the temperature that is
returned is at most a quarter of a degree above that of the formula, and at most one degree and a
quarter below it. -/
theorem adc_temperature_error (adc : BitVec 12) :
    (tempReading adc : ℚ) - 1 / 4 ≤ sensorTemperature adc.toNat ∧
      sensorTemperature adc.toNat ≤ tempReading adc + 5 / 4 := by
  have hadc : (adc.toNat : ℚ) ≤ 4095 := by
    have := adc.isLt
    exact_mod_cast (by omega : adc.toNat ≤ 4095)
  have hpos : (0 : ℚ) ≤ adc.toNat := by positivity
  set shifted : ℤ := 27 * 2 ^ 12 - (adc.toNat - 876) * 1917 with hshifted
  have htemp : tempReading adc = shifted / 2 ^ 12 := Int.shiftRight_eq_div_pow _ _
  have hlow : shifted / 2 ^ 12 * 2 ^ 12 ≤ shifted := Int.ediv_mul_le _ (by decide)
  have hhigh : shifted < (shifted / 2 ^ 12 + 1) * 2 ^ 12 :=
    Int.lt_ediv_add_one_mul_self _ (by decide)
  rw [← htemp] at hlow hhigh
  have hlow' : (tempReading adc : ℚ) * 4096 ≤ 27 * 4096 - (adc.toNat - 876) * 1917 := by
    exact_mod_cast hlow
  have hhigh' : (27 * 4096 - (adc.toNat - 876) * 1917 : ℚ) < (tempReading adc + 1) * 4096 := by
    exact_mod_cast hhigh
  unfold sensorTemperature
  constructor
  · rw [le_sub_comm, div_le_iff₀ (by norm_num)]
    linarith
  · rw [sub_le_comm, le_div_iff₀ (by norm_num)]
    linarith

end JdPico
