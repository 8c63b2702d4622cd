import JdPico.Lib.Run
import JdPico.Pins.Model

/-!
# PWM outputs

Two pins share a slice of the PWM hardware, each with a compare level of its own.  `jd_pwm_init`
sets up the slice of its pin and then the level of the pin.  The setup of a slice, `pwm_init` of the
SDK, resets both levels, so initialising the second pin of a slice turns off the first.  Nothing
else that is called for one pin is seen at another, if pins of one slice have the same period and
prescaler.  What is output is right as long as no pin is initialised while another of its slice has
a duty other than zero (`pwm_outputs_iff`).

The calls are kept in the state, newest first; the hardware does not see them.
-/

namespace JdPico

open Machine

/-! ### The hardware -/

/-- A slice. -/
structure PwmSlice where
  enabled : Bool
  /-- The counter runs from zero to `top`. -/
  top : UInt16
  div : UInt8
  /-- The compare levels of channels A (`false`) and B (`true`). -/
  level : Bool → UInt16

/-- `pwm_gpio_to_slice_num`. -/
def pwmGpioToSliceNum (gpio : UInt8) : UInt8 := gpio >>> 1 &&& 7

/-- `pwm_gpio_to_channel`. -/
def pwmGpioToChannel (gpio : UInt8) : Bool := gpio &&& 1 = 1

/-- The calls of the driver. -/
inductive PwmCall where
  /-- `jd_pwm_init(pin, period, duty, prescaler)`. -/
  | init (pin : UInt8) (period duty : UInt32) (prescaler : UInt8)
  /-- `jd_pwm_set_duty(pwm_id, duty)`. -/
  | setDuty (pwmId : UInt8) (duty : UInt32)
  /-- `jd_pwm_enable(pwm_id, enabled)`. -/
  | enable (pwmId : UInt8) (enabled : Bool)
  deriving DecidableEq, Repr

/-- The slices, the pins and the calls so far. -/
structure PwmState where
  slice : UInt8 → PwmSlice
  bank : GpioBank
  calls : List PwmCall

/-- The state after reset. -/
def PwmState.initial : PwmState := ⟨fun _ => ⟨false, 0xffff, 1, fun _ => 0⟩, fun _ => .reset, []⟩

/-- `pwm_init(slice_num, c, true)` for a configuration with the given wrap and divider. -/
def pwmInit (sliceNum : UInt8) (wrap : UInt16) (div : UInt8) (s : PwmState) : PwmState :=
  { s with slice := Function.update s.slice sliceNum ⟨true, wrap, div, fun _ => 0⟩ }

/-- `pwm_set_gpio_level`. -/
def pwmSetGpioLevel (gpio : UInt8) (level : UInt16) (s : PwmState) : PwmState :=
  let slice := s.slice (pwmGpioToSliceNum gpio)
  { s with
    slice := Function.update s.slice (pwmGpioToSliceNum gpio)
      { slice with level := Function.update slice.level (pwmGpioToChannel gpio) level } }

/-! ### The driver -/

/-- `jd_pwm_init`, with its result. -/
def jdPwmInit (pin : UInt8) (period duty : UInt32) (prescaler : UInt8) (s : PwmState) :
    UInt8 × PwmState :=
  let s := pwmInit (pwmGpioToSliceNum pin) (period - 1).toUInt16 prescaler s
  let s := pwmSetGpioLevel pin duty.toUInt16 s
  (pin, { s with bank := gpioSetFunction pin .pwm s.bank })

/-- `jd_pwm_set_duty`. -/
def jdPwmSetDuty (pwmId : UInt8) (duty : UInt32) (s : PwmState) : PwmState :=
  pwmSetGpioLevel pwmId duty.toUInt16 s

/-- `jd_pwm_enable`. -/
def jdPwmEnable (pwmId : UInt8) (enabled : Bool) (s : PwmState) : PwmState :=
  { s with bank := if enabled then gpioSetFunction pwmId .pwm s.bank else gpioInit pwmId s.bank }

/-- One call. -/
def PwmState.step (s : PwmState) (call : PwmCall) : Option PwmState :=
  some { (match call with
    | .init pin period duty prescaler => (jdPwmInit pin period duty prescaler s).2
    | .setDuty pwmId duty => jdPwmSetDuty pwmId duty s
    | .enable pwmId enabled => jdPwmEnable pwmId enabled s) with calls := call :: s.calls }

/-! ### What is requested and what is output -/

/-- The period and the prescaler that were last requested for a pin. -/
def requestedPeriod (pin : UInt8) : List PwmCall → Option (UInt32 × UInt8)
  | [] => none
  | .init p period _ prescaler :: calls =>
    if p = pin then some (period, prescaler) else requestedPeriod pin calls
  | _ :: calls => requestedPeriod pin calls

/-- The duty that was last requested for a pin, zero if none was. -/
def requestedDuty (pin : UInt8) : List PwmCall → UInt32
  | [] => 0
  | .init p _ duty _ :: calls => if p = pin then duty else requestedDuty pin calls
  | .setDuty p duty :: calls => if p = pin then duty else requestedDuty pin calls
  | .enable _ _ :: calls => requestedDuty pin calls

/-- The pin is enabled: by its initialisation, or by the latest `jd_pwm_enable`. -/
def requestedOn (pin : UInt8) : List PwmCall → Bool
  | [] => false
  | .init p _ _ _ :: calls => p = pin || requestedOn pin calls
  | .enable p enabled :: calls => if p = pin then enabled else requestedOn pin calls
  | .setDuty _ _ :: calls => requestedOn pin calls

/-- The compare level of a pin. -/
def PwmState.level (s : PwmState) (pin : UInt8) : UInt16 :=
  (s.slice (pwmGpioToSliceNum pin)).level (pwmGpioToChannel pin)

/-- What a pin outputs: a signal with the given period in counts of the given number of clock
cycles, which is high for the given number of counts. -/
structure PwmSignal where
  period : ℕ
  div : UInt8
  duty : ℕ
  deriving DecidableEq, Repr

/-- The signal at a pin, if it is one of the PWM hardware. -/
def PwmState.output (s : PwmState) (pin : UInt8) : Option PwmSignal :=
  let slice := s.slice (pwmGpioToSliceNum pin)
  if (s.bank pin).func = .pwm ∧ (s.bank pin).outputDisabled = false ∧ slice.enabled = true then
    some ⟨slice.top.toNat + 1, slice.div, (s.level pin).toNat⟩
  else none

/-- The pins output what was requested for them. -/
structure PwmState.Independent (pins : List UInt8) (s : PwmState) : Prop where
  /-- A pin that is initialised and enabled outputs the period and the duty last requested. -/
  output : ∀ pin ∈ pins, ∀ period prescaler,
    requestedPeriod pin s.calls = some (period, prescaler) → requestedOn pin s.calls = true →
      s.output pin = some ⟨period.toNat, prescaler, (requestedDuty pin s.calls).toNat⟩
  /-- The duty of every pin is the last one requested for it: no call for another pin has changed
  it. -/
  duty : ∀ pin ∈ pins, (s.level pin).toNat = (requestedDuty pin s.calls).toNat

/-- The pins do not share a channel of a slice. -/
def Separate (pins : List UInt8) : Prop :=
  ∀ p ∈ pins, ∀ q ∈ pins, pwmGpioToSliceNum p = pwmGpioToSliceNum q →
    pwmGpioToChannel p = pwmGpioToChannel q → p = q

/-- The call is for one of the pins; periods and duties fit their registers, as a duty does that is
at most its period; and pins of one slice are given the same period and prescaler. -/
def PwmState.Allows (pins : List UInt8) (s : PwmState) : PwmCall → Prop
  | .init pin period duty prescaler => pin ∈ pins ∧ 1 ≤ period ∧ period ≤ 65535 ∧ duty ≤ period ∧
      ∀ q ∈ pins, q ≠ pin → pwmGpioToSliceNum q = pwmGpioToSliceNum pin →
        requestedPeriod q s.calls = none ∨ requestedPeriod q s.calls = some (period, prescaler)
  | .setDuty pwmId duty => pwmId ∈ pins ∧ duty ≤ 65535
  | .enable pwmId _ => pwmId ∈ pins

/-- If the call initialises a pin, the other pins of its slice have a duty of zero. -/
def PwmState.Alone (pins : List UInt8) (s : PwmState) : PwmCall → Prop
  | .init pin _ _ _ => ∀ q ∈ pins, q ≠ pin → pwmGpioToSliceNum q = pwmGpioToSliceNum pin →
      requestedDuty q s.calls = 0
  | _ => True

-- The instances go through the list of pins and not through all bytes.
instance Separate.decidable (pins : List UInt8) : Decidable (Separate pins) :=
  @List.decidableBAll _ _ (fun _ => List.decidableBAll _ pins) pins

instance PwmState.Allows.decidable (pins : List UInt8) (s : PwmState) :
    ∀ call, Decidable (s.Allows pins call)
  | .init _ _ _ _ =>
    @instDecidableAnd _ _ _ (@instDecidableAnd _ _ _ (@instDecidableAnd _ _ _
      (@instDecidableAnd _ _ _ (List.decidableBAll _ pins))))
  | .setDuty _ _ => inferInstanceAs (Decidable (_ ∧ _))
  | .enable _ _ => inferInstanceAs (Decidable (_ ∈ _))

instance PwmState.Alone.decidable (pins : List UInt8) (s : PwmState) :
    ∀ call, Decidable (s.Alone pins call)
  | .init _ _ _ _ => List.decidableBAll _ pins
  | .setDuty _ _ | .enable _ _ => .isTrue trivial

/-! ### One call -/

variable {pins : List UInt8} {s t : PwmState} {pin gpio : UInt8}

/-- Setting the level of a pin sets its channel only. -/
lemma level_pwmSetGpioLevel (level : UInt16) :
    (pwmSetGpioLevel gpio level s).level pin =
      if pwmGpioToSliceNum pin = pwmGpioToSliceNum gpio ∧
        pwmGpioToChannel pin = pwmGpioToChannel gpio then level else s.level pin := by
  by_cases hslice : pwmGpioToSliceNum pin = pwmGpioToSliceNum gpio
  · by_cases hchannel : pwmGpioToChannel pin = pwmGpioToChannel gpio <;>
      simp [pwmSetGpioLevel, PwmState.level, hslice, hchannel]
  · simp [pwmSetGpioLevel, PwmState.level, hslice]

/-- Setting a level leaves the slices running as they do. -/
lemma slice_pwmSetGpioLevel (s : PwmState) (gpio : UInt8) (level : UInt16) (n : UInt8) :
    ((pwmSetGpioLevel gpio level s).slice n).enabled = (s.slice n).enabled ∧
      ((pwmSetGpioLevel gpio level s).slice n).top = (s.slice n).top ∧
      ((pwmSetGpioLevel gpio level s).slice n).div = (s.slice n).div := by
  by_cases hn : n = pwmGpioToSliceNum gpio
  · subst hn
    simp [pwmSetGpioLevel]
  · simp [pwmSetGpioLevel, hn]

/-- The levels after a pin was initialised: its slice has lost all others. -/
lemma level_jdPwmInit (hpins : Separate pins) (s : PwmState) (period duty : UInt32)
    (prescaler : UInt8) (hgpio : gpio ∈ pins) (hpin : pin ∈ pins) :
    (jdPwmInit gpio period duty prescaler s).2.level pin =
      if pin = gpio then duty.toUInt16
      else if pwmGpioToSliceNum pin = pwmGpioToSliceNum gpio then 0 else s.level pin := by
  have hlevel : (jdPwmInit gpio period duty prescaler s).2.level pin =
      (pwmSetGpioLevel gpio duty.toUInt16
        (pwmInit (pwmGpioToSliceNum gpio) (period - 1).toUInt16 prescaler s)).level pin := rfl
  rw [hlevel, level_pwmSetGpioLevel]
  by_cases heq : pin = gpio
  · simp [heq]
  · have hne : ¬(pwmGpioToSliceNum pin = pwmGpioToSliceNum gpio ∧
        pwmGpioToChannel pin = pwmGpioToChannel gpio) := fun h =>
      heq (hpins pin hpin gpio hgpio h.1 h.2)
    rw [if_neg hne, if_neg heq]
    by_cases hslice : pwmGpioToSliceNum pin = pwmGpioToSliceNum gpio <;>
      simp [pwmInit, PwmState.level, hslice]

/-- The levels after the duty of a pin was set. -/
lemma level_jdPwmSetDuty (hpins : Separate pins) (s : PwmState) (duty : UInt32)
    (hgpio : gpio ∈ pins) (hpin : pin ∈ pins) :
    (jdPwmSetDuty gpio duty s).level pin = if pin = gpio then duty.toUInt16 else s.level pin := by
  rw [jdPwmSetDuty, level_pwmSetGpioLevel]
  refine if_congr ⟨fun h => hpins pin hpin gpio hgpio h.1 h.2, ?_⟩ rfl rfl
  rintro rfl
  exact ⟨rfl, rfl⟩

/-- What the slices and the pins are set to, apart from the levels. -/
structure PwmState.Inv (pins : List UInt8) (s : PwmState) : Prop where
  slice : ∀ pin ∈ pins, ∀ period prescaler,
    requestedPeriod pin s.calls = some (period, prescaler) →
      (s.slice (pwmGpioToSliceNum pin)).enabled = true ∧
      (s.slice (pwmGpioToSliceNum pin)).top.toNat + 1 = period.toNat ∧
      (s.slice (pwmGpioToSliceNum pin)).div = prescaler
  func : ∀ pin, requestedOn pin s.calls = true →
    (s.bank pin).func = .pwm ∧ (s.bank pin).outputDisabled = false

/-- The pins are independent as soon as their duties are right. -/
lemma PwmState.Inv.independent_iff (h : s.Inv pins) :
    s.Independent pins ↔ ∀ pin ∈ pins, (s.level pin).toNat = (requestedDuty pin s.calls).toNat := by
  refine ⟨fun hind => hind.duty, fun hduty => ⟨?_, hduty⟩⟩
  intro pin hpin period prescaler hperiod hon
  obtain ⟨henabled, htop, hdiv⟩ := h.slice pin hpin period prescaler hperiod
  obtain ⟨hfunc, hod⟩ := h.func pin hon
  rw [output, if_pos ⟨hfunc, hod, henabled⟩, htop, hdiv, hduty pin hpin]

/-- The slice of a pin that was initialised runs as requested. -/
lemma slice_jdPwmInit (s : PwmState) (gpio : UInt8) {period : UInt32} (duty : UInt32)
    (prescaler : UInt8) (hlow : 1 ≤ period) (hhigh : period ≤ 65535) :
    ((jdPwmInit gpio period duty prescaler s).2.slice (pwmGpioToSliceNum gpio)).enabled = true ∧
      ((jdPwmInit gpio period duty prescaler s).2.slice (pwmGpioToSliceNum gpio)).top.toNat + 1 =
        period.toNat ∧
      ((jdPwmInit gpio period duty prescaler s).2.slice (pwmGpioToSliceNum gpio)).div =
        prescaler := by
  have hwrap : (period - 1).toUInt16.toNat + 1 = period.toNat := by
    rw [UInt32.toNat_toUInt16, UInt32.toNat_sub_of_le _ _ hlow]
    rw [UInt32.le_iff_toNat_le] at hlow hhigh
    have h1 : (1 : UInt32).toNat = 1 := rfl
    have h65535 : (65535 : UInt32).toNat = 65535 := rfl
    omega
  simp only [jdPwmInit, pwmSetGpioLevel, pwmInit, Function.update_self]
  exact ⟨trivial, hwrap, trivial⟩

/-- The other slices are left alone. -/
lemma slice_jdPwmInit_of_ne (s : PwmState) {gpio n : UInt8} (period duty : UInt32)
    (prescaler : UInt8) (hn : n ≠ pwmGpioToSliceNum gpio) :
    (jdPwmInit gpio period duty prescaler s).2.slice n = s.slice n := by
  simp [jdPwmInit, pwmSetGpioLevel, pwmInit, hn]

/-- A call leaves the slices set to what is requested. -/
lemma PwmState.Inv.slice_step (h : s.Inv pins) {call : PwmCall} (hallow : s.Allows pins call)
    (hst : s.step call = some t) (hpin : pin ∈ pins) {period : UInt32} {prescaler : UInt8}
    (hreq : requestedPeriod pin t.calls = some (period, prescaler)) :
    (t.slice (pwmGpioToSliceNum pin)).enabled = true ∧
      (t.slice (pwmGpioToSliceNum pin)).top.toNat + 1 = period.toNat ∧
      (t.slice (pwmGpioToSliceNum pin)).div = prescaler := by
  obtain rfl := Option.some.inj hst
  cases call with
  | init gpio period' duty prescaler' =>
    obtain ⟨hgpio, hlow, hhigh, -, hagree⟩ := hallow
    dsimp only [requestedPeriod] at hreq
    by_cases hsame : pwmGpioToSliceNum pin = pwmGpioToSliceNum gpio
    · have hslice := slice_jdPwmInit s gpio duty prescaler' hlow hhigh
      have hrequest : (period', prescaler') = (period, prescaler) := by
        split_ifs at hreq with heq
        · exact Option.some.inj hreq
        · rcases hagree pin hpin (Ne.symm heq) hsame with hnone | hsome
          · exact absurd (hnone.symm.trans hreq) (by simp)
          · exact Option.some.inj (hsome.symm.trans hreq)
      obtain ⟨rfl, rfl⟩ := Prod.mk.inj hrequest
      rw [hsame]
      exact hslice
    · have hne : gpio ≠ pin := by
        rintro rfl
        exact hsame rfl
      rw [if_neg hne] at hreq
      have hslice := slice_jdPwmInit_of_ne s period' duty prescaler' hsame
      dsimp only
      rw [hslice]
      exact h.slice pin hpin period prescaler hreq
  | setDuty gpio duty =>
    obtain ⟨henabled, htop, hdiv⟩ :=
      slice_pwmSetGpioLevel s gpio duty.toUInt16 (pwmGpioToSliceNum pin)
    dsimp only [jdPwmSetDuty]
    rw [henabled, htop, hdiv]
    exact h.slice pin hpin period prescaler hreq
  | enable gpio enabled => exact h.slice pin hpin period prescaler hreq

/-- A call leaves the pins set to what is requested. -/
lemma PwmState.Inv.func_step (h : s.Inv pins) {call : PwmCall} (hst : s.step call = some t)
    (hon : requestedOn pin t.calls = true) :
    (t.bank pin).func = .pwm ∧ (t.bank pin).outputDisabled = false := by
  obtain rfl := Option.some.inj hst
  cases call with
  | init gpio period duty prescaler =>
    dsimp only [requestedOn] at hon
    have hbank : (jdPwmInit gpio period duty prescaler s).2.bank =
        gpioSetFunction gpio .pwm s.bank := rfl
    dsimp only
    rw [hbank, gpioSetFunction_func, gpioSetFunction_outputDisabled]
    by_cases heq : pin = gpio
    · simp [heq]
    · have hon' : requestedOn pin s.calls = true := by simpa [Ne.symm heq] using hon
      rw [if_neg heq, if_neg heq]
      exact h.func pin hon'
  | setDuty gpio duty => exact h.func pin hon
  | enable gpio enabled =>
    dsimp only [requestedOn, jdPwmEnable] at hon ⊢
    by_cases heq : pin = gpio
    · rw [if_pos heq.symm] at hon
      simp [hon, heq]
    · rw [if_neg (Ne.symm heq)] at hon
      cases enabled with
      | true => simpa [heq] using h.func pin hon
      | false => simpa [gpioInit_of_ne heq] using h.func pin hon

lemma PwmState.Inv.step (h : s.Inv pins) {call : PwmCall} (hallow : s.Allows pins call)
    (hst : s.step call = some t) : t.Inv pins where
  slice _ hpin _ _ hreq := h.slice_step hallow hst hpin hreq
  func _ hon := h.func_step hst hon

/-- A duty that fits its register is stored as it is. -/
lemma toNat_toUInt16 {duty : UInt32} (h : duty ≤ 65535) : duty.toUInt16.toNat = duty.toNat := by
  rw [UInt32.le_iff_toNat_le] at h
  have h65535 : (65535 : UInt32).toNat = 65535 := rfl
  rw [UInt32.toNat_toUInt16]
  omega

/-- A call leaves the duties right exactly when it does not initialise a slice with another duty. -/
lemma PwmState.Independent.step_iff (hpins : Separate pins) (hinv : s.Inv pins)
    (h : s.Independent pins) {call : PwmCall} (hallow : s.Allows pins call)
    (hst : s.step call = some t) : t.Independent pins ↔ s.Alone pins call := by
  rw [(hinv.step hallow hst).independent_iff]
  obtain rfl := Option.some.inj hst
  cases call with
  | init gpio period duty prescaler =>
    obtain ⟨hgpio, -, hhigh, hduty, -⟩ := hallow
    have hlevel := fun {q} (hq : q ∈ pins) =>
      level_jdPwmInit hpins s period duty prescaler hgpio hq
    constructor
    · intro hright q hq hne hslice
      have hq' := hright q hq
      dsimp only [requestedDuty] at hq'
      rw [if_neg (Ne.symm hne)] at hq'
      apply UInt32.toNat.inj
      rw [← hq']
      exact congrArg UInt16.toNat ((hlevel hq).trans (by rw [if_neg hne, if_pos hslice]))
    · intro halone q hq
      dsimp only [requestedDuty]
      refine (congrArg UInt16.toNat (hlevel hq)).trans ?_
      by_cases heq : q = gpio
      · rw [if_pos heq, if_pos heq.symm]
        exact toNat_toUInt16 (UInt32.le_trans hduty hhigh)
      · rw [if_neg heq, if_neg (Ne.symm heq)]
        by_cases hslice : pwmGpioToSliceNum q = pwmGpioToSliceNum gpio
        · rw [if_pos hslice, halone q hq heq hslice]
          rfl
        · rw [if_neg hslice]
          exact h.duty q hq
  | setDuty gpio duty =>
    obtain ⟨hgpio, hduty⟩ := hallow
    refine ⟨fun _ => trivial, fun _ q hq => ?_⟩
    dsimp only [requestedDuty]
    refine (congrArg UInt16.toNat (level_jdPwmSetDuty hpins s duty hgpio hq)).trans ?_
    by_cases heq : q = gpio
    · rw [if_pos heq, if_pos heq.symm]
      exact toNat_toUInt16 hduty
    · rw [if_neg heq, if_neg (Ne.symm heq)]
      exact h.duty q hq
  | enable gpio enabled => exact ⟨fun _ => trivial, fun _ => h.duty⟩

/-! ### Runs -/

lemma PwmState.inv_initial : PwmState.initial.Inv pins :=
  ⟨by simp [initial, requestedPeriod], by simp [initial, requestedOn]⟩

/-- **PWM outputs.**  In a run of calls for pins that do not share a channel, where pins of one
slice are given the same period and prescaler: every pin outputs what was last requested for it, in
every state, if and only if no pin is initialised while another of its slice has a duty other than
zero. -/
theorem pwm_outputs_iff (pins : List UInt8) (hpins : Separate pins) (calls : List PwmCall)
    (s : PwmState) (hrun : exec PwmState.step .initial calls = some s)
    (hallow : AllSteps PwmState.step (PwmState.Allows pins) .initial calls) :
    AllStates PwmState.step (PwmState.Independent pins) .initial calls ↔
      AllSteps PwmState.step (PwmState.Alone pins) .initial calls := by
  refine AllSteps.allStates_iff_allSteps (I := PwmState.Inv pins) ?_ ?_ PwmState.inv_initial ?_
    hallow hrun
  · exact fun _ _ _ h hD hst => h.step hD hst
  · exact fun _ _ _ hI h hD hst => h.step_iff hpins hI hD hst
  · exact PwmState.inv_initial.independent_iff.mpr fun _ _ => rfl

/-- Both pins of a slice and one of another: the second pin is initialised while the first has a
duty of zero. -/
theorem pwm_outputs_both_channels :
    AllStates PwmState.step (PwmState.Independent [0, 1, 18]) .initial
      [.init 0 1000 0 4, .init 1 1000 300 4, .setDuty 0 250, .init 18 50 50 1, .enable 1 false,
        .setDuty 1 400, .enable 1 true] :=
  (pwm_outputs_iff [0, 1, 18] (by decide +kernel) _ _ rfl (by decide +kernel)).mpr
    (by decide +kernel)

/-- Initialising the second pin of a slice turns off the first. -/
theorem pwm_init_disturbs_sibling :
    Separate [0, 1] ∧
      AllSteps PwmState.step (PwmState.Allows [0, 1]) .initial
        [.init 0 1000 500 4, .init 1 1000 300 4] ∧
      ¬AllStates PwmState.step (PwmState.Independent [0, 1]) .initial
        [.init 0 1000 500 4, .init 1 1000 300 4] := by
  refine ⟨by decide +kernel, by decide +kernel, fun h => ?_⟩
  have hlast := (h.2 _ rfl).2 _ rfl
  exact absurd (hlast.duty 0 (by decide)) (by decide)

end JdPico
