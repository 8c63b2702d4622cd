import JdPico.Pins.Model

/-!
# Waiting for the line to go high

`uart_wait_high` samples the line until it is high, at most 50000 times.  The counter is decremented
before each sample and decides afterwards: it is `-1` when no sample was high and `50000 - n` when
the `n`-th was.  So the last sample the budget allows is taken in vain: if the line is high there
for the first time the counter is zero, and the routine says that it is low.
-/

namespace JdPico

/-- The loop of `uart_wait_high`, with `k` samples taken before.  The result is the counter and the
number of samples taken. -/
def uartWaitHighLoop (pin : UInt8) (sample : ℕ → Bool) (timeout : ℤ) (k : ℕ) : ℤ × ℕ :=
  if 0 < timeout then
    if pinGet pin (sample k) = 0 then uartWaitHighLoop pin sample (timeout - 1) (k + 1)
    else (timeout - 1, k + 1)
  else (timeout - 1, k)
termination_by timeout.toNat

/-- `uart_wait_high` on the Jacdac pin `pin`, with the number of samples it takes. -/
def uartWaitHigh (pin : UInt8) (sample : ℕ → Bool) : ℤ × ℕ :=
  let (timeout, n) := uartWaitHighLoop pin sample 50000 0
  (if timeout ≤ 0 then -1 else 0, n)

/-- The result tells the level of the line at the last sample. -/
structure ReportsLevel (pin : UInt8) (sample : ℕ → Bool) : Prop where
  bounded : (uartWaitHigh pin sample).2 ≤ 50000
  high : (uartWaitHigh pin sample).1 = 0 ↔
    ∃ n, (uartWaitHigh pin sample).2 = n + 1 ∧ sample n = true
  some_high : (uartWaitHigh pin sample).1 = 0 ↔ ∃ n < 50000, sample n = true
  all_low : (uartWaitHigh pin sample).1 = -1 ↔ ∀ n < 50000, sample n = false

variable {pin : UInt8} {sample : ℕ → Bool} {k m : ℕ}

/-- The loop ends at the first sample that is high. -/
lemma uartWaitHighLoop_high (hpin : pin ≠ noPin) {timeout : ℤ} (hm : m < timeout)
    (hlow : ∀ i < m, sample (k + i) = false) (hhigh : sample (k + m) = true) :
    uartWaitHighLoop pin sample timeout k = (timeout - (m + 1), k + m + 1) := by
  induction m generalizing k timeout with
  | zero =>
    have hone : pinGet pin (sample k) ≠ 0 := by
      rw [Ne, pinGet_eq_zero_iff hpin]
      simpa using hhigh
    rw [uartWaitHighLoop, if_pos (by omega), if_neg hone]
    simp
  | succ m ih =>
    have hzero : pinGet pin (sample k) = 0 := (pinGet_eq_zero_iff hpin _).mpr (hlow 0 (by omega))
    rw [uartWaitHighLoop, if_pos (by omega), if_pos hzero, ih (by omega)]
    · ext
      · push_cast
        ring
      · dsimp only
        omega
    · intro i hi
      rw [Nat.add_assoc, Nat.add_comm 1 i]
      exact hlow (i + 1) (by omega)
    · rwa [Nat.add_assoc, Nat.add_comm 1 m]

/-- The loop takes all samples if none is high. -/
lemma uartWaitHighLoop_low (hpin : pin ≠ noPin) (hlow : ∀ i < m, sample (k + i) = false) :
    uartWaitHighLoop pin sample m k = (-1, k + m) := by
  induction m generalizing k with
  | zero => simp [uartWaitHighLoop]
  | succ m ih =>
    have hzero : pinGet pin (sample k) = 0 := (pinGet_eq_zero_iff hpin _).mpr (hlow 0 (by omega))
    rw [uartWaitHighLoop, if_pos (by omega), if_pos hzero,
      show ((m + 1 : ℕ) : ℤ) - 1 = m by omega, ih]
    · ext
      · rfl
      · dsimp only
        omega
    · intro i hi
      rw [Nat.add_assoc, Nat.add_comm 1 i]
      exact hlow (i + 1) (by omega)

/-- What is returned when the first sample that is high is within the budget. -/
lemma uartWaitHigh_of_high (hpin : pin ≠ noPin) (hm : m < 50000)
    (hlow : ∀ i < m, sample i = false) (hhigh : sample m = true) :
    uartWaitHigh pin sample = (if m = 49999 then -1 else 0, m + 1) := by
  have hloop : uartWaitHighLoop pin sample 50000 0 = (50000 - ((m : ℤ) + 1), 0 + m + 1) :=
    uartWaitHighLoop_high hpin (by omega) (by simpa using hlow) (by simpa using hhigh)
  rw [uartWaitHigh, hloop]
  ext
  · dsimp only
    split_ifs <;> omega
  · dsimp only
    omega

/-- What is returned when no sample within the budget is high. -/
lemma uartWaitHigh_of_low (hpin : pin ≠ noPin) (hlow : ∀ i < 50000, sample i = false) :
    uartWaitHigh pin sample = (-1, 50000) := by
  have hloop : uartWaitHighLoop pin sample (50000 : ℕ) 0 = (-1, 0 + 50000) :=
    uartWaitHighLoop_low hpin (by simpa using hlow)
  rw [uartWaitHigh]
  rw [Nat.cast_ofNat] at hloop
  rw [hloop]
  rfl

/-- If the line goes high within the budget, the report is right unless it does so at the last
sample. -/
lemma reportsLevel_iff_of_high (hpin : pin ≠ noPin) (hm : m < 50000)
    (hlow : ∀ i < m, sample i = false) (hhigh : sample m = true) :
    ReportsLevel pin sample ↔ m ≠ 49999 := by
  have heq := uartWaitHigh_of_high hpin hm hlow hhigh
  constructor
  · intro h hlast
    have hzero := h.some_high.mpr ⟨m, hm, hhigh⟩
    rw [heq, if_pos hlast] at hzero
    exact absurd hzero (by simp)
  · intro hne
    rw [if_neg hne] at heq
    refine ⟨?_, ?_, ?_, ?_⟩
    · rw [heq]
      dsimp only
      omega
    · rw [heq]
      exact ⟨fun _ => ⟨m, rfl, hhigh⟩, fun _ => rfl⟩
    · rw [heq]
      exact ⟨fun _ => ⟨m, hm, hhigh⟩, fun _ => rfl⟩
    · rw [heq]
      constructor
      · exact fun h => absurd h (by simp)
      · exact fun hall => absurd (hall m hm) (by simp [hhigh])

/-- If the line is low all the time, the report is right. -/
lemma reportsLevel_of_low (hpin : pin ≠ noPin) (hlow : ∀ n < 50000, sample n = false) :
    ReportsLevel pin sample := by
  have heq := uartWaitHigh_of_low hpin hlow
  have hnone : ∀ n < 50000, sample n ≠ true := fun n hn => Bool.eq_false_iff.mp (hlow n hn)
  refine ⟨?_, ?_, ?_, ?_⟩
  · rw [heq]
  · rw [heq]
    constructor
    · exact fun h => absurd h (by decide)
    · rintro ⟨n, hn, hhigh⟩
      exact absurd hhigh (hnone n (by omega))
  · rw [heq]
    constructor
    · exact fun h => absurd h (by decide)
    · rintro ⟨n, hn, hhigh⟩
      exact absurd hhigh (hnone n hn)
  · rw [heq]
    exact ⟨fun _ => hlow, fun _ => rfl⟩

/-- **The level of the line.**  On a configured pin, `uart_wait_high` reports the level it last saw,
for exactly those sequences of samples whose first high one is not the last that the budget
allows. -/
theorem uart_wait_high_reports_iff (pin : UInt8) (hpin : pin ≠ noPin) (sample : ℕ → Bool) :
    ReportsLevel pin sample ↔ ¬((∀ n < 49999, sample n = false) ∧ sample 49999 = true) := by
  by_cases hex : ∃ n, n < 50000 ∧ sample n = true
  · -- the first sample that is high decides
    obtain ⟨hm, hhigh⟩ := Nat.find_spec hex
    have hlow : ∀ i < Nat.find hex, sample i = false := by
      intro i hi
      have := Nat.find_min hex hi
      have hlt : i < 50000 := by omega
      simpa [hlt] using this
    generalize Nat.find hex = m at hm hhigh hlow
    rw [reportsLevel_iff_of_high hpin hm hlow hhigh, not_iff_not]
    constructor
    · rintro rfl
      exact ⟨hlow, hhigh⟩
    · rintro ⟨hall, -⟩
      by_contra hne
      exact absurd (hall m (by omega)) (by simp [hhigh])
  · have hlow : ∀ n < 50000, sample n = false := by
      intro n hn
      have hne : ¬sample n = true := fun hhigh => hex ⟨n, hn, hhigh⟩
      exact Bool.eq_false_iff.mpr hne
    exact iff_of_true (reportsLevel_of_low hpin hlow) fun h => hex ⟨49999, by omega, h.2⟩

/-- A line that goes high after a thousand samples. -/
theorem uart_wait_high_reports_thousand : ReportsLevel 9 fun n => 1000 ≤ n := by
  refine (uart_wait_high_reports_iff 9 (by decide) _).mpr fun h => ?_
  exact absurd (h.1 1000 (by omega)) (by simp)

/-- A line that is high at the last sample is reported to be low. -/
theorem uart_wait_high_misses_last_sample :
    uartWaitHigh 9 (fun n => 49999 ≤ n) = (-1, 50000) ∧ ¬ReportsLevel 9 fun n => 49999 ≤ n := by
  have heq : uartWaitHigh 9 (fun n => 49999 ≤ n) = (-1, 50000) :=
    uartWaitHigh_of_high (m := 49999) (by decide) (by omega) (by simp) (by simp)
  refine ⟨heq, fun h => ?_⟩
  have hzero := h.some_high.mpr ⟨49999, by omega, by simp⟩
  rw [heq] at hzero
  exact absurd hzero (by decide)

end JdPico
