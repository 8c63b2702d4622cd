import Mathlib.Data.UInt
import Mathlib.Tactic

/-!
# Waiting

`target_wait_us` reads the low half of the timer until it is far enough from what it was at the
start.  The difference is taken modulo `2 ^ 32`, so it does not matter where the timer starts or
whether it goes through zero; but the difference goes through zero as well, and a wait would go on
for more than an hour if no reading fell into the time that is left then.

As in the reading of the 64-bit time, the timer is given by its value at each access, `time k` at
access `k`.  It does not go back and does not stop, and it advances by at most `gap` from one access
to the next one.  `hw_panic` waits sixty times, with interrupts disabled, and then resets the
processor.
-/

namespace JdPico

/-! ### The code -/

/-- The register `timerawl` at access `k`. -/
def timerawlAt (time : ℕ → ℕ) (k : ℕ) : UInt32 := UInt32.ofNat (time k)

/-- The loop of `target_wait_us` from access `k` on: the access that ends it, or `none` if none of
the next `fuel` does. -/
def waitLoop (time : ℕ → ℕ) (start n : UInt32) : ℕ → ℕ → Option ℕ
  | 0, _ => none
  | fuel + 1, k =>
    if timerawlAt time k - start < n then waitLoop time start n fuel (k + 1) else some k

/-- `target_wait_us`, called before access `k`. -/
def targetWaitUs (time : ℕ → ℕ) (fuel : ℕ) (n : UInt32) (k : ℕ) : Option ℕ :=
  waitLoop time (timerawlAt time k) n fuel (k + 1)

/-- `led_panic_blink`, on a board without the LEDs that it would use. -/
def ledPanicBlink (time : ℕ → ℕ) (fuel k : ℕ) : Option ℕ := targetWaitUs time fuel 140000 k

/-- The loop of `hw_panic` for `i` more rounds, called before access `k`: the access before which it
ends. -/
def panicLoop (time : ℕ → ℕ) (fuel : ℕ) : ℕ → ℕ → Option ℕ
  | 0, k => some k
  | i + 1, k => (ledPanicBlink time fuel k).bind fun j => panicLoop time fuel i (j + 1)

/-- `hw_panic`, called before access `k`: the access before which it calls `target_reset`. -/
def hwPanic (time : ℕ → ℕ) (fuel k : ℕ) : Option ℕ := panicLoop time fuel 60 k

/-! ### One wait -/

/-- The values of a timer at the accesses to it. -/
structure TimerAccesses (gap : ℕ) where
  time : ℕ → ℕ
  mono : Monotone time
  next_le : ∀ k, time (k + 1) ≤ time k + gap
  unbounded : ∀ t, ∃ k, t ≤ time k

variable {gap : ℕ} {n : UInt32} {k : ℕ}

/-- The difference of two readings is the time between them, modulo `2 ^ 32`. -/
lemma toNat_timerawlAt_sub {time : ℕ → ℕ} (hmono : Monotone time) {j : ℕ} (hkj : k ≤ j) :
    (timerawlAt time j - timerawlAt time k).toNat = (time j - time k) % 2 ^ 32 := by
  have hle := hmono hkj
  rw [timerawlAt, timerawlAt, UInt32.toNat_sub, UInt32.toNat_ofNat', UInt32.toNat_ofNat']
  omega

/-- A wait goes on at an access that is too early. -/
lemma timerawlAt_sub_lt (t : TimerAccesses gap) {j : ℕ} (hkj : k ≤ j)
    (h : t.time j < t.time k + n.toNat) : timerawlAt t.time j - timerawlAt t.time k < n := by
  rw [UInt32.lt_iff_toNat_lt, toNat_timerawlAt_sub t.mono hkj]
  have := Nat.mod_le (t.time j - t.time k) (2 ^ 32)
  have := t.mono hkj
  omega

/-- The loop ends at the first access at which the difference is not too small. -/
lemma waitLoop_eq {time : ℕ → ℕ} {start : UInt32} {fuel d : ℕ}
    (hbefore : ∀ i < d, timerawlAt time (k + i) - start < n)
    (hend : ¬timerawlAt time (k + d) - start < n) (hfuel : d < fuel) :
    waitLoop time start n fuel k = some (k + d) := by
  induction d generalizing k fuel with
  | zero =>
    obtain ⟨fuel, rfl⟩ := Nat.exists_eq_succ_of_ne_zero (Nat.ne_of_gt hfuel)
    rw [Nat.add_zero] at hend ⊢
    rw [waitLoop, if_neg hend]
  | succ d ih =>
    obtain ⟨fuel, rfl⟩ := Nat.exists_eq_succ_of_ne_zero (Nat.ne_of_gt (by omega : 0 < fuel))
    have hnext : ∀ i, k + 1 + i = k + (i + 1) := by omega
    rw [waitLoop, if_pos (show timerawlAt time k - start < n from hbefore 0 (by omega)), ← hnext d]
    refine ih (fun i hi => ?_) ?_ (by omega)
    · rw [hnext]
      exact hbefore (i + 1) (by omega)
    · rwa [hnext]

/-- At the access that ends the loop the difference is not too small. -/
lemma waitLoop_end {time : ℕ → ℕ} {start : UInt32} {fuel j : ℕ}
    (h : waitLoop time start n fuel k = some j) :
    k ≤ j ∧ ¬timerawlAt time j - start < n := by
  induction fuel generalizing k with
  | zero => contradiction
  | succ fuel ih =>
    rw [waitLoop] at h
    by_cases hlt : timerawlAt time k - start < n
    · rw [if_pos hlt] at h
      obtain ⟨hle, hend⟩ := ih h
      exact ⟨by omega, hend⟩
    · rw [if_neg hlt] at h
      obtain rfl := Option.some.inj h
      exact ⟨le_rfl, hlt⟩

/-- What is said of a wait that starts at access `k` and ends at access `j`. -/
structure Waited (t : TimerAccesses gap) (n : UInt32) (k j : ℕ) : Prop where
  after : k < j
  notEarly : t.time k + n.toNat ≤ t.time j
  /-- Each access before was too early. -/
  first : ∀ i, k < i → i < j → t.time i < t.time k + n.toNat
  notLate : 0 < n.toNat → t.time j < t.time k + n.toNat + gap

/-- There is one access at which the wait is over. -/
lemma exists_waited (t : TimerAccesses gap) (n : UInt32) (k : ℕ) : ∃ j, Waited t n k j := by
  have hex : ∃ d, t.time k + n.toNat ≤ t.time (k + 1 + d) := by
    obtain ⟨i, hi⟩ := t.unbounded (t.time k + n.toNat)
    exact ⟨i, hi.trans (t.mono (by omega))⟩
  classical
  set d := Nat.find hex with hd
  have hbefore : ∀ i < d, t.time (k + 1 + i) < t.time k + n.toNat :=
    fun i hi => not_le.mp (Nat.find_min hex hi)
  refine ⟨k + 1 + d, by omega, Nat.find_spec hex, fun i hki hij => ?_, ?_⟩
  · obtain ⟨e, rfl⟩ := Nat.exists_eq_add_of_le (Nat.succ_le_of_lt hki)
    exact hbefore e (by omega)
  · intro hn
    cases hd' : d with
    | zero => exact (t.next_le k).trans_lt (by omega)
    | succ e =>
      have hlast := hbefore e (by omega)
      exact (t.next_le (k + 1 + e)).trans_lt (by omega)

/-- The wait ends there. -/
lemma waitUs_ends (t : TimerAccesses gap) (n : UInt32) (k : ℕ)
    (hgap : n.toNat + gap ≤ 2 ^ 32) :
    ∃ j, Waited t n k j ∧ ∀ fuel, j - k ≤ fuel → targetWaitUs t.time fuel n k = some j := by
  obtain ⟨j, hj⟩ := exists_waited t n k
  refine ⟨j, hj, fun fuel hfuel => ?_⟩
  obtain ⟨d, rfl⟩ := Nat.exists_eq_add_of_le (show k + 1 ≤ j from hj.after)
  refine waitLoop_eq (fun i hi => ?_) ?_ (by omega)
  · exact timerawlAt_sub_lt t (by omega) (hj.first _ (by omega) (by omega))
  · have hearly := hj.notEarly
    have hlate := hj.notLate
    rw [UInt32.lt_iff_toNat_lt, toNat_timerawlAt_sub t.mono (by omega)]
    rcases Nat.eq_zero_or_pos n.toNat with hn | hn
    · omega
    · rw [Nat.mod_eq_of_lt (by omega)]
      omega

/-- **Waiting.**  A wait never ends early, however long it takes from one access to the next.  If
the time that is waited for and the time between two accesses are together at most `2 ^ 32`
microseconds, it ends at the first access at which it is over. -/
theorem target_wait_us_ends (t : TimerAccesses gap) (n : UInt32) (k : ℕ) :
    (∀ fuel j, targetWaitUs t.time fuel n k = some j → t.time k + n.toNat ≤ t.time j) ∧
      (n.toNat + gap ≤ 2 ^ 32 →
        ∃ j, Waited t n k j ∧ ∀ fuel, j - k ≤ fuel → targetWaitUs t.time fuel n k = some j) := by
  refine ⟨fun fuel j h => ?_, waitUs_ends t n k⟩
  obtain ⟨hkj, hend⟩ := waitLoop_end h
  have hmono := t.mono (show k ≤ j by omega)
  rw [UInt32.lt_iff_toNat_lt, toNat_timerawlAt_sub t.mono (by omega)] at hend
  have := Nat.mod_le (t.time j - t.time k) (2 ^ 32)
  omega

/-- A timer that is read at each microsecond. -/
def everyMicrosecond (start : ℕ) : TimerAccesses 1 where
  time k := start + k
  mono _ _ h := Nat.add_le_add_left h _
  next_le _ := le_rfl
  unbounded u := ⟨u, Nat.le_add_left u _⟩

/-- A wait of five microseconds in which the register goes through zero. -/
theorem target_wait_us_ends_through_zero :
    ∃ j, Waited (everyMicrosecond (2 ^ 32 - 2)) 5 0 j ∧
      ∀ fuel, j - 0 ≤ fuel → targetWaitUs (everyMicrosecond (2 ^ 32 - 2)).time fuel 5 0 = some j :=
  (target_wait_us_ends (everyMicrosecond (2 ^ 32 - 2)) 5 0).2 (by decide)

/-! ### A panic -/

/-- One round of the panic. -/
lemma ledPanicBlink_ends (t : TimerAccesses gap) (hgap : 140000 + gap ≤ 2 ^ 32) (k : ℕ) :
    ∃ j, t.time k + 140000 ≤ t.time j ∧ t.time j ≤ t.time k + (140000 + gap) ∧
      ∀ fuel, j - k ≤ fuel → ledPanicBlink t.time fuel k = some j := by
  obtain ⟨j, hj, hends⟩ := waitUs_ends t 140000 k hgap
  refine ⟨j, hj.notEarly, ?_, hends⟩
  rw [← Nat.add_assoc]
  exact (hj.notLate (by decide)).le

/-- A number of rounds of the panic end, after so much time and not much more. -/
lemma panicLoop_ends (t : TimerAccesses gap) (hgap : 140000 + gap ≤ 2 ^ 32) (i k : ℕ) :
    ∃ last enough, t.time k + (i + 1) * 140000 ≤ t.time last ∧
      t.time last ≤ t.time k + (i + 1) * (140000 + 2 * gap) ∧
      ∀ fuel, enough ≤ fuel → panicLoop t.time fuel (i + 1) k = some (last + 1) := by
  obtain ⟨j, hearly, hlate, hends⟩ := ledPanicBlink_ends t hgap k
  induction i generalizing k j with
  | zero =>
    refine ⟨j, j - k, by omega, by omega, fun fuel hfuel => ?_⟩
    rw [panicLoop, hends fuel hfuel, Option.bind_some, panicLoop]
  | succ i ih =>
    obtain ⟨j', hearly', hlate', hends'⟩ := ledPanicBlink_ends t hgap (j + 1)
    obtain ⟨last, enough, hlast, hlast', hrest⟩ := ih (j + 1) j' hearly' hlate' hends'
    have hnext := t.next_le j
    have hmono := t.mono (show j ≤ j + 1 by omega)
    have hmul : (i + 1 + 1) * (140000 + 2 * gap) =
        (i + 1) * (140000 + 2 * gap) + (140000 + 2 * gap) :=
      Nat.succ_mul _ _
    refine ⟨last, max enough (j - k), by omega, by omega, fun fuel hfuel => ?_⟩
    rw [panicLoop, hends fuel (by omega), Option.bind_some, hrest fuel (by omega)]

/-- **A panic ends in a reset.**  It takes at least 8.4 seconds, and longer only by what lies
between the accesses to the timer. -/
theorem hw_panic_resets (t : TimerAccesses gap) (k : ℕ) (hgap : 140000 + gap ≤ 2 ^ 32) :
    ∃ last enough, t.time k + 8400000 ≤ t.time last ∧
      t.time last ≤ t.time k + 8400000 + 120 * gap ∧
      ∀ fuel, enough ≤ fuel → hwPanic t.time fuel k = some (last + 1) := by
  obtain ⟨last, enough, hearly, hlate, hends⟩ := panicLoop_ends t hgap 59 k
  exact ⟨last, enough, by omega, by omega, hends⟩

/-- A panic with the register about to go through zero. -/
theorem hw_panic_resets_through_zero :
    ∃ last enough, (everyMicrosecond (2 ^ 32 - 2)).time 0 + 8400000 ≤
        (everyMicrosecond (2 ^ 32 - 2)).time last ∧
      (everyMicrosecond (2 ^ 32 - 2)).time last ≤
        (everyMicrosecond (2 ^ 32 - 2)).time 0 + 8400000 + 120 * 1 ∧
      ∀ fuel, enough ≤ fuel →
        hwPanic (everyMicrosecond (2 ^ 32 - 2)).time fuel 0 = some (last + 1) :=
  hw_panic_resets (everyMicrosecond (2 ^ 32 - 2)) 0 (by decide)

end JdPico
