import Mathlib.Data.UInt
import Mathlib.Tactic

/-!
# The 64-bit time

The timer is a 64-bit counter that is read in two halves.  `tim_get_micros` reads the high half,
then the low one, then the high one again, and starts over from the second reading if the two
differ.  A trajectory of the counter is its value at each access to the timer, `clock k` at access
`k`; between two accesses it may advance by any amount.

If the two readings of the high half agree, then the high half was the same in between, because the
counter does not go back.  So the result is the value of the counter when its low half was last
read.  Each round that is started over has seen the high half grow, so the loop ends.
-/

namespace JdPico

/-- The register `timerawh` when the counter is `c`. -/
def timerawh (c : UInt64) : UInt32 := (c >>> 32).toUInt32

/-- The register `timerawl` when the counter is `c`. -/
def timerawl (c : UInt64) : UInt32 := c.toUInt32

/-- The loop of `tim_get_micros`, with `hi` read before access `k`.  The result comes with the
access that read `lo`. -/
def timGetMicrosLoop (clock : ℕ → UInt64) : ℕ → ℕ → UInt32 → Option (UInt64 × ℕ)
  | 0, _, _ => none
  | fuel + 1, k, hi =>
    let lo := timerawl (clock k)
    let nextHi := timerawh (clock (k + 1))
    if hi = nextHi then some (hi.toUInt64 <<< 32 ||| lo.toUInt64, k)
    else timGetMicrosLoop clock fuel (k + 2) nextHi

/-- `tim_get_micros`, called at access `k`, for at most `fuel` rounds of its loop. -/
def timGetMicros (clock : ℕ → UInt64) (fuel k : ℕ) : Option (UInt64 × ℕ) :=
  timGetMicrosLoop clock fuel (k + 1) (timerawh (clock k))

/-! ### The two halves -/

lemma timerawh_toNat (c : UInt64) : (timerawh c).toNat = c.toNat / 2 ^ 32 := by
  have hc := c.toNat_lt
  simp only [timerawh, UInt64.toNat_toUInt32, UInt64.toNat_shiftRight, Nat.shiftRight_eq_div_pow]
  rw [show (32 : UInt64).toNat % 64 = 32 from rfl]
  omega

lemma timerawl_toNat (c : UInt64) : (timerawl c).toNat = c.toNat % 2 ^ 32 :=
  UInt64.toNat_toUInt32 c

/-- The halves of a counter value make up the value. -/
lemma timerawh_timerawl (c : UInt64) :
    (timerawh c).toUInt64 <<< 32 ||| (timerawl c).toUInt64 = c := by
  have hlow : c.toNat % 2 ^ 32 < 2 ^ 32 := Nat.mod_lt _ (by decide)
  have hhigh : c.toNat / 2 ^ 32 * 2 ^ 32 < 2 ^ 64 := by
    have := c.toNat_lt
    omega
  apply UInt64.toNat.inj
  rw [UInt64.toNat_or, UInt64.toNat_shiftLeft, UInt32.toNat_toUInt64, UInt32.toNat_toUInt64,
    timerawh_toNat, timerawl_toNat, show (32 : UInt64).toNat % 64 = 32 from rfl, Nat.shiftLeft_eq,
    Nat.mod_eq_of_lt hhigh, ← Nat.shiftLeft_eq, ← Nat.shiftLeft_add_eq_or_of_lt hlow,
    Nat.shiftLeft_eq]
  omega

variable {clock : ℕ → UInt64} {fuel j k : ℕ} {hi : UInt32} {v : UInt64}

/-- A counter that does not go back has the same high half between two readings that agree. -/
lemma timerawh_between (hmono : Monotone fun k => (clock k).toNat) {i : ℕ} (hij : i ≤ j)
    (hjk : j ≤ k) (h : timerawh (clock i) = timerawh (clock k)) :
    timerawh (clock i) = timerawh (clock j) := by
  have h₁ := hmono hij
  have h₂ := hmono hjk
  have h₃ := congrArg UInt32.toNat h
  apply UInt32.toNat.inj
  dsimp only at h₁ h₂
  rw [timerawh_toNat, timerawh_toNat] at *
  omega

/-! ### The loop -/

/-- The loop returns the counter at the access that read `lo`. -/
lemma timGetMicrosLoop_eq (hmono : Monotone fun k => (clock k).toNat) {i : ℕ} (hi : i ≤ k)
    (h : timGetMicrosLoop clock fuel k (timerawh (clock i)) = some (v, j)) :
    v = clock j ∧ k ≤ j := by
  induction fuel generalizing i k with
  | zero => simp [timGetMicrosLoop] at h
  | succ fuel ih =>
    rw [timGetMicrosLoop] at h
    by_cases hsame : timerawh (clock i) = timerawh (clock (k + 1))
    · rw [if_pos hsame, Option.some.injEq, Prod.mk.injEq] at h
      obtain ⟨rfl, rfl⟩ := h
      rw [timerawh_between hmono hi (Nat.le_succ k) hsame]
      exact ⟨timerawh_timerawl _, le_rfl⟩
    · rw [if_neg hsame] at h
      obtain ⟨hv, hkj⟩ := ih (Nat.le_succ _) h
      exact ⟨hv, by omega⟩

/-- A round that is started over has seen the high half grow, so the loop ends. -/
lemma timGetMicrosLoop_isSome (hmono : Monotone fun k => (clock k).toNat) {i : ℕ} (hi : i ≤ k)
    (hfuel : 2 ^ 32 ≤ (timerawh (clock i)).toNat + fuel) :
    (timGetMicrosLoop clock fuel k (timerawh (clock i))).isSome := by
  induction fuel generalizing i k with
  | zero =>
    have := (timerawh (clock i)).toNat_lt
    omega
  | succ fuel ih =>
    rw [timGetMicrosLoop]
    by_cases hsame : timerawh (clock i) = timerawh (clock (k + 1))
    · rw [if_pos hsame]
      rfl
    · rw [if_neg hsame]
      refine ih (Nat.le_succ _) ?_
      have hle := hmono (show i ≤ k + 1 by omega)
      have hne : (timerawh (clock i)).toNat ≠ (timerawh (clock (k + 1))).toNat := fun h =>
        hsame (UInt32.toNat.inj h)
      dsimp only at hle
      rw [timerawh_toNat, timerawh_toNat] at *
      omega

/-- **An untorn time.**  For every trajectory of the counter, `tim_get_micros` returns, its result
is the value the counter had at its last reading of `timerawl`, and a call that is made after that
gives no smaller result. -/
theorem tim_get_micros_untorn (clock : ℕ → UInt64) (hmono : Monotone fun k => (clock k).toNat)
    (k : ℕ) :
    (∃ fuel, (timGetMicros clock fuel k).isSome) ∧
    ∀ fuel v j, timGetMicros clock fuel k = some (v, j) →
      k < j ∧ v = clock j ∧
      ∀ fuel' k' v' j', j < k' → timGetMicros clock fuel' k' = some (v', j') → v ≤ v' := by
  refine ⟨⟨2 ^ 32, timGetMicrosLoop_isSome hmono (Nat.le_succ k) (Nat.le_add_left _ _)⟩, ?_⟩
  intro fuel v j h
  obtain ⟨hv, hkj⟩ := timGetMicrosLoop_eq hmono (Nat.le_succ k) h
  refine ⟨hkj, hv, ?_⟩
  intro fuel' k' v' j' hlater h'
  obtain ⟨hv', hkj'⟩ := timGetMicrosLoop_eq hmono (Nat.le_succ k') h'
  rw [hv, hv', UInt64.le_iff_toNat_le]
  exact hmono (by omega)

/-- A counter whose low half overflows between the first two readings of a call. -/
def carriedClock (k : ℕ) : UInt64 := UInt64.ofNat (2 ^ 32 - 1 + min k 10)

theorem tim_get_micros_untorn_carry :
    timGetMicros carriedClock 2 0 = some (0x100000002, 3) ∧
      ∀ fuel k v j, 3 < k → timGetMicros carriedClock fuel k = some (v, j) → 0x100000002 ≤ v := by
  have hvalue : ∀ k, (carriedClock k).toNat = 2 ^ 32 - 1 + min k 10 := fun k =>
    UInt64.toNat_ofNat_of_lt' (show _ < 2 ^ 64 by omega)
  have hmono : Monotone fun k => (carriedClock k).toNat := by
    intro i j hij
    dsimp only
    rw [hvalue, hvalue]
    omega
  have hcall : timGetMicros carriedClock 2 0 = some (0x100000002, 3) := by decide
  exact ⟨hcall, ((tim_get_micros_untorn carriedClock hmono 0).2 2 _ 3 hcall).2.2⟩

end JdPico
