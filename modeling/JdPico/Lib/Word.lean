import Mathlib.Data.BitVec
import Mathlib.Tactic

/-!
# Words that hold several things

The words of a register block often hold a bit or a field for each of several things, and are
written through operations that are meant to change one of them: setting bits, clearing bits,
writing under a mask, writing a field.  The lemmas below say what such a write does at every bit,
and that it leaves the other bits and fields alone.  The last section is about loops that go through
the bits of a mask from the lowest one on.
-/

namespace Word

variable {w : ℕ}

/-- Set the bits of a mask. -/
def setBits (r mask : BitVec w) : BitVec w := r ||| mask

/-- Clear the bits of a mask. -/
def clearBits (r mask : BitVec w) : BitVec w := r &&& ~~~mask

/-- Write the bits of a mask, by exchanging those that are wrong. -/
def writeMasked (r values mask : BitVec w) : BitVec w := r ^^^ ((r ^^^ values) &&& mask)

/-- Write a field of `len` bits. -/
def writeField (r : BitVec w) (shift : ℕ) {len : ℕ} (value : BitVec len) : BitVec w :=
  r &&& ~~~((BitVec.allOnes len).setWidth w <<< shift) ||| value.setWidth w <<< shift

variable {r values mask rest : BitVec w} {i m n : ℕ}

/-! ### Bits -/

/-- The bits under the mask are written and the others are kept. -/
lemma getLsbD_writeMasked (r values mask : BitVec w) (i : ℕ) :
    (writeMasked r values mask).getLsbD i =
      if mask.getLsbD i then values.getLsbD i else r.getLsbD i := by
  simp only [writeMasked, BitVec.getLsbD_xor, BitVec.getLsbD_and]
  cases r.getLsbD i <;> cases values.getLsbD i <;> cases mask.getLsbD i <;> rfl

/-- What is outside the mask is kept as a whole. -/
lemma writeMasked_and (h : mask &&& rest = 0#w) :
    writeMasked r values mask &&& rest = r &&& rest := by
  ext i hi
  have hbit : (mask.getLsbD i && rest.getLsbD i) = false := by
    rw [← BitVec.getLsbD_and, h, BitVec.getLsbD_zero]
  simp only [← BitVec.getLsbD_eq_getElem, BitVec.getLsbD_and, getLsbD_writeMasked]
  cases hmask : mask.getLsbD i <;> cases hrest : rest.getLsbD i <;> simp_all

/-- Setting and clearing bits are writes under a mask. -/
lemma setBits_eq (r mask : BitVec w) : setBits r mask = writeMasked r mask mask := by
  ext i hi
  simp only [setBits, writeMasked, BitVec.getElem_or, BitVec.getElem_xor, BitVec.getElem_and]
  cases r[i] <;> cases mask[i] <;> rfl

lemma clearBits_eq (r mask : BitVec w) : clearBits r mask = writeMasked r 0#w mask := by
  ext i hi
  simp only [clearBits, writeMasked, BitVec.getElem_not, BitVec.getElem_xor, BitVec.getElem_and,
    BitVec.getElem_zero]
  cases r[i] <;> cases mask[i] <;> rfl

lemma getLsbD_setBits (r mask : BitVec w) (i : ℕ) :
    (setBits r mask).getLsbD i = if mask.getLsbD i then true else r.getLsbD i := by
  rw [setBits_eq, getLsbD_writeMasked]
  cases mask.getLsbD i <;> rfl

lemma getLsbD_clearBits (r mask : BitVec w) (i : ℕ) :
    (clearBits r mask).getLsbD i = if mask.getLsbD i then false else r.getLsbD i := by
  rw [clearBits_eq, getLsbD_writeMasked, BitVec.getLsbD_zero]

/-- A mask of one bit. -/
lemma getLsbD_one_shiftLeft (hm : m < w) (n : ℕ) :
    (1#w <<< n).getLsbD m = decide (m = n) := by
  have hw : 0 < w := by omega
  rw [BitVec.getLsbD_shiftLeft, BitVec.getLsbD_one]
  rcases lt_trichotomy m n with hlt | rfl | hgt
  · simp only [hlt, hlt.ne, decide_true, decide_false, Bool.not_true, Bool.and_false,
      Bool.false_and]
  · simp [hm, hw]
  · have hsub : m - n ≠ 0 := by omega
    simp only [hgt.ne', hsub, decide_false, Bool.and_false]

/-! ### Fields -/

/-- A bit of a value that was shifted to its field. -/
lemma getLsbD_setWidth_shiftLeft {len : ℕ} (value : BitVec len) (shift : ℕ) (hi : i < w) :
    (value.setWidth w <<< shift).getLsbD i =
      (decide (shift ≤ i) && value.getLsbD (i - shift)) := by
  rw [BitVec.getLsbD_shiftLeft, BitVec.getLsbD_setWidth]
  by_cases h : i < shift
  · simp [h]
  · have hsub : i - shift < w := by omega
    simp [hi, h, hsub, not_lt.mp h]

/-- A written field is the value, -/
lemma extractLsb'_writeField_self {len : ℕ} (value : BitVec len) {shift : ℕ}
    (hfit : shift + len ≤ w) : (writeField r shift value).extractLsb' shift len = value := by
  ext i hi
  have hw : shift + i < w := by omega
  have hsub : shift + i - shift = i := by omega
  simp only [writeField, ← BitVec.getLsbD_eq_getElem, BitVec.getLsbD_extractLsb', hi,
    BitVec.getLsbD_or, BitVec.getLsbD_and, BitVec.getLsbD_not, hw,
    getLsbD_setWidth_shiftLeft _ _ hw, hsub, BitVec.getLsbD_allOnes, Nat.le_add_right]
  simp

/-- and a field that does not overlap it is kept. -/
lemma extractLsb'_writeField_of_disjoint {len len' : ℕ} (value : BitVec len) {shift shift' : ℕ}
    (hfit : shift' + len' ≤ w) (hdisj : shift + len ≤ shift' ∨ shift' + len' ≤ shift) :
    (writeField r shift value).extractLsb' shift' len' = r.extractLsb' shift' len' := by
  ext i hi
  have hw : shift' + i < w := by omega
  have hout : (BitVec.allOnes len).getLsbD (shift' + i - shift) = false ∧
      value.getLsbD (shift' + i - shift) = false ∨ ¬shift ≤ shift' + i := by
    rcases hdisj with h | h
    · left
      exact ⟨BitVec.getLsbD_of_ge _ _ (by omega), BitVec.getLsbD_of_ge _ _ (by omega)⟩
    · right
      omega
  simp only [writeField, ← BitVec.getLsbD_eq_getElem, BitVec.getLsbD_extractLsb', hi,
    BitVec.getLsbD_or, BitVec.getLsbD_and, BitVec.getLsbD_not, hw,
    getLsbD_setWidth_shiftLeft _ _ hw]
  rcases hout with ⟨h₁, h₂⟩ | h
  · simp [h₁, h₂]
  · simp [h]

/-! ### The lowest bit -/

/-- A word that is not zero, divided at the lowest bit that is set. -/
lemma toNat_eq_ctz (h : mask ≠ 0#w) :
    ∃ m, mask.toNat = 2 ^ (mask.ctz.toNat + 1) * m + 2 ^ mask.ctz.toNat := by
  refine ⟨mask.toNat / 2 ^ (mask.ctz.toNat + 1), ?_⟩
  generalize hk : mask.ctz.toNat = k
  have hlow : mask.toNat % 2 ^ (k + 1) = 2 ^ k := by
    refine Nat.eq_of_testBit_eq fun j => ?_
    rw [Nat.testBit_mod_two_pow, Nat.testBit_two_pow]
    subst hk
    rcases lt_trichotomy j mask.ctz.toNat with hlt | rfl | hgt
    · have hbit : mask.toNat.testBit j = false := BitVec.getLsbD_false_of_lt_ctz hlt
      simp [hbit, hlt.ne']
    · have hbit : mask.toNat.testBit mask.ctz.toNat = true :=
        BitVec.getLsbD_true_ctz_of_ne_zero h
      simp [hbit]
    · simp [show ¬j < mask.ctz.toNat + 1 by omega, hgt.ne]
  rw [← hlow, Nat.div_add_mod]

/-- `mask & (mask - 1)` is the mask without its lowest bit. -/
lemma getLsbD_and_sub_one (h : mask ≠ 0#w) (i : ℕ) :
    (mask &&& (mask - 1#w)).getLsbD i = (mask.getLsbD i && decide (i ≠ mask.ctz.toNat)) := by
  obtain ⟨m, hm⟩ := toNat_eq_ctz h
  generalize mask.ctz.toNat = k at hm
  have hpos : 0 < 2 ^ k := by positivity
  have hpow : 2 ^ (k + 1) = 2 * 2 ^ k := Nat.pow_succ'
  have hone : (1#w).toNat = 1 := by
    rw [BitVec.toNat_ofNat]
    refine Nat.mod_eq_of_lt (Nat.one_lt_two_pow fun hw => ?_)
    subst hw
    exact h (BitVec.eq_nil mask)
  have hsub : (mask - 1#w).toNat = 2 ^ (k + 1) * m + (2 ^ k - 1) := by
    rw [BitVec.toNat_sub_of_le (by rw [BitVec.le_def, hone]; omega), hone]
    omega
  simp only [BitVec.getLsbD, BitVec.toNat_and, Nat.testBit_and, hsub, hm]
  rw [Nat.testBit_two_pow_mul_add _ (by omega), Nat.testBit_two_pow_mul_add _ (by omega),
    Nat.testBit_two_pow, Nat.testBit_two_pow_sub_one]
  split_ifs with hi
  · by_cases hik : i = k
    · simp [hik]
    · simp [hik, Ne.symm hik]
  · simp [show i ≠ k by omega]

/-- So it is less. -/
lemma and_sub_one_lt (h : mask ≠ 0#w) : mask &&& (mask - 1#w) < mask := by
  rw [BitVec.lt_def, BitVec.toNat_and]
  refine lt_of_le_of_ne Nat.and_le_left fun heq => ?_
  have hbit := getLsbD_and_sub_one h mask.ctz.toNat
  rw [BitVec.getLsbD, BitVec.toNat_and, heq] at hbit
  have htrue : mask.toNat.testBit mask.ctz.toNat = true := BitVec.getLsbD_true_ctz_of_ne_zero h
  simp [htrue] at hbit

lemma one_shiftLeft_ne_zero {n : ℕ} (hn : n < w) : 1#w <<< n ≠ 0#w := by
  intro h
  have hbit := getLsbD_one_shiftLeft hn n
  rw [h] at hbit
  simp at hbit

/-- The lowest bit of a mask with one bit. -/
lemma ctz_one_shiftLeft {n : ℕ} (hn : n < w) : (1#w <<< n).ctz.toNat = n := by
  have hne := one_shiftLeft_ne_zero hn
  have htrue := BitVec.getLsbD_true_ctz_of_ne_zero hne
  rw [getLsbD_one_shiftLeft (BitVec.lt_of_getLsbD htrue)] at htrue
  exact of_decide_eq_true htrue

/-- Without it nothing is left. -/
lemma one_shiftLeft_and_sub_one {n : ℕ} (hn : n < w) :
    1#w <<< n &&& (1#w <<< n - 1#w) = 0#w := by
  have hne := one_shiftLeft_ne_zero hn
  ext i hi
  rw [← BitVec.getLsbD_eq_getElem, getLsbD_and_sub_one hne, ctz_one_shiftLeft hn,
    getLsbD_one_shiftLeft hi]
  simp

end Word
