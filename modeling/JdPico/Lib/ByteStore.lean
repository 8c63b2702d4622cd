import Mathlib.Data.UInt
import Mathlib.Tactic

/-!
# Byte stores and NOR flash

A byte store is a function from addresses to bytes.  `write` replaces a range of addresses and
`fill` sets a range to one byte.  NOR flash differs from a plain store in one way: programming can
only clear bits, so `norProgram` leaves the bitwise AND of the old and the new byte, and only
`fill` with `0xff` (an erase) sets bits again.  `norProgram_eq_write` is the bridge between the
two: a range is programmed as if it were written once every programmed byte only clears bits of
the byte below it.
-/

namespace ByteStore

/-- Replace the range `[base, base + len)` by the bytes of `src`. -/
def write (m : ℕ → UInt8) (base len : ℕ) (src : ℕ → UInt8) : ℕ → UInt8 :=
  fun a => if base ≤ a ∧ a < base + len then src (a - base) else m a

/-- Set every byte of the range `[base, base + len)` to `v`. -/
def fill (m : ℕ → UInt8) (base len : ℕ) (v : UInt8) : ℕ → UInt8 :=
  write m base len fun _ => v

/-- Program the range `[base, base + len)` of a NOR flash: each byte becomes old AND new. -/
def norProgram (m : ℕ → UInt8) (base len : ℕ) (src : ℕ → UInt8) : ℕ → UInt8 :=
  fun a => if base ≤ a ∧ a < base + len then m a &&& src (a - base) else m a

variable {m : ℕ → UInt8} {base len a : ℕ} {src : ℕ → UInt8} {v : UInt8}

lemma write_of_mem (h : base ≤ a ∧ a < base + len) : write m base len src a = src (a - base) :=
  if_pos h

lemma write_of_not_mem (h : ¬(base ≤ a ∧ a < base + len)) : write m base len src a = m a :=
  if_neg h

lemma fill_of_mem (h : base ≤ a ∧ a < base + len) : fill m base len v a = v :=
  if_pos h

lemma fill_of_not_mem (h : ¬(base ≤ a ∧ a < base + len)) : fill m base len v a = m a :=
  if_neg h

/-- After an erase a byte reads erased if it lies in the range or read erased before. -/
lemma fill_eq_erased_iff :
    fill m base len 0xff a = 0xff ↔ (base ≤ a ∧ a < base + len) ∨ m a = 0xff := by
  by_cases h : base ≤ a ∧ a < base + len
  · simp [fill_of_mem h, h]
  · simp [fill_of_not_mem h, h]

lemma norProgram_of_mem (h : base ≤ a ∧ a < base + len) :
    norProgram m base len src a = m a &&& src (a - base) :=
  if_pos h

lemma norProgram_of_not_mem (h : ¬(base ≤ a ∧ a < base + len)) :
    norProgram m base len src a = m a :=
  if_neg h

@[simp] lemma write_zero_len : write m base 0 src = m := by
  funext a
  exact write_of_not_mem (by omega)

/-- Only the bytes that are written matter. -/
lemma write_congr {src' : ℕ → UInt8} (h : ∀ i < len, src i = src' i) :
    write m base len src = write m base len src' := by
  funext a
  by_cases ha : base ≤ a ∧ a < base + len
  · rw [write_of_mem ha, write_of_mem ha, h _ (by omega)]
  · rw [write_of_not_mem ha, write_of_not_mem ha]

/-- Two consecutive writes are one write of the whole range. -/
lemma write_write_add (n k : ℕ) :
    write (write m base n src) (base + n) k (fun i => src (n + i)) = write m base (n + k) src := by
  funext a
  by_cases h₁ : base + n ≤ a ∧ a < base + n + k
  · rw [write_of_mem h₁, write_of_mem (by omega)]
    congr 1
    omega
  · rw [write_of_not_mem h₁]
    by_cases h₂ : base ≤ a ∧ a < base + n
    · rw [write_of_mem h₂, write_of_mem (by omega)]
    · rw [write_of_not_mem h₂, write_of_not_mem (by omega)]

/-- Setting the next byte extends a write by one. -/
lemma update_write_succ (n : ℕ) :
    Function.update (write m base n src) (base + n) (src n) = write m base (n + 1) src := by
  funext a
  by_cases ha : a = base + n
  · subst ha
    rw [Function.update_self, write_of_mem (by omega), Nat.add_sub_cancel_left]
  · rw [Function.update_of_ne ha]
    by_cases h : base ≤ a ∧ a < base + n
    · rw [write_of_mem h, write_of_mem (by omega)]
    · rw [write_of_not_mem h, write_of_not_mem (by omega)]

/-- Programming a range in which every new byte only clears bits of the old one writes it. -/
lemma norProgram_eq_write (h : ∀ i < len, m (base + i) &&& src i = src i) :
    norProgram m base len src = write m base len src := by
  funext a
  by_cases ha : base ≤ a ∧ a < base + len
  · rw [norProgram_of_mem ha, write_of_mem ha]
    have hsrc := h (a - base) (by omega)
    rwa [Nat.add_sub_cancel' ha.1] at hsrc
  · rw [norProgram_of_not_mem ha, write_of_not_mem ha]

/-- The erased byte is neutral for programming. -/
@[simp] lemma erased_and (b : UInt8) : 0xff &&& b = b := UInt8.neg_one_and

@[simp] lemma and_erased (b : UInt8) : b &&& 0xff = b := UInt8.and_neg_one

/-- A programmed byte reads erased only if both the old and the new byte were. -/
lemma and_eq_erased {b c : UInt8} : b &&& c = 0xff ↔ b = 0xff ∧ c = 0xff :=
  UInt8.and_eq_neg_one_iff

end ByteStore
