import JdPico.Lib.ByteStore
import Mathlib.Data.UInt
import Mathlib.Tactic

/-!
# Random bytes

`hw_random` reads the random bit of the ring oscillator 128 times, packs the bits into sixteen bytes
and hashes them; `jd_crypto_get_random` fills a buffer with such words.  Its loop counts in steps of
four with an `unsigned`, so that the counter passes over the last multiple of four and starts again
at zero if the size is beyond it.  Up to there it ends, and then it has written the bytes of the
buffer, each one from bits of its own word, and no other byte.

The bits are a parameter, by the number of the reading, and so is `jd_hash_fnv1a`, which is not part
of the repository.
-/

namespace JdPico

open ByteStore

/-! ### The code -/

/-- The inner loop of `hw_random`, for `n` more bits: the byte, and the number of the next
reading. -/
def randomByte (randombit : ℕ → Bool) : ℕ → UInt8 → ℕ → UInt8 × ℕ
  | 0, b, pos => (b, pos)
  | n + 1, b, pos =>
    let b := b <<< 1
    randomByte randombit n (if randombit pos then b ||| 1 else b) (pos + 1)

/-- The outer loop, for `n` more bytes. -/
def randomBytes (randombit : ℕ → Bool) : ℕ → ℕ → List UInt8 × ℕ
  | 0, pos => ([], pos)
  | n + 1, pos =>
    let b := randomByte randombit 8 0 pos
    let rest := randomBytes randombit n b.2
    (b.1 :: rest.1, rest.2)

/-- `hw_random`. -/
def hwRandom (hash : List UInt8 → UInt32) (randombit : ℕ → Bool) (pos : ℕ) : UInt32 × ℕ :=
  let buf := randomBytes randombit 16 pos
  (hash buf.1, buf.2)

/-- A byte of a word in memory. -/
def wordByte (v : UInt32) (k : ℕ) : UInt8 := (v >>> UInt32.ofNat (8 * k)).toUInt8

/-- The loop of `jd_crypto_get_random` from `i` on, on the memory from `buf` on: the memory at its
end and the number of the next reading; `none` if it does not end in `fuel` rounds. -/
def cryptoLoop (hash : List UInt8 → UInt32) (randombit : ℕ → Bool) (size : UInt32) :
    ℕ → UInt32 → (ℕ → UInt8) → ℕ → Option ((ℕ → UInt8) × ℕ)
  | 0, _, _, _ => none
  | fuel + 1, i, buf, pos =>
    if i < size then
      let v := hwRandom hash randombit pos
      let len := if size - i < 4 then (size - i).toNat else 4
      cryptoLoop hash randombit size fuel (i + 4) (write buf i.toNat len (wordByte v.1)) v.2
    else some (buf, pos)

/-- `jd_crypto_get_random`. -/
def jdCryptoGetRandom (hash : List UInt8 → UInt32) (randombit : ℕ → Bool) (size : UInt32)
    (fuel : ℕ) (buf : ℕ → UInt8) (pos : ℕ) : Option ((ℕ → UInt8) × ℕ) :=
  cryptoLoop hash randombit size fuel 0 buf pos

/-! ### What it is for -/

/-- Eight bits in a byte, the first one on top. -/
def packByte (bit : ℕ → Bool) : UInt8 :=
  UInt8.ofNat (∑ j ∈ Finset.range 8, (bit j).toNat * 2 ^ (7 - j))

/-- The sixteen bytes of the bits from `pos` on. -/
def packBits (randombit : ℕ → Bool) (pos : ℕ) : List UInt8 :=
  (List.range 16).map fun i => packByte fun j => randombit (pos + 8 * i + j)

/-- The random bytes that are made of the bits from `pos` on. -/
def randomStream (hash : List UInt8 → UInt32) (randombit : ℕ → Bool) (pos m : ℕ) : UInt8 :=
  wordByte (hash (packBits randombit (pos + 128 * (m / 4)))) (m % 4)

/-! ### One word -/

variable {hash : List UInt8 → UInt32} {randombit : ℕ → Bool} {size : UInt32}

/-- Eight readings make a byte. -/
lemma randomByte_eq (pos : ℕ) :
    randomByte randombit 8 0 pos = (packByte fun j => randombit (pos + j), pos + 8) := by
  have hbyte : ∀ b₀ b₁ b₂ b₃ b₄ b₅ b₆ b₇ : Bool,
      [b₀, b₁, b₂, b₃, b₄, b₅, b₆, b₇].foldl
        (fun b bit => if bit then b <<< 1 ||| 1 else b <<< 1) (0 : UInt8) =
      UInt8.ofNat (b₀.toNat * 2 ^ 7 + b₁.toNat * 2 ^ 6 + b₂.toNat * 2 ^ 5 + b₃.toNat * 2 ^ 4 +
        b₄.toNat * 2 ^ 3 + b₅.toNat * 2 ^ 2 + b₆.toNat * 2 ^ 1 + b₇.toNat * 2 ^ 0) := by
    decide
  simp only [packByte, Finset.sum_range_succ, Finset.sum_range_zero, Nat.zero_add]
  rw [← hbyte]
  rfl

/-- The bytes follow each other. -/
lemma randomBytes_eq (n pos : ℕ) :
    randomBytes randombit n pos =
      ((List.range n).map fun i => packByte fun j => randombit (pos + 8 * i + j), pos + 8 * n) := by
  induction n generalizing pos with
  | zero => rfl
  | succ n ih =>
    rw [randomBytes, randomByte_eq, ih, List.range_succ_eq_map]
    refine Prod.ext ?_ (by simp; omega)
    simp only [List.map_cons, List.map_map, Nat.mul_zero, Nat.add_zero, List.cons.injEq, true_and]
    refine List.map_congr_left fun i _ => ?_
    simp only [Function.comp, Nat.mul_succ]
    congr 1
    funext j
    congr 1
    omega

/-- A word is the hash of 128 readings. -/
lemma hwRandom_eq (pos : ℕ) :
    hwRandom hash randombit pos = (hash (packBits randombit pos), pos + 128) := by
  rw [hwRandom, randomBytes_eq, packBits]

/-! ### The loop -/

/-- The word for the next bytes of the buffer is the next one of the stream. -/
lemma randomStream_word (pos k : ℕ) {j : ℕ} (hj : j < 4) :
    randomStream hash randombit pos (4 * k + j) =
      wordByte (hash (packBits randombit (pos + 128 * k))) j := by
  rw [randomStream, show (4 * k + j) / 4 = k by omega, show (4 * k + j) % 4 = j by omega]

/-- One round appends to what is written, up to the end of the buffer. -/
lemma write_round (buf : ℕ → UInt8) (pos k : ℕ) {len : ℕ} (hlen : len ≤ 4) :
    write (write buf 0 (4 * k) (randomStream hash randombit pos)) (4 * k) len
        (wordByte (hash (packBits randombit (pos + 128 * k)))) =
      write buf 0 (4 * k + len) (randomStream hash randombit pos) := by
  rw [← write_write_add, Nat.zero_add]
  refine write_congr fun j hj => ?_
  rw [randomStream_word pos k (by omega)]

/-- With `n` rounds to go after `k` of them, the loop ends and the buffer is written. -/
lemma cryptoLoop_ends (hsize : size.toNat ≤ 2 ^ 32 - 4) (buf : ℕ → UInt8) (pos : ℕ)
    {n k : ℕ} (hn : k + n = (size.toNat + 3) / 4) {i : UInt32} (hi : i.toNat = 4 * k)
    {fuel : ℕ} (hfuel : n < fuel) :
    cryptoLoop hash randombit size fuel i
        (write buf 0 (min (4 * k) size.toNat) (randomStream hash randombit pos)) (pos + 128 * k) =
      some (write buf 0 size.toNat (randomStream hash randombit pos),
        pos + 128 * ((size.toNat + 3) / 4)) := by
  induction n generalizing k i fuel with
  | zero =>
    obtain ⟨fuel, rfl⟩ := Nat.exists_eq_succ_of_ne_zero (Nat.ne_of_gt hfuel)
    have hend : ¬i < size := by
      rw [UInt32.lt_iff_toNat_lt, hi]
      omega
    rw [cryptoLoop, if_neg hend, ← hn, Nat.add_zero, min_eq_right (by omega)]
  | succ n ih =>
    obtain ⟨fuel, rfl⟩ := Nat.exists_eq_succ_of_ne_zero (Nat.ne_of_gt (by omega : 0 < fuel))
    have hlt : 4 * k < size.toNat := by omega
    have hgo : i < size := by rwa [UInt32.lt_iff_toNat_lt, hi]
    have hsub : (size - i).toNat = size.toNat - 4 * k := by
      rw [UInt32.toNat_sub_of_le _ _ (UInt32.le_of_lt hgo), hi]
    have hlen : (if size - i < 4 then (size - i).toNat else 4) =
        min (4 * k + 4) size.toNat - 4 * k := by
      simp only [UInt32.lt_iff_toNat_lt, hsub, UInt32.reduceToNat]
      split_ifs <;> omega
    have hnext : (i + 4).toNat = 4 * (k + 1) := by
      rw [UInt32.toNat_add, hi]
      simp only [UInt32.reduceToNat]
      omega
    rw [cryptoLoop, if_pos hgo]
    simp only [hlen, hwRandom_eq, hi]
    rw [min_eq_left hlt.le, write_round buf pos k (by omega),
      show 4 * k + (min (4 * k + 4) size.toNat - 4 * k) = min (4 * (k + 1)) size.toNat by omega,
      Nat.add_assoc]
    exact ih (by omega) hnext (by omega)

/-- Beyond the last multiple of four the counter starts again at zero, again and again. -/
lemma cryptoLoop_forever (hsize : 2 ^ 32 - 4 < size.toNat) {i : UInt32} (hi : i.toNat % 4 = 0)
    (fuel : ℕ) (buf : ℕ → UInt8) (pos : ℕ) :
    cryptoLoop hash randombit size fuel i buf pos = none := by
  induction fuel generalizing i buf pos with
  | zero => rfl
  | succ fuel ih =>
    have hgo : i < size := by
      rw [UInt32.lt_iff_toNat_lt]
      have := i.toNat_lt
      omega
    have hnext : (i + 4).toNat % 4 = 0 := by
      rw [UInt32.toNat_add]
      simp only [UInt32.reduceToNat]
      omega
    rw [cryptoLoop, if_pos hgo]
    exact ih hnext _ _

/-- More fuel does not change the result. -/
lemma cryptoLoop_mono {fuel : ℕ} {i : UInt32} {buf : ℕ → UInt8} {pos : ℕ}
    {r : (ℕ → UInt8) × ℕ} (h : cryptoLoop hash randombit size fuel i buf pos = some r)
    (more : ℕ) :
    cryptoLoop hash randombit size (fuel + more) i buf pos = some r := by
  induction fuel generalizing i buf pos with
  | zero => contradiction
  | succ fuel ih =>
    rw [Nat.succ_add, cryptoLoop]
    rw [cryptoLoop] at h
    by_cases hgo : i < size
    · rw [if_pos hgo] at h ⊢
      exact ih h
    · rw [if_neg hgo] at h ⊢
      exact h

/-- **Filling a buffer with random bytes.**  `jd_crypto_get_random` ends if and only if the size is
at most the last multiple of four, and then it has written the bytes of the buffer and no others:
byte `m` is one of the hash of the bits that were read for its word. -/
theorem crypto_random_fills (hash : List UInt8 → UInt32) (randombit : ℕ → Bool) (size : UInt32)
    (buf : ℕ → UInt8) (pos : ℕ) :
    ((∃ fuel r, jdCryptoGetRandom hash randombit size fuel buf pos = some r) ↔
      size.toNat ≤ 2 ^ 32 - 4) ∧
    ∀ fuel r, jdCryptoGetRandom hash randombit size fuel buf pos = some r →
      (∀ m < size.toNat, r.1 m = randomStream hash randombit pos m) ∧
      (∀ m, size.toNat ≤ m → r.1 m = buf m) ∧
      r.2 = pos + 128 * ((size.toNat + 3) / 4) := by
  unfold jdCryptoGetRandom
  rcases le_or_gt size.toNat (2 ^ 32 - 4) with hsize | hsize
  · have hends : ∀ {fuel}, (size.toNat + 3) / 4 < fuel →
        cryptoLoop hash randombit size fuel 0 buf pos =
          some (write buf 0 size.toNat (randomStream hash randombit pos),
            pos + 128 * ((size.toNat + 3) / 4)) := by
      intro fuel hfuel
      simpa using cryptoLoop_ends hsize buf pos (k := 0) (Nat.zero_add _) (i := 0) rfl hfuel
    refine ⟨iff_of_true ⟨_, _, hends (Nat.lt_succ_self _)⟩ hsize, fun fuel r h => ?_⟩
    have hr := (cryptoLoop_mono h ((size.toNat + 3) / 4 + 1)).symm.trans
      (hends (by omega))
    obtain rfl := Option.some.inj hr
    refine ⟨fun m hm => ?_, fun m hm => write_of_not_mem (by omega), rfl⟩
    have hmem : 0 ≤ m ∧ m < 0 + size.toNat := by omega
    exact write_of_mem hmem
  · have hnone : ∀ fuel, cryptoLoop hash randombit size fuel 0 buf pos = none :=
      fun fuel => cryptoLoop_forever hsize rfl fuel buf pos
    refine ⟨iff_of_false ?_ (by omega), fun fuel r h => ?_⟩
    · rintro ⟨fuel, r, h⟩
      exact absurd h (by simp [hnone])
    · exact absurd h (by simp [hnone])

end JdPico
