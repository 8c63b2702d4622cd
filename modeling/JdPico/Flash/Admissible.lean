import JdPico.Flash.Refinement

/-!
# Requests that are refused

`flash_program` should accept every request that lies in the storage, starts at a multiple of eight
and only covers bytes that are erased, wherever it starts and however long it is.  Its loop cuts the
request at the page boundaries, so that each piece stays inside a page; but `flash_program_page`
asserts that a piece is shorter than a page, and the loop makes a piece of a whole page out of every
page that the request covers.  We show that this is the only reason to refuse such a request: it is
accepted exactly when it covers no whole page (`flash_program_accepts_iff`).
-/

namespace JdPico

open Machine

/-- The byte reads erased in the flash and has no data pending in the buffer. -/
structure FlashState.Fresh (s : FlashState) (a : ℕ) : Prop where
  flash : s.flash a = 0xff
  buffer : s.lastPageAddr ≠ 0 → s.lastPageAddr ≤ a → a < s.lastPageAddr + flashPageSize →
    s.flashPageBuf (a - s.lastPageAddr) = 0xff

/-- The request starts at a multiple of eight of the storage and lies in it, without a wrap of the
sum, and its bytes are erased and have no data pending. -/
structure FlashState.Admissible (s : FlashState) (dst len : UInt32) : Prop where
  aligned : (storageDiff dst).toNat % 8 = 0
  bound : (storageDiff dst).toNat + len.toNat ≤ spiStorageSize.toNat
  fresh : ∀ a, flashOffset dst ≤ a → a < flashOffset dst + len.toNat → s.Fresh a

/-- The request covers a whole page. -/
def CoversPage (off len : ℕ) : Prop :=
  ∃ p, p % flashPageSize = 0 ∧ off ≤ p ∧ p + flashPageSize ≤ off + len

variable {s t : FlashState} {off len n pageAddr a : ℕ} {src : ℕ → UInt8}

/-- An erased byte without pending data stays erased when the page in the buffer is switched. -/
lemma FlashState.Fresh.loadPage (h : s.Fresh a) (pageAddr : ℕ) :
    (flashLoadPage s pageAddr).flash a = 0xff := by
  by_cases hpage : s.lastPageAddr = pageAddr
  · rw [flashLoadPage_of_eq hpage]
    exact h.flash
  · rw [flashLoadPage_of_ne hpage]
    dsimp only
    by_cases ha : s.lastPageAddr ≠ 0 ∧ s.lastPageAddr ≤ a ∧ a < s.lastPageAddr + flashPageSize
    · rw [flashSync_flash_of_mem ha.1 ha.2, h.flash, h.buffer ha.1 ha.2.1 ha.2.2]
      rfl
    · rw [flashSync_flash_of_not_mem ha]
      exact h.flash

/-- A piece of erased bytes inside a page is refused only if it is the whole page. -/
lemma flashProgramPage_isSome_iff (hpos : 0 < n) (hpage : off % flashPageSize + n ≤ flashPageSize)
    (hend : off + n < 2 ^ 32) (hfresh : ∀ i < n, s.Fresh (off + i)) :
    (flashProgramPage s off src n).isSome ↔ n < flashPageSize := by
  rw [Option.isSome_iff_exists]
  constructor
  · rintro ⟨t, ht⟩
    exact (flashProgramPage_eq_some.mp ht).1
  · intro hn
    refine ⟨_, flashProgramPage_eq_some.mpr ⟨hn, ?_, fun i hi => (hfresh i hi).loadPage _, rfl⟩⟩
    unfold flashPageSize at *
    omega

/-- A piece leaves the bytes of the pages after it as they were. -/
lemma FlashState.Fresh.programPage (h : s.Fresh a)
    (hafter : off - off % flashPageSize + flashPageSize ≤ a)
    (ht : flashProgramPage s off src n = some t) : t.Fresh a := by
  obtain ⟨-, -, -, rfl⟩ := flashProgramPage_eq_some.mp ht
  refine ⟨h.loadPage _, ?_⟩
  intro _ _ hin
  rw [patch_lastPageAddr, flashLoadPage_lastPageAddr] at hin
  omega

/-- The first piece of a request is a whole page, or the rest covers the same pages. -/
lemma coversPage_iff :
    CoversPage off len ↔
      flashChunk off len = flashPageSize ∨
        CoversPage (off + flashChunk off len) (len - flashChunk off len) := by
  have hchunk := flashChunk_le off len
  have hdef : flashChunk off len = len ∨
      flashChunk off len = flashPageSize - off % flashPageSize := by
    unfold flashChunk
    split_ifs <;> simp
  unfold CoversPage flashPageSize at *
  constructor
  · rintro ⟨p, halign, hstart, hend⟩
    by_cases hwhole : flashChunk off len = 256
    · exact .inl hwhole
    · exact .inr ⟨p, halign, by omega, by omega⟩
  · rintro (hwhole | ⟨p, halign, hstart, hend⟩)
    · exact ⟨off, by omega, le_rfl, by omega⟩
    · exact ⟨p, halign, by omega, by omega⟩

/-- The loop accepts erased bytes unless it meets a whole page. -/
lemma flashProgramLoop_isSome_iff (hend : off + len < 2 ^ 32)
    (hfresh : ∀ a, off ≤ a → a < off + len → s.Fresh a) :
    (flashProgramLoop s off src len).isSome ↔ ¬CoversPage off len := by
  induction len using Nat.strong_induction_on generalizing s off src with
  | _ len ih =>
    by_cases hlen : len = 0
    · subst hlen
      rw [flashProgramLoop_zero]
      simp only [Option.isSome_some, true_iff]
      rintro ⟨p, -, hstart, hlast⟩
      unfold flashPageSize at hlast
      omega
    · have hpos := flashChunk_pos off hlen
      have hle := flashChunk_le off len
      have hpiece : (flashProgramPage s off src (flashChunk off len)).isSome ↔
          flashChunk off len < flashPageSize :=
        flashProgramPage_isSome_iff hpos hle.2 (by omega)
          (fun i hi => hfresh (off + i) (by omega) (by omega))
      rw [coversPage_iff]
      by_cases hwhole : flashChunk off len = flashPageSize
      · -- the piece is a whole page, and its assertion fails
        have hnone : flashProgramPage s off src (flashChunk off len) = none := by
          rw [← Option.not_isSome_iff_eq_none, hpiece]
          omega
        have hloop : flashProgramLoop s off src len = none := by
          rw [flashProgramLoop, if_neg hlen]
          simp only [hnone, Option.bind_eq_bind, Option.bind_none]
        simp [hloop, hwhole]
      · obtain ⟨t, ht⟩ := Option.isSome_iff_exists.mp (hpiece.mpr (by omega))
        have hsame : flashProgramLoop s off src len =
            flashProgramLoop t (off + flashChunk off len)
              (fun i => src (flashChunk off len + i)) (len - flashChunk off len) := by
          rw [flashProgramLoop, if_neg hlen]
          simp only [ht, Option.bind_eq_bind, Option.bind_some]
          rw [Nat.mod_eq_of_lt (by omega)]
        rw [hsame, ih (len - flashChunk off len) (by omega) (by omega) ?_]
        · simp [hwhole]
        · intro a hstart hlast
          refine (hfresh a (by omega) (by omega)).programPage ?_ ht
          -- what is left after this piece starts the next page
          have : off % flashPageSize + flashChunk off len = flashPageSize := by
            unfold flashChunk at *
            split_ifs at * <;> omega
          have := Nat.mod_le off flashPageSize
          omega

/-- **Admissible requests.**  In every state, `flash_program` accepts an admissible request exactly
when the request covers no whole page. -/
theorem flash_program_accepts_iff (s : FlashState) (dst len : UInt32) (src : ℕ → UInt8)
    (h : s.Admissible dst len) :
    (flashProgram s dst src len).isSome ↔ ¬CoversPage (flashOffset dst) len.toNat := by
  have hbound := h.bound
  have hsize : spiStorageSize.toNat = 131072 := by decide
  have hstart : spiStorageOffset.toNat = 917504 := by decide
  have hneg : (storageDiff dst).toNat < 2 ^ 31 := by omega
  obtain ⟨hoff, hsum⟩ := storageDiff_spec hneg
  have hcheck : storageDiff dst + len ≤ spiStorageSize := by
    rw [UInt32.le_iff_toNat_le, UInt32.toNat_add, Nat.mod_eq_of_lt (by omega)]
    exact hbound
  have hcall : flashProgram s dst src len =
      flashProgramLoop s (flashOffset dst) src len.toNat := by
    simp only [flashProgram, jdAssert, if_pos (And.intro hneg hcheck), if_pos h.aligned, hsum,
      Option.bind_eq_bind, Option.bind_some]
  rw [hcall]
  exact flashProgramLoop_isSome_iff (by omega) h.fresh

/-- In an erased flash every request in the storage that starts at a multiple of eight is
admissible. -/
lemma admissible_erased {dst len : UInt32} (halign : (storageDiff dst).toNat % 8 = 0)
    (hbound : (storageDiff dst).toNat + len.toNat ≤ spiStorageSize.toNat) :
    (FlashState.initial fun _ => 0xff).Admissible dst len :=
  ⟨halign, hbound, fun _ _ _ => ⟨rfl, fun h => absurd rfl h⟩⟩

/-- A request that ends eight bytes before the end of the second page it touches. -/
theorem flash_program_accepts_two_pieces :
    (FlashState.initial fun _ => 0xff).Admissible (storageBase + 8) 496 ∧
      (flashProgram (.initial fun _ => 0xff) (storageBase + 8) (fun i => i.toUInt8)
        496).isSome := by
  have h : (FlashState.initial fun _ => 0xff).Admissible (storageBase + 8) 496 :=
    admissible_erased (by decide) (by decide)
  refine ⟨h, (flash_program_accepts_iff _ _ _ _ h).mpr ?_⟩
  rintro ⟨p, halign, hstart, hend⟩
  have hoff : flashOffset (storageBase + 8) = 917512 := by decide
  have hlen : (496 : UInt32).toNat = 496 := rfl
  unfold flashPageSize at *
  omega

/-- A request for the first page of an erased storage is admissible and is refused. -/
theorem flash_program_refuses_page :
    ∃ s, Reachable FlashState.step (.initial fun _ => 0xff) s ∧ s.Admissible storageBase 256 ∧
      flashProgram s storageBase (fun _ => 5) 256 = none := by
  refine ⟨_, .refl, admissible_erased (by decide) (by decide), ?_⟩
  rw [← Option.isNone_iff_eq_none]
  decide +kernel

end JdPico
