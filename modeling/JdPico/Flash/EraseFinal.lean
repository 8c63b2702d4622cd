import JdPico.Flash.Refinement

/-!
# Erasing with a page in the buffer

`flash_erase` neither programs back nor drops the buffered page.  When that page lies in the erased
sector, its bytes come back with the next page switch or `flash_sync`.

The erase is final if the sector then behaves as on a blank device: for every continuation, its
contents are those of the same calls made on a flash that never held anything (`EraseFinal`).  We
show that this holds exactly when the page in the buffer is not a page of the sector or holds only
`0xff` (`erase_final_iff`).  The argument runs the continuation on both devices and keeps them
related by `BlankRel`.
-/

namespace JdPico

open ByteStore Machine

/-- The flash offset `a` lies in the sector at the mapped address `sector`. -/
def InSector (sector : UInt32) (a : ℕ) : Prop :=
  flashOffset sector ≤ a ∧ a < flashOffset sector + jdFlashPageSize

/-- A device whose flash has never been programmed. -/
def FlashState.blank : FlashState := .initial fun _ => 0xff

/-- The erase that ended in the state `t` is final for `sector`: whatever is called next, the sector
holds what the same calls leave in it on a blank device; in particular it is erased after a sync,
and after a program and a sync it holds just the programmed bytes. -/
structure EraseFinal (t : FlashState) (sector : UInt32) : Prop where
  /-- The contents depend on the calls after the erase only. -/
  independent : ∀ ops u, exec FlashState.step t ops = some u →
    ∃ v, exec FlashState.step .blank ops = some v ∧ ∀ a, InSector sector a → u.flash a = v.flash a
  /-- A sync leaves the sector erased. -/
  sync : ∀ a, InSector sector a → (flashSync t).flash a = 0xff
  /-- A program and a sync leave the programmed bytes and nothing else. -/
  program : ∀ dst src len u, flashProgram t dst src len = some u →
    ∀ a, InSector sector a →
      (flashSync u).flash a = write (fun _ => 0xff) (flashOffset dst) len.toNat src a

variable {s t u v : FlashState} {sector : UInt32} {pageAddr off len n : ℕ} {src : ℕ → UInt8}

/-! ### The invariant of every reachable state -/

/-- The buffer is coherent and stands for a whole page. -/
structure FlashState.WellFormed (s : FlashState) : Prop where
  coherent : s.Coherent
  aligned : s.lastPageAddr % flashPageSize = 0

lemma FlashState.wellFormed_initial (mem : ℕ → UInt8) : (initial mem).WellFormed :=
  ⟨coherent_initial mem, rfl⟩

/-- Two states that a piece keeps related stay related over a whole request, and the second accepts
it if the first does. -/
lemma flashProgramLoop_rel {R : FlashState → FlashState → Prop}
    (hpage : ∀ s s' off src len t, flashPageSize ≤ off →
      off % flashPageSize + len ≤ flashPageSize → R s s' →
      flashProgramPage s off src len = some t →
        ∃ t', flashProgramPage s' off src len = some t' ∧ R t t')
    {s' : FlashState} (hR : R s s') (hoff : flashPageSize ≤ off) (hend : off + len < 2 ^ 32)
    (h : flashProgramLoop s off src len = some t) :
    ∃ t', flashProgramLoop s' off src len = some t' ∧ R t t' := by
  induction len using Nat.strong_induction_on generalizing s s' off src with
  | _ len ih =>
    by_cases hlen : len = 0
    · subst hlen
      rw [flashProgramLoop_zero, Option.some.injEq] at h
      exact ⟨s', flashProgramLoop_zero, h ▸ hR⟩
    · obtain ⟨u, hu, h⟩ := (flashProgramLoop_pos hlen).mp h
      have hpos := flashChunk_pos off hlen
      obtain ⟨hle, hfit⟩ := flashChunk_le off len
      obtain ⟨u', hu', hR'⟩ := hpage s s' off src _ u hoff hfit hR hu
      rw [Nat.mod_eq_of_lt (by omega)] at h
      obtain ⟨t', ht', hR''⟩ := ih (len - flashChunk off len) (by omega) hR' (by omega) (by omega) h
      refine ⟨t', (flashProgramLoop_pos hlen).mpr ⟨u', hu', ?_⟩, hR''⟩
      rwa [Nat.mod_eq_of_lt (by omega)]

/-- The same for `flash_program`. -/
lemma flashProgram_rel {R : FlashState → FlashState → Prop}
    (hpage : ∀ s s' off src len t, flashPageSize ≤ off →
      off % flashPageSize + len ≤ flashPageSize → R s s' →
      flashProgramPage s off src len = some t →
        ∃ t', flashProgramPage s' off src len = some t' ∧ R t t')
    {s' : FlashState} {dst len : UInt32} (hR : R s s') (h : flashProgram s dst src len = some t) :
    ∃ t', flashProgram s' dst src len = some t' ∧ R t t' := by
  obtain ⟨hend, hstart, hloop⟩ := flashProgram_eq_some h
  have hoff : spiStorageOffset.toNat = 917504 := by decide
  have hpageSize : flashPageSize = 256 := rfl
  obtain ⟨t', ht', hR'⟩ := flashProgramLoop_rel hpage hR (by omega) (by omega) hloop
  refine ⟨t', ?_, hR'⟩
  simp only [flashProgram, Option.bind_eq_bind, Option.bind_eq_some_iff, jdAssert_eq_some,
    exists_const] at h ⊢
  obtain ⟨hbound, halign, -⟩ := h
  refine ⟨hbound, halign, ?_⟩
  rwa [(storageDiff_spec hbound.1).2]

/-- A piece keeps the state well formed. -/
lemma flashProgramPage_wellFormed (hs : s.WellFormed) (hoff : flashPageSize ≤ off)
    (hfit : off % flashPageSize + len ≤ flashPageSize)
    (h : flashProgramPage s off src len = some t) : t.WellFormed := by
  refine ⟨(flashProgramPage_view hs.coherent hoff hfit h).1, ?_⟩
  obtain ⟨-, -, -, rfl⟩ := flashProgramPage_eq_some.mp h
  rw [FlashState.patch_lastPageAddr, flashLoadPage_lastPageAddr]
  exact Nat.sub_mod_eq_zero_of_mod_eq (Nat.mod_mod _ _).symm

/-- Every call keeps the state well formed. -/
lemma FlashState.step_wellFormed (s : FlashState) (op : FlashOp) (t : FlashState)
    (hs : s.WellFormed) (h : s.step op = some t) : t.WellFormed := by
  cases op with
  | program dst src len =>
    obtain ⟨t', ht', rfl, ht⟩ := flashProgram_rel (R := fun s s' => s = s' ∧ s.WellFormed)
      (fun s s' off src len t hoff hfit hR h =>
        ⟨t, hR.1 ▸ h, rfl, flashProgramPage_wellFormed hR.2 hoff hfit h⟩) ⟨rfl, hs⟩ h
    exact ht
  | sync =>
    obtain rfl := Option.some.inj h
    exact ⟨fun hp => absurd flashSync_lastPageAddr hp, by rw [flashSync_lastPageAddr]; rfl⟩
  | erase pageAddr =>
    obtain ⟨-, -, rfl⟩ := flashErase_eq_some h
    refine ⟨?_, hs.aligned⟩
    intro hp i hi
    -- An erased byte is neutral, so erasing under the buffer keeps it coherent.
    by_cases ha : flashOffset pageAddr ≤ s.lastPageAddr + i ∧
        s.lastPageAddr + i < flashOffset pageAddr + jdFlashPageSize
    · simp only [fill_of_mem ha, erased_and]
    · simpa only [fill_of_not_mem ha] using hs.coherent hp i hi

/-! ### The real and the blank device -/

/-- The mapped address of a sector that `flash_erase` accepts. -/
structure IsSector (sector : UInt32) : Prop where
  aligned : flashOffset sector % jdFlashPageSize = 0
  pos : 0 < flashOffset sector

/-- A page lies in a sector as a whole or not at all. -/
lemma IsSector.inSector_add_iff (hsec : IsSector sector) {p i : ℕ} (hp : p % flashPageSize = 0)
    (hi : i < flashPageSize) : InSector sector (p + i) ↔ InSector sector p := by
  have := hsec.aligned
  unfold InSector flashPageSize jdFlashPageSize at *
  omega

lemma IsSector.ne_zero (hsec : IsSector sector) {p : ℕ} (hp : InSector sector p) : p ≠ 0 := by
  have := hsec.pos
  unfold InSector at hp
  omega

/-- How the buffers of the real device `u` and the blank device `v` are related.  Either the blank
device has no page in its buffer, and a page of the sector in the real one is erased on both; or
both buffer the same page, equal if it is a page of the sector. -/
inductive BufferRel (sector : UInt32) (u v : FlashState) : Prop
  | idle (hv : v.lastPageAddr = 0)
      (hu : InSector sector u.lastPageAddr → ∀ i < flashPageSize,
        u.flashPageBuf i = 0xff ∧ v.flash (u.lastPageAddr + i) = 0xff) : BufferRel sector u v
  | same (hlast : u.lastPageAddr = v.lastPageAddr)
      (herased : ∀ i < flashPageSize, u.flashPageBuf i = 0xff → v.flashPageBuf i = 0xff)
      (hbuf : InSector sector u.lastPageAddr → ∀ i < flashPageSize,
        u.flashPageBuf i = v.flashPageBuf i) : BufferRel sector u v

/-- The real device `u` and the blank device `v` agree on the sector, and the blank one is erased
wherever the real one is, so that it accepts every request the real one accepts. -/
structure BlankRel (sector : UInt32) (u v : FlashState) : Prop where
  wellFormed : u.WellFormed
  agree : ∀ a, InSector sector a → u.flash a = v.flash a
  erased : ∀ a, u.flash a = 0xff → v.flash a = 0xff
  buffer : BufferRel sector u v

/-- The two devices agree on the sector after a sync. -/
lemma BlankRel.sync_agree (hsec : IsSector sector) (h : BlankRel sector u v) (a : ℕ)
    (ha : InSector sector a) : (flashSync u).flash a = (flashSync v).flash a := by
  by_cases hmem : u.lastPageAddr ≠ 0 ∧ u.lastPageAddr ≤ a ∧ a < u.lastPageAddr + flashPageSize
  · obtain ⟨hu, hle, hlt⟩ := hmem
    have hi : a - u.lastPageAddr < flashPageSize := by omega
    have hin : InSector sector u.lastPageAddr := by
      rw [← hsec.inSector_add_iff h.wellFormed.aligned hi, Nat.add_sub_cancel' hle]
      exact ha
    rw [flashSync_flash_of_mem hu ⟨hle, hlt⟩]
    rcases h.buffer with ⟨hv, hpage⟩ | ⟨hlast, -, hbuf⟩
    · rw [flashSync_of_idle hv, (hpage hin _ hi).1, and_erased]
      exact h.agree a ha
    · rw [flashSync_flash_of_mem (hlast ▸ hu) (hlast ▸ ⟨hle, hlt⟩), h.agree a ha, hbuf hin _ hi,
        hlast]
  · rw [flashSync_flash_of_not_mem hmem]
    rcases h.buffer with ⟨hv, -⟩ | ⟨hlast, -, -⟩
    · rw [flashSync_of_idle hv]
      exact h.agree a ha
    · rw [flashSync_flash_of_not_mem (hlast ▸ hmem)]
      exact h.agree a ha

/-- After a sync the blank device is erased wherever the real one is. -/
lemma BlankRel.sync_erased (h : BlankRel sector u v) (a : ℕ)
    (ha : (flashSync u).flash a = 0xff) : (flashSync v).flash a = 0xff := by
  by_cases hmem : u.lastPageAddr ≠ 0 ∧ u.lastPageAddr ≤ a ∧ a < u.lastPageAddr + flashPageSize
  · obtain ⟨hu, hle, hlt⟩ := hmem
    rw [flashSync_flash_of_mem hu ⟨hle, hlt⟩, and_eq_erased] at ha
    rcases h.buffer with ⟨hv, -⟩ | ⟨hlast, herased, -⟩
    · rw [flashSync_of_idle hv]
      exact h.erased a ha.1
    · rw [flashSync_flash_of_mem (hlast ▸ hu) (hlast ▸ ⟨hle, hlt⟩), and_eq_erased]
      exact ⟨h.erased a ha.1, herased _ (by omega) (hlast ▸ ha.2)⟩
  · rw [flashSync_flash_of_not_mem hmem] at ha
    rcases h.buffer with ⟨hv, -⟩ | ⟨hlast, -, -⟩
    · rw [flashSync_of_idle hv]
      exact h.erased a ha
    · rw [flashSync_flash_of_not_mem (hlast ▸ hmem)]
      exact h.erased a ha

/-- A sync keeps the devices related. -/
lemma BlankRel.sync (hsec : IsSector sector) (h : BlankRel sector u v) :
    BlankRel sector (flashSync u) (flashSync v) where
  wellFormed := u.step_wellFormed .sync _ h.wellFormed rfl
  agree := h.sync_agree hsec
  erased := h.sync_erased
  buffer := .idle flashSync_lastPageAddr fun hin =>
    absurd flashSync_lastPageAddr (hsec.ne_zero hin)

/-- A page switch keeps the devices related, and both then buffer the same page. -/
lemma BlankRel.loadPage (hsec : IsSector sector) (h : BlankRel sector u v) (hp : pageAddr ≠ 0) :
    (∀ a, InSector sector a →
      (flashLoadPage u pageAddr).flash a = (flashLoadPage v pageAddr).flash a) ∧
    (∀ a, (flashLoadPage u pageAddr).flash a = 0xff → (flashLoadPage v pageAddr).flash a = 0xff) ∧
    (∀ i < flashPageSize, (flashLoadPage u pageAddr).flashPageBuf i = 0xff →
      (flashLoadPage v pageAddr).flashPageBuf i = 0xff) ∧
    (InSector sector pageAddr → pageAddr % flashPageSize = 0 → ∀ i < flashPageSize,
      (flashLoadPage u pageAddr).flashPageBuf i = (flashLoadPage v pageAddr).flashPageBuf i) := by
  have hzero : ∀ {i : ℕ}, i < flashPageSize → 0 ≤ i ∧ i < 0 + flashPageSize := by omega
  by_cases hu : u.lastPageAddr = pageAddr
  · rw [flashLoadPage_of_eq hu]
    rcases h.buffer with ⟨hv, hpage⟩ | ⟨hlast, herased, hbuf⟩
    · -- only the blank device loads the page
      rw [flashLoadPage_of_ne (hv.trans_ne hp.symm), flashSync_of_idle hv]
      refine ⟨h.agree, h.erased, ?_, ?_⟩
      · intro i hi hff
        have hco := h.wellFormed.coherent (hu.trans_ne hp) i hi
        rw [hff, and_erased, hu] at hco
        dsimp only
        rw [write_of_mem (hzero hi)]
        exact h.erased _ hco
      · intro hin _ i hi
        obtain ⟨hff, hvff⟩ := hpage (hu ▸ hin) i hi
        dsimp only
        rw [write_of_mem (hzero hi), hff, Nat.sub_zero, ← hu, hvff]
    · rw [flashLoadPage_of_eq (hlast ▸ hu)]
      exact ⟨h.agree, h.erased, herased, fun hin _ => hbuf (hu ▸ hin)⟩
  · have hv : v.lastPageAddr ≠ pageAddr := by
      rcases h.buffer with ⟨hv, -⟩ | ⟨hlast, -, -⟩
      · exact hv.trans_ne hp.symm
      · exact hlast ▸ hu
    rw [flashLoadPage_of_ne hu, flashLoadPage_of_ne hv]
    refine ⟨h.sync_agree hsec, h.sync_erased, ?_, ?_⟩
    · intro i hi
      dsimp only
      rw [write_of_mem (hzero hi), write_of_mem (hzero hi)]
      exact h.sync_erased _
    · intro hin halign i hi
      dsimp only
      rw [write_of_mem (hzero hi), write_of_mem (hzero hi)]
      exact h.sync_agree hsec _ ((hsec.inSector_add_iff halign hi).mpr hin)

/-- A piece keeps the devices related: the blank one accepts it and patches the same bytes. -/
lemma BlankRel.programPage (hsec : IsSector sector) (h : BlankRel sector u v)
    (hoff : flashPageSize ≤ off) (hfit : off % flashPageSize + len ≤ flashPageSize)
    (ht : flashProgramPage u off src len = some t) :
    ∃ t', flashProgramPage v off src len = some t' ∧ BlankRel sector t t' := by
  have hwf := flashProgramPage_wellFormed h.wellFormed hoff hfit ht
  obtain ⟨hlen, hone, hff, rfl⟩ := flashProgramPage_eq_some.mp ht
  have hp : off - off % flashPageSize ≠ 0 := by
    have : off % flashPageSize < flashPageSize := Nat.mod_lt _ (by decide)
    omega
  obtain ⟨hagree, herased, hbuf, hsame⟩ := h.loadPage hsec hp
  refine ⟨_, flashProgramPage_eq_some.mpr ⟨hlen, hone, fun i hi => herased _ (hff i hi), rfl⟩,
    hwf, hagree, herased, .same ?_ ?_ ?_⟩
  · simp only [FlashState.patch_lastPageAddr, flashLoadPage_lastPageAddr]
  · intro i hi
    by_cases hi' : off % flashPageSize ≤ i ∧ i < off % flashPageSize + len
    · simp only [FlashState.patch_flashPageBuf, write_of_mem hi']
      exact id
    · simpa only [FlashState.patch_flashPageBuf, write_of_not_mem hi'] using hbuf i hi
  · intro hin i hi
    by_cases hi' : off % flashPageSize ≤ i ∧ i < off % flashPageSize + len
    · simp only [FlashState.patch_flashPageBuf, write_of_mem hi']
    · rw [FlashState.patch_lastPageAddr, flashLoadPage_lastPageAddr] at hin
      simpa only [FlashState.patch_flashPageBuf, write_of_not_mem hi'] using
        hsame hin (Nat.sub_mod_eq_zero_of_mod_eq (Nat.mod_mod _ _).symm) i hi

/-- Erasing any sector keeps the devices related. -/
lemma BlankRel.erase (h : BlankRel sector u v) {p : UInt32} (ht : flashErase u p = some t) :
    ∃ t', flashErase v p = some t' ∧ BlankRel sector t t' := by
  have hwf := u.step_wellFormed (.erase p) t h.wellFormed ht
  obtain ⟨-, -, rfl⟩ := flashErase_eq_some ht
  refine ⟨_, flashErase_of_eq_some ht v, hwf, ?_, ?_, ?_⟩
  · intro a ha
    by_cases hmem : flashOffset p ≤ a ∧ a < flashOffset p + jdFlashPageSize
    · simp only [fill_of_mem hmem]
    · simpa only [fill_of_not_mem hmem] using h.agree a ha
  · intro a ha
    dsimp only at ha ⊢
    rw [fill_eq_erased_iff] at ha ⊢
    exact ha.imp_right (h.erased a)
  · rcases h.buffer with ⟨hv, hpage⟩ | ⟨hlast, herased, hbuf⟩
    · refine .idle hv fun hin i hi => ⟨(hpage hin i hi).1, ?_⟩
      dsimp only
      rw [fill_eq_erased_iff]
      exact .inr (hpage hin i hi).2
    · exact .same hlast herased hbuf

/-- Every call keeps the devices related, and the blank one accepts it. -/
lemma BlankRel.step (hsec : IsSector sector) (u : FlashState) (op : FlashOp) (t v : FlashState)
    (h : BlankRel sector u v) (ht : u.step op = some t) :
    ∃ t', v.step op = some t' ∧ BlankRel sector t t' := by
  cases op with
  | program dst src len =>
    exact flashProgram_rel (fun _ _ _ _ _ _ hoff hfit hR => hR.programPage hsec hoff hfit) h ht
  | sync =>
    obtain rfl := Option.some.inj ht
    exact ⟨_, rfl, h.sync hsec⟩
  | erase p => exact h.erase ht

/-! ### When an erase is final -/

/-- The buffer holds a page of the sector with a byte other than `0xff`. -/
def StalePage (s : FlashState) (sector : UInt32) : Prop :=
  InSector sector s.lastPageAddr ∧ ∃ i < flashPageSize, s.flashPageBuf i ≠ 0xff

/-- After an erase without a stale page in the buffer the device is related to the blank one. -/
lemma blankRel_of_erase (hs : s.WellFormed) (ht : flashErase s sector = some t)
    (hstale : ¬StalePage s sector) : BlankRel sector t .blank := by
  have hwf := s.step_wellFormed (.erase sector) t hs ht
  obtain ⟨-, -, rfl⟩ := flashErase_eq_some ht
  refine ⟨hwf, ?_, fun _ _ => rfl, .idle rfl fun hin i hi => ⟨?_, rfl⟩⟩
  · intro a ha
    dsimp only
    rw [fill_of_mem ha]
    rfl
  · by_contra hne
    exact hstale ⟨hin, i, hi, hne⟩

/-- On the blank device a program and a sync leave the programmed bytes and nothing else. -/
lemma blank_program_sync {dst len : UInt32} (h : flashProgram .blank dst src len = some v) :
    (flashSync v).flash = write (fun _ => 0xff) (flashOffset dst) len.toNat src := by
  obtain ⟨hco, hview⟩ := flashProgram_view (FlashState.coherent_initial _) h
  rw [flashSync_flash hco, hview]
  rfl

/-- A device related to the blank one is one on which the erase was final. -/
lemma BlankRel.eraseFinal (hsec : IsSector sector) (h : BlankRel sector t .blank) :
    EraseFinal t sector where
  independent ops u hu := by
    obtain ⟨v, hv, hrel⟩ := exec_rel (BlankRel.step hsec) h hu
    exact ⟨v, hv, hrel.agree⟩
  sync a ha := (h.sync hsec).agree a ha
  program dst src len u hu a ha := by
    obtain ⟨v, hv, hrel⟩ := BlankRel.step hsec t (.program dst src len) u _ h hu
    rw [(hrel.sync hsec).agree a ha, blank_program_sync hv]

/-- **When an erase is final.**  In every reachable state, `flash_erase` of a sector makes the
sector independent of everything programmed before if and only if the buffer does not hold a page of
that sector with a byte other than `0xff`. -/
theorem erase_final_iff (mem : ℕ → UInt8) (s t : FlashState) (sector : UInt32)
    (hs : Reachable FlashState.step (.initial mem) s) (ht : flashErase s sector = some t) :
    EraseFinal t sector ↔ ¬StalePage s sector := by
  have hwf := hs.inv FlashState.step_wellFormed (FlashState.wellFormed_initial mem)
  obtain ⟨haligned, hstart, htdef⟩ := flashErase_eq_some ht
  have hoff : spiStorageOffset.toNat = 917504 := by decide
  have hsec : IsSector sector := ⟨haligned, by omega⟩
  constructor
  · rintro hfinal ⟨hin, i, hi, hne⟩
    -- The sync that follows programs the stale page over the erased one.
    have hsync := hfinal.sync (s.lastPageAddr + i) ((hsec.inSector_add_iff hwf.aligned hi).mpr hin)
    have hlast : t.lastPageAddr = s.lastPageAddr := by rw [htdef]
    rw [flashSync_flash_of_mem (hlast ▸ hsec.ne_zero hin) (by omega), and_eq_erased, hlast,
      Nat.add_sub_cancel_left, htdef] at hsync
    exact hne hsync.2
  · intro hstale
    exact (blankRel_of_erase hwf ht hstale).eraseFinal hsec

/-- With a page of another sector in the buffer the erase is final. -/
theorem erase_final_iff_other_sector :
    ∃ s t, exec FlashState.step (.initial fun _ => 0)
        [.erase (storageBase + 4096), .program (storageBase + 4096) (fun _ => 7) 8] = some s ∧
      flashErase s storageBase = some t ∧ EraseFinal t storageBase := by
  have hlast : (exec FlashState.step (.initial fun _ => 0)
      [.erase (storageBase + 4096), .program (storageBase + 4096) (fun _ => 7) 8]).map
        FlashState.lastPageAddr = some 921600 := by decide +kernel
  obtain ⟨s, hs, hpage⟩ := Option.map_eq_some_iff.mp hlast
  have herase : (flashErase s storageBase).isSome = true := rfl
  obtain ⟨t, ht⟩ := Option.isSome_iff_exists.mp herase
  refine ⟨s, t, hs, ht, (erase_final_iff _ s t storageBase ⟨_, hs⟩ ht).mpr ?_⟩
  rintro ⟨hin, -⟩
  have hsector : flashOffset storageBase = 917504 := by decide
  unfold InSector jdFlashPageSize at hin
  omega

/-- With eight bytes of the sector's first page in the buffer it is not: the sync after the erase
brings the first of them back. -/
theorem erase_not_final_pending_page :
    ∃ s t, exec FlashState.step (.initial fun _ => 0xff)
        [.program storageBase (fun _ => 7) 8] = some s ∧
      flashErase s storageBase = some t ∧ (flashSync t).flash (flashOffset storageBase) = 7 ∧
      ¬EraseFinal t storageBase := by
  have hrun : ((exec FlashState.step (.initial fun _ => 0xff)
      [.program storageBase (fun _ => 7) 8]).bind fun s => (flashErase s storageBase).map fun t =>
        (flashSync t).flash (flashOffset storageBase)) = some 7 := by decide +kernel
  obtain ⟨s, hs, hrun⟩ := Option.bind_eq_some_iff.mp hrun
  obtain ⟨t, ht, hseven⟩ := Option.map_eq_some_iff.mp hrun
  refine ⟨s, t, hs, ht, hseven, ?_⟩
  intro hfinal
  have herased := hfinal.sync (flashOffset storageBase)
    ⟨le_rfl, Nat.lt_add_of_pos_right (by decide)⟩
  rw [hseven] at herased
  exact absurd herased (by decide)

end JdPico
