import JdPico.Flash.Model

/-!
# The page cache refines a byte store

What the driver means by its state is the store `FlashState.view`: the flash with the buffered page
laid over it.  The invariant `FlashState.Coherent` says that the buffer only clears bits of the page
below it, so that programming it back writes it.  Under this invariant `flash_sync` makes the flash
equal to the view, and `flash_program` moves the view exactly as a plain write of the whole request
does.  `flash_erase` moves the view as a plain erase does as long as nothing is buffered.
-/

namespace JdPico

open ByteStore Machine

/-- The store the driver presents: the flash with the buffered page laid over it. -/
def FlashState.view (s : FlashState) : ℕ → UInt8 :=
  if s.lastPageAddr = 0 then s.flash
  else write s.flash s.lastPageAddr flashPageSize s.flashPageBuf

/-- The buffered page only clears bits of the page of the flash it stands for. -/
def FlashState.Coherent (s : FlashState) : Prop :=
  s.lastPageAddr ≠ 0 →
    ∀ i < flashPageSize, s.flash (s.lastPageAddr + i) &&& s.flashPageBuf i = s.flashPageBuf i

variable {s t : FlashState} {addr off pageAddr dp len n : ℕ} {src : ℕ → UInt8}

lemma FlashState.view_of_idle (h : s.lastPageAddr = 0) : s.view = s.flash :=
  if_pos h

lemma FlashState.view_of_pending (h : s.lastPageAddr ≠ 0) :
    s.view = write s.flash s.lastPageAddr flashPageSize s.flashPageBuf :=
  if_neg h

/-- At start-up nothing is buffered. -/
lemma FlashState.coherent_initial (mem : ℕ → UInt8) : (initial mem).Coherent :=
  fun h => absurd rfl h

@[simp] lemma FlashState.view_initial (mem : ℕ → UInt8) : (initial mem).view = mem :=
  if_pos rfl

/-! ### Sync and page switch -/

lemma flashSync_of_idle (h : s.lastPageAddr = 0) : flashSync s = s :=
  if_neg (not_not.mpr h)

lemma flashSync_of_pending (h : s.lastPageAddr ≠ 0) :
    flashSync s =
      { s with
        flash := norProgram s.flash s.lastPageAddr flashPageSize s.flashPageBuf
        lastPageAddr := 0 } :=
  if_pos h

@[simp] lemma flashSync_lastPageAddr : (flashSync s).lastPageAddr = 0 := by
  by_cases h : s.lastPageAddr = 0
  · rwa [flashSync_of_idle h]
  · rw [flashSync_of_pending h]

/-- A sync programs the bytes of the pending page. -/
lemma flashSync_flash_of_mem {a : ℕ} (h : s.lastPageAddr ≠ 0)
    (ha : s.lastPageAddr ≤ a ∧ a < s.lastPageAddr + flashPageSize) :
    (flashSync s).flash a = s.flash a &&& s.flashPageBuf (a - s.lastPageAddr) := by
  rw [flashSync_of_pending h]
  exact norProgram_of_mem ha

/-- A sync changes no byte outside the pending page. -/
lemma flashSync_flash_of_not_mem {a : ℕ}
    (h : ¬(s.lastPageAddr ≠ 0 ∧ s.lastPageAddr ≤ a ∧ a < s.lastPageAddr + flashPageSize)) :
    (flashSync s).flash a = s.flash a := by
  by_cases hp : s.lastPageAddr = 0
  · rw [flashSync_of_idle hp]
  · rw [flashSync_of_pending hp]
    exact norProgram_of_not_mem fun ha => h ⟨hp, ha⟩

/-- After a sync the flash is the view. -/
lemma flashSync_flash (hs : s.Coherent) : (flashSync s).flash = s.view := by
  by_cases h : s.lastPageAddr = 0
  · rw [flashSync_of_idle h, FlashState.view_of_idle h]
  · rw [flashSync_of_pending h, FlashState.view_of_pending h]
    exact norProgram_eq_write (hs h)

lemma flashLoadPage_of_eq (h : s.lastPageAddr = pageAddr) : flashLoadPage s pageAddr = s :=
  if_neg (not_not.mpr h)

lemma flashLoadPage_of_ne (h : s.lastPageAddr ≠ pageAddr) :
    flashLoadPage s pageAddr =
      { lastPageAddr := pageAddr
        flashPageBuf :=
          write (flashSync s).flashPageBuf 0 flashPageSize fun i =>
            (flashSync s).flash (pageAddr + i)
        flash := (flashSync s).flash } :=
  if_pos h

lemma flashLoadPage_lastPageAddr (s : FlashState) (pageAddr : ℕ) :
    (flashLoadPage s pageAddr).lastPageAddr = pageAddr := by
  by_cases h : s.lastPageAddr = pageAddr
  · rwa [flashLoadPage_of_eq h]
  · rw [flashLoadPage_of_ne h]

/-- Switching to another page keeps the buffer coherent: a freshly loaded page equals the flash. -/
lemma flashLoadPage_coherent (hs : s.Coherent) (pageAddr : ℕ) :
    (flashLoadPage s pageAddr).Coherent := by
  by_cases h : s.lastPageAddr = pageAddr
  · rwa [flashLoadPage_of_eq h]
  · rw [flashLoadPage_of_ne h]
    intro _ i hi
    simp [write_of_mem (show 0 ≤ i ∧ i < 0 + flashPageSize by omega)]

/-- Switching to another page does not change the view. -/
lemma flashLoadPage_view (hs : s.Coherent) (hp : pageAddr ≠ 0) :
    (flashLoadPage s pageAddr).view = s.view := by
  by_cases h : s.lastPageAddr = pageAddr
  · rw [flashLoadPage_of_eq h]
  · rw [flashLoadPage_of_ne h]
    funext a
    rw [FlashState.view_of_pending hp, flashSync_flash hs]
    dsimp only
    by_cases ha : pageAddr ≤ a ∧ a < pageAddr + flashPageSize
    · rw [write_of_mem ha, write_of_mem (by omega)]
      congr 1
      omega
    · rw [write_of_not_mem ha]

/-! ### Programming inside a page -/

/-- The state with `len` source bytes patched into the page buffer at `dp`. -/
def FlashState.patch (s : FlashState) (dp len : ℕ) (src : ℕ → UInt8) : FlashState :=
  { s with flashPageBuf := write s.flashPageBuf dp len src }

@[simp] lemma FlashState.patch_lastPageAddr :
    (s.patch dp len src).lastPageAddr = s.lastPageAddr := rfl

@[simp] lemma FlashState.patch_flash : (s.patch dp len src).flash = s.flash := rfl

@[simp] lemma FlashState.patch_flashPageBuf :
    (s.patch dp len src).flashPageBuf = write s.flashPageBuf dp len src := rfl

/-- The byte loop succeeds exactly when every target byte of the flash is erased, and then patches
the source into the buffer and changes nothing else. -/
lemma flashProgramBytes_eq_some :
    flashProgramBytes pageAddr dp src n s = some t ↔
      (∀ i < n, s.flash (pageAddr + (dp + i)) = 0xff) ∧
        t = s.patch dp n src := by
  induction n generalizing t with
  | zero => simp [flashProgramBytes, FlashState.patch, eq_comm (a := s)]
  | succ n ih =>
    simp only [flashProgramBytes, Option.bind_eq_bind, Option.bind_eq_some_iff, ih,
      jdAssert_eq_some, Option.pure_def, Option.some.injEq]
    constructor
    · rintro ⟨_, ⟨herased, rfl⟩, _, hlast, rfl⟩
      refine ⟨?_, by simp [FlashState.patch, update_write_succ]⟩
      intro i hi
      rcases Nat.lt_succ_iff_lt_or_eq.mp hi with h | rfl
      · exact herased i h
      · exact hlast
    · rintro ⟨herased, rfl⟩
      exact ⟨_, ⟨fun i hi => herased i (by omega), rfl⟩, (), herased n (by omega),
        by simp [FlashState.patch, update_write_succ]⟩

/-- What a successful `flash_program_page` does: the piece is shorter than a page and stays inside
one, its target bytes are erased, and it is patched into the buffer of its page. -/
lemma flashProgramPage_eq_some :
    flashProgramPage s addr src len = some t ↔
      len < flashPageSize ∧
      addr / flashPageSize = (addr + len + 2 ^ 32 - 1) % 2 ^ 32 / flashPageSize ∧
      (∀ i < len, (flashLoadPage s (addr - addr % flashPageSize)).flash (addr + i) = 0xff) ∧
      t = (flashLoadPage s (addr - addr % flashPageSize)).patch (addr % flashPageSize) len src := by
  have hsplit : ∀ i, addr - addr % flashPageSize + (addr % flashPageSize + i) = addr + i := by
    have := Nat.mod_le addr flashPageSize
    omega
  simp only [flashProgramPage, Option.bind_eq_bind, Option.bind_eq_some_iff, jdAssert_eq_some,
    flashProgramBytes_eq_some, hsplit, exists_const]

/-- A write inside the buffered page is a write to the view. -/
lemma flashProgramPage_view (hs : s.Coherent) (hpage : flashPageSize ≤ addr)
    (hend : addr % flashPageSize + len ≤ flashPageSize)
    (h : flashProgramPage s addr src len = some t) :
    t.Coherent ∧ t.view = write s.view addr len src := by
  obtain ⟨-, -, herased, rfl⟩ := flashProgramPage_eq_some.mp h
  have hmod : addr % flashPageSize ≤ addr := Nat.mod_le _ _
  have hlt : addr % flashPageSize < flashPageSize := Nat.mod_lt _ (by decide)
  set pageAddr := addr - addr % flashPageSize with hpageAddr
  have hne : pageAddr ≠ 0 := by omega
  have hco := flashLoadPage_coherent hs pageAddr
  rw [← flashLoadPage_view hs hne]
  have hlast := flashLoadPage_lastPageAddr s pageAddr
  set l := flashLoadPage s pageAddr
  constructor
  · intro hl i hi
    by_cases hi' : addr % flashPageSize ≤ i ∧ i < addr % flashPageSize + len
    · have hff := herased (i - addr % flashPageSize) (by omega)
      rw [show addr + (i - addr % flashPageSize) = l.lastPageAddr + i by omega] at hff
      simp [hff]
    · simpa [write_of_not_mem hi'] using hco hl i hi
  · funext a
    rw [FlashState.view_of_pending (s := l.patch _ _ _) (hlast.trans_ne hne),
      FlashState.view_of_pending (hlast.trans_ne hne)]
    simp only [FlashState.patch_lastPageAddr, FlashState.patch_flash, FlashState.patch_flashPageBuf,
      hlast]
    by_cases ha : addr ≤ a ∧ a < addr + len
    · rw [write_of_mem ha, write_of_mem (by omega), write_of_mem (by omega)]
      congr 1
      omega
    · rw [write_of_not_mem ha]
      by_cases hb : pageAddr ≤ a ∧ a < pageAddr + flashPageSize
      · rw [write_of_mem hb, write_of_mem hb, write_of_not_mem (by omega)]
      · rw [write_of_not_mem hb, write_of_not_mem hb]

/-! ### Splitting a request -/

lemma flashProgramLoop_zero : flashProgramLoop s off src 0 = some s := by
  rw [flashProgramLoop, if_pos rfl]

/-- One round of the splitting loop. -/
lemma flashProgramLoop_pos (hlen : len ≠ 0) :
    flashProgramLoop s off src len = some t ↔
      ∃ u, flashProgramPage s off src (flashChunk off len) = some u ∧
        flashProgramLoop u ((off + flashChunk off len) % 2 ^ 32)
          (fun i => src (flashChunk off len + i)) (len - flashChunk off len) = some t := by
  rw [flashProgramLoop, if_neg hlen]
  exact Option.bind_eq_some_iff

/-- A request that is accepted is shorter than two pages: a piece that fills a whole page fails the
assertion of `flash_program_page`, and the second piece starts a page. -/
lemma flashProgramLoop_len_lt (h : flashProgramLoop s off src len = some t) :
    len < 2 * flashPageSize := by
  by_contra hlong
  have hlen : len ≠ 0 := by
    unfold flashPageSize at hlong
    omega
  obtain ⟨u, hu, h⟩ := (flashProgramLoop_pos hlen).mp h
  obtain ⟨hn, -⟩ := flashProgramPage_eq_some.mp hu
  have hchunk : flashChunk off len = flashPageSize - off % flashPageSize := by
    unfold flashChunk
    split_ifs <;> omega
  have hrest : len - flashChunk off len ≠ 0 := by omega
  obtain ⟨v, hv, -⟩ := (flashProgramLoop_pos hrest).mp h
  obtain ⟨hn', -⟩ := flashProgramPage_eq_some.mp hv
  rw [hchunk] at hn'
  unfold flashChunk flashPageSize at *
  split_ifs at hn' <;> omega

/-- The splitting loop writes the whole request to the view. -/
lemma flashProgramLoop_view (hs : s.Coherent) (hoff : flashPageSize ≤ off)
    (hend : off + len < 2 ^ 32) (h : flashProgramLoop s off src len = some t) :
    t.Coherent ∧ t.view = write s.view off len src := by
  induction len using Nat.strong_induction_on generalizing s off src with
  | _ len ih =>
    by_cases hlen : len = 0
    · subst hlen
      rw [flashProgramLoop_zero, Option.some.injEq] at h
      subst h
      exact ⟨hs, by simp⟩
    · obtain ⟨u, hu, h⟩ := (flashProgramLoop_pos hlen).mp h
      have hpos := flashChunk_pos off hlen
      have hle := flashChunk_le off len
      obtain ⟨huco, huview⟩ := flashProgramPage_view hs hoff hle.2 hu
      rw [Nat.mod_eq_of_lt (by omega)] at h
      obtain ⟨htco, htview⟩ := ih (len - flashChunk off len) (by omega) huco (by omega)
        (by omega) h
      refine ⟨htco, ?_⟩
      rw [htview, huview, write_write_add]
      congr 1
      omega

/-! ### The calls -/

/-- The flash offset of a mapped address. -/
def flashOffset (p : UInt32) : ℕ := p.toNat - xipBase.toNat

/-- The address arithmetic of the driver: a mapped address whose difference is not negative lies in
or above the storage, and the difference is its distance from the start of the storage. -/
lemma storageDiff_spec {p : UInt32} (h : (storageDiff p).toNat < 2 ^ 31) :
    flashOffset p = (storageDiff p).toNat + spiStorageOffset.toNat ∧
      (storageDiff p + spiStorageOffset).toNat = flashOffset p := by
  have hp := p.toNat_lt
  have hoff : spiStorageOffset.toNat = 917504 := by decide
  have hxip : xipBase.toNat = 268435456 := by decide
  unfold flashOffset
  simp only [storageDiff, UInt32.toNat_add, UInt32.toNat_sub, hoff, hxip] at h ⊢
  omega

/-- What an accepted `flash_program` asks for: it lies in the storage and is shorter than
two pages. -/
lemma flashProgram_eq_some {dst len : UInt32} (h : flashProgram s dst src len = some t) :
    flashOffset dst + len.toNat ≤ 2 ^ 20 ∧ spiStorageOffset.toNat ≤ flashOffset dst ∧
      flashProgramLoop s (flashOffset dst) src len.toNat = some t := by
  simp only [flashProgram, Option.bind_eq_bind, Option.bind_eq_some_iff, jdAssert_eq_some,
    exists_const] at h
  obtain ⟨⟨hneg, hbound⟩, -, hloop⟩ := h
  obtain ⟨hoff, hsum⟩ := storageDiff_spec hneg
  rw [hsum] at hloop
  have hlen := flashProgramLoop_len_lt hloop
  have hsize : spiStorageSize.toNat = 131072 := by decide
  have hstart : spiStorageOffset.toNat = 917504 := by decide
  rw [UInt32.le_iff_toNat_le, UInt32.toNat_add, hsize] at hbound
  refine ⟨?_, by omega, hloop⟩
  unfold flashPageSize at hlen
  omega

/-- An accepted `flash_program` writes the request to the view. -/
lemma flashProgram_view (hs : s.Coherent) {dst len : UInt32}
    (h : flashProgram s dst src len = some t) :
    t.Coherent ∧ t.view = write s.view (flashOffset dst) len.toNat src := by
  obtain ⟨hend, hstart, hloop⟩ := flashProgram_eq_some h
  have hoff : spiStorageOffset.toNat = 917504 := by decide
  refine flashProgramLoop_view hs ?_ (by omega) hloop
  unfold flashPageSize
  omega

/-- What an accepted `flash_erase` does: the sector is aligned and lies in the storage. -/
lemma flashErase_eq_some {p : UInt32} (h : flashErase s p = some t) :
    flashOffset p % jdFlashPageSize = 0 ∧ spiStorageOffset.toNat ≤ flashOffset p ∧
      t = { s with flash := fill s.flash (flashOffset p) jdFlashPageSize 0xff } := by
  simp only [flashErase, Option.bind_eq_bind, Option.bind_eq_some_iff, jdAssert_eq_some,
    exists_const, Option.pure_def, Option.some.injEq] at h
  obtain ⟨⟨hneg, -⟩, halign, rfl⟩ := h
  obtain ⟨hoff, hsum⟩ := storageDiff_spec hneg
  have hstart : spiStorageOffset.toNat = 917504 := by decide
  refine ⟨?_, by omega, by rw [hsum]⟩
  unfold jdFlashPageSize at *
  omega

/-- Whether `flash_erase` accepts a sector does not depend on the state. -/
lemma flashErase_of_eq_some {p : UInt32} (h : flashErase s p = some t) (v : FlashState) :
    flashErase v p =
      some { v with flash := fill v.flash (flashOffset p) jdFlashPageSize 0xff } := by
  simp only [flashErase, Option.bind_eq_bind, Option.bind_eq_some_iff, jdAssert_eq_some,
    exists_const, Option.pure_def, Option.some.injEq] at h ⊢
  obtain ⟨hbound, halign, -⟩ := h
  exact ⟨hbound, halign, by rw [(storageDiff_spec hbound.1).2]⟩

/-! ### Runs -/

/-- The reference store: every call takes effect at once, later writes winning. -/
def FlashOp.apply (mem : ℕ → UInt8) : FlashOp → ℕ → UInt8
  | .program dst src len => write mem (flashOffset dst) len.toNat src
  | .sync => mem
  | .erase pageAddr => fill mem (flashOffset pageAddr) jdFlashPageSize 0xff

/-- The flash offsets a call is meant to change. -/
def FlashOp.Touches : FlashOp → ℕ → Prop
  | .program dst _ len, a => flashOffset dst ≤ a ∧ a < flashOffset dst + len.toNat
  | .sync, _ => False
  | .erase pageAddr, a => flashOffset pageAddr ≤ a ∧ a < flashOffset pageAddr + jdFlashPageSize

/-- `flash_erase` is called only when no page is pending. -/
def EraseIdle (s : FlashState) : FlashOp → Prop
  | .erase _ => s.lastPageAddr = 0
  | _ => True

/-- One call moves the view as it moves the reference store. -/
lemma FlashState.step_view (s : FlashState) (op : FlashOp) (t : FlashState) (hs : s.Coherent)
    (hidle : EraseIdle s op) (h : s.step op = some t) :
    t.Coherent ∧ t.view = op.apply s.view := by
  cases op with
  | program dst src len => exact flashProgram_view hs h
  | sync =>
    obtain rfl := Option.some.inj h
    exact ⟨fun hp => absurd flashSync_lastPageAddr hp,
      (view_of_idle flashSync_lastPageAddr).trans (flashSync_flash hs)⟩
  | erase pageAddr =>
    obtain ⟨-, -, ht⟩ := flashErase_eq_some h
    have hidle' : t.lastPageAddr = 0 := by
      rw [ht]
      exact hidle
    refine ⟨fun hp => absurd hidle' hp, ?_⟩
    rw [view_of_idle hidle', view_of_idle hidle, ht, FlashOp.apply]

/-- A byte that no call of a run touches is what it was. -/
lemma FlashOp.foldl_apply_of_not_touches {ops : List FlashOp} {mem : ℕ → UInt8} {a : ℕ}
    (h : ∀ op ∈ ops, ¬op.Touches a) : ops.foldl apply mem a = mem a := by
  induction ops generalizing mem with
  | nil => rfl
  | cons op ops ih =>
    rw [List.foldl_cons, ih fun o ho => h o (List.mem_cons_of_mem _ ho)]
    have hop := h op List.mem_cons_self
    cases op with
    | program dst src len => exact write_of_not_mem hop
    | sync => rfl
    | erase pageAddr => exact fill_of_not_mem hop

/-- **The page cache refines a byte store.**  After any run of calls that no assertion stops and in
which sectors are erased only while nothing is pending, one more `flash_sync` makes the whole flash
equal to the reference store, and leaves alone every byte no call of the run is about. -/
theorem flash_refines_store (mem : ℕ → UInt8) (ops : List FlashOp) (s : FlashState)
    (hrun : exec FlashState.step (.initial mem) ops = some s)
    (hidle : AllSteps FlashState.step EraseIdle (.initial mem) ops) :
    (flashSync s).flash = ops.foldl FlashOp.apply mem ∧
      ∀ a, (∀ op ∈ ops, ¬op.Touches a) → (flashSync s).flash a = mem a := by
  obtain ⟨hco, hview⟩ := exec_refines_of_allSteps FlashState.step_view
    (FlashState.coherent_initial mem) hidle hrun
  rw [FlashState.view_initial] at hview
  have hflash : (flashSync s).flash = ops.foldl FlashOp.apply mem :=
    (flashSync_flash hco).trans hview
  refine ⟨hflash, ?_⟩
  intro a ha
  rw [hflash]
  exact FlashOp.foldl_apply_of_not_touches ha

/-- The start of the storage, as a mapped address. -/
def storageBase : UInt32 := xipBase + spiStorageOffset

/-- A run over two pages with a sector erase in between: the theorem applies to it. -/
theorem flash_refines_store_two_pages :
    ∃ s, exec FlashState.step (.initial fun _ => 0xff)
        [.program (storageBase + 248) (fun i => i.toUInt8) 16, .sync, .erase storageBase,
          .program storageBase (fun _ => 5) 8] = some s ∧
      (flashSync s).flash 917504 = 5 := by
  have hsome : (exec FlashState.step (.initial fun _ => 0xff)
      [.program (storageBase + 248) (fun i => i.toUInt8) 16, .sync, .erase storageBase,
        .program storageBase (fun _ => 5) 8]).isSome = true := by decide +kernel
  obtain ⟨s, hs⟩ := Option.isSome_iff_exists.mp hsome
  refine ⟨s, hs, ?_⟩
  have hidle : AllSteps FlashState.step EraseIdle (.initial fun _ => 0xff)
      [.program (storageBase + 248) (fun i => i.toUInt8) 16, .sync, .erase storageBase,
        .program storageBase (fun _ => 5) 8] := by
    refine ⟨trivial, fun t _ => ⟨trivial, fun u hu =>
      ⟨?_, fun _ _ => ⟨trivial, fun _ _ => trivial⟩⟩⟩⟩
    obtain rfl := Option.some.inj hu
    exact flashSync_lastPageAddr
  rw [(flash_refines_store _ _ s hs hidle).1]
  decide +kernel

end JdPico
