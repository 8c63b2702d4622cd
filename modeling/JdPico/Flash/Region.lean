import JdPico.Flash.Refinement

/-!
# Flash commands stay inside the storage

An assertion stops the firmware, but not what it has done before.  Here the calls are written out
once more with the commands they issue (`Issued`): the results are those of the model, and a call
that is stopped keeps the commands it issued before.

The bounds check of `flash_program` is a sum modulo `2 ^ 32`, so a request far outside the storage
passes it if its length makes the sum wrap.  Such a request is at least two pages long.  Its first
piece is patched into the buffer, as a pending page outside the storage, and its second piece fills
a page, which the first assertion of `flash_program_page` does not allow: the firmware stops before
it programs that page.
-/

namespace JdPico

open ByteStore Machine

/-! ### Commands -/

/-- What the driver does to the flash chip, and the pages it makes pending. -/
inductive FlashCmd where
  /-- `flash_range_program(off, flash_page_buf, count)`. -/
  | rangeProgram (off count : ℕ)
  /-- `flash_range_erase(off, count)`. -/
  | rangeErase (off count : ℕ)
  /-- `last_page_addr = page_addr` in `flash_program_page`. -/
  | pend (pageAddr : ℕ)
  deriving DecidableEq, Repr

/-- A computation that issues commands, the oldest first; the result is `none` if an assertion
stopped it. -/
structure Issued (α : Type) where
  cmds : List FlashCmd
  result : Option α

namespace Issued

variable {α β : Type}

/-- Issue nothing. -/
def lift (r : Option α) : Issued α := ⟨[], r⟩

/-- Issue a command. -/
def issue (c : FlashCmd) : Issued Unit := ⟨[c], some ()⟩

/-- Go on with the result, if there is one. -/
def andThen (m : Issued α) (f : α → Issued β) : Issued β :=
  match m.result with
  | none => ⟨m.cmds, none⟩
  | some a => ⟨m.cmds ++ (f a).cmds, (f a).result⟩

instance : Monad Issued where
  pure a := lift (some a)
  bind := andThen

@[simp] lemma result_lift (r : Option α) : (lift r).result = r := rfl

@[simp] lemma result_pure (a : α) : (pure a : Issued α).result = some a := rfl

@[simp] lemma result_issue (c : FlashCmd) : (issue c).result = some () := rfl

@[simp] lemma result_bind (m : Issued α) (f : α → Issued β) :
    (m >>= f).result = m.result.bind fun a => (f a).result := by
  change (m.andThen f).result = _
  unfold andThen
  cases m.result <;> rfl

/-- The command `c` is issued. -/
def Has (m : Issued α) (c : FlashCmd) : Prop := c ∈ m.cmds

variable {c : FlashCmd}

@[simp] lemma has_lift (r : Option α) : (lift r).Has c ↔ False := by simp [lift, Has]

@[simp] lemma has_pure (a : α) : (pure a : Issued α).Has c ↔ False := has_lift _

@[simp] lemma has_issue (c' : FlashCmd) : (issue c').Has c ↔ c = c' := by simp [issue, Has]

/-- A command is issued by the first part, or by the second if the first has a result. -/
@[simp] lemma has_bind (m : Issued α) (f : α → Issued β) :
    (m >>= f).Has c ↔ m.Has c ∨ ∃ a, m.result = some a ∧ (f a).Has c := by
  change (m.andThen f).Has c ↔ _
  unfold andThen Has
  cases m.result <;> simp

end Issued

/-! ### The calls with their commands -/

/-- `flash_sync`. -/
def flashSyncIssued (s : FlashState) : Issued FlashState :=
  if s.lastPageAddr ≠ 0 then do
    Issued.issue (.rangeProgram s.lastPageAddr flashPageSize)
    return flashSync s
  else return s

/-- The page switch of `flash_program_page`. -/
def flashLoadPageIssued (s : FlashState) (pageAddr : ℕ) : Issued FlashState :=
  if s.lastPageAddr ≠ pageAddr then do
    let _ ← flashSyncIssued s
    Issued.issue (.pend pageAddr)
    return flashLoadPage s pageAddr
  else return s

/-- `flash_program_page`. -/
def flashProgramPageIssued (s : FlashState) (addr : ℕ) (src : ℕ → UInt8) (len : ℕ) :
    Issued FlashState := do
  Issued.lift (jdAssert (len < flashPageSize))
  Issued.lift (jdAssert (addr / flashPageSize = (addr + len + 2 ^ 32 - 1) % 2 ^ 32 / flashPageSize))
  let pageAddr := addr - addr % flashPageSize
  let dp := addr % flashPageSize
  let s ← flashLoadPageIssued s pageAddr
  Issued.lift (flashProgramBytes pageAddr dp src len s)

/-- The loop of `flash_program`. -/
def flashProgramLoopIssued (s : FlashState) (off : ℕ) (src : ℕ → UInt8) (len : ℕ) :
    Issued FlashState :=
  if len = 0 then return s
  else do
    let n := flashChunk off len
    let s ← flashProgramPageIssued s off src n
    flashProgramLoopIssued s ((off + n) % 2 ^ 32) (fun i => src (n + i)) (len - n)
termination_by len
decreasing_by
  have := flashChunk_pos off ‹len ≠ 0›
  omega

/-- `flash_program`. -/
def flashProgramIssued (s : FlashState) (dst : UInt32) (src : ℕ → UInt8) (len : UInt32) :
    Issued FlashState := do
  let diff := storageDiff dst
  Issued.lift (jdAssert (diff.toNat < 2 ^ 31 ∧ diff + len ≤ spiStorageSize))
  Issued.lift (jdAssert (diff.toNat % 8 = 0))
  flashProgramLoopIssued s (diff + spiStorageOffset).toNat src len.toNat

/-- `flash_erase`. -/
def flashEraseIssued (s : FlashState) (pageAddr : UInt32) : Issued FlashState := do
  let diff := storageDiff pageAddr
  Issued.lift (jdAssert (diff.toNat < 2 ^ 31 ∧ diff.toNat ≤ spiStorageSize.toNat - jdFlashPageSize))
  Issued.lift (jdAssert (diff.toNat % jdFlashPageSize = 0))
  Issued.issue (.rangeErase (diff + spiStorageOffset).toNat jdFlashPageSize)
  return { s with flash := fill s.flash (diff + spiStorageOffset).toNat jdFlashPageSize 0xff }

/-- One call. -/
def FlashState.stepIssued (s : FlashState) : FlashOp → Issued FlashState
  | .program dst src len => flashProgramIssued s dst src len
  | .sync => flashSyncIssued s
  | .erase pageAddr => flashEraseIssued s pageAddr

/-- A run of calls, up to the one that an assertion stops. -/
def FlashState.runIssued : FlashState → List FlashOp → Issued FlashState
  | s, [] => return s
  | s, op :: ops => do
    let s ← s.stepIssued op
    s.runIssued ops

/-! ### The results are those of the model -/

variable {s t : FlashState} {off len addr pageAddr : ℕ} {src : ℕ → UInt8} {c : FlashCmd}

@[simp] lemma flashSyncIssued_result : (flashSyncIssued s).result = some (flashSync s) := by
  unfold flashSyncIssued
  split
  · rfl
  · rename_i h
    rw [flashSync_of_idle (not_not.mp h)]
    rfl

@[simp] lemma flashLoadPageIssued_result :
    (flashLoadPageIssued s pageAddr).result = some (flashLoadPage s pageAddr) := by
  unfold flashLoadPageIssued
  split
  · simp
  · rename_i h
    rw [flashLoadPage_of_eq (not_not.mp h)]
    rfl

@[simp] lemma flashProgramPageIssued_result :
    (flashProgramPageIssued s addr src len).result = flashProgramPage s addr src len := by
  simp only [flashProgramPageIssued, flashProgramPage, Issued.result_bind, Issued.result_lift,
    flashLoadPageIssued_result, Option.bind_some, Option.bind_eq_bind]

lemma flashProgramLoopIssued_result :
    (flashProgramLoopIssued s off src len).result = flashProgramLoop s off src len := by
  induction len using Nat.strong_induction_on generalizing s off src with
  | _ len ih =>
    rw [flashProgramLoopIssued, flashProgramLoop]
    by_cases hlen : len = 0
    · rw [if_pos hlen, if_pos hlen, Issued.result_pure]
    · rw [if_neg hlen, if_neg hlen, Issued.result_bind, flashProgramPageIssued_result]
      have hlt : len - flashChunk off len < len := by
        have := flashChunk_pos off hlen
        omega
      exact Option.bind_congr fun u _ => ih _ hlt

/-- One call issues commands and does what the model says. -/
lemma FlashState.stepIssued_result (op : FlashOp) : (s.stepIssued op).result = s.step op := by
  cases op with
  | program dst src len =>
    simp only [FlashState.stepIssued, FlashState.step, flashProgramIssued, flashProgram,
      Issued.result_bind, Issued.result_lift, flashProgramLoopIssued_result, Option.bind_eq_bind]
  | sync => exact flashSyncIssued_result
  | erase pageAddr =>
    simp only [FlashState.stepIssued, FlashState.step, flashEraseIssued, flashErase,
      Issued.result_bind, Issued.result_lift, Issued.result_issue, Issued.result_pure,
      Option.bind_some, Option.bind_eq_bind, Option.pure_def]

lemma FlashState.runIssued_result (ops : List FlashOp) :
    (s.runIssued ops).result = exec FlashState.step s ops := by
  induction ops generalizing s with
  | nil => rfl
  | cons op ops ih =>
    rw [FlashState.runIssued, exec, Issued.result_bind, FlashState.stepIssued_result]
    exact Option.bind_congr fun u _ => ih

/-! ### Every command is proper -/

/-- The range lies in the storage. -/
def InStorage (off count : ℕ) : Prop :=
  spiStorageOffset.toNat ≤ off ∧ off + count ≤ spiStorageOffset.toNat + spiStorageSize.toNat

/-- A page is programmed, or a sector erased, that is aligned and lies in the storage; a pending
page is not the one whose address means that nothing is pending. -/
def FlashCmd.Proper : FlashCmd → Prop
  | .rangeProgram off count => off % flashPageSize = 0 ∧ count = flashPageSize ∧ InStorage off count
  | .rangeErase off count => off % jdFlashPageSize = 0 ∧ count = jdFlashPageSize ∧
    InStorage off count
  | .pend pageAddr => pageAddr ≠ 0

/-- A pending page is an aligned page of the storage. -/
def FlashState.PendingProper (s : FlashState) : Prop :=
  s.lastPageAddr ≠ 0 → s.lastPageAddr % flashPageSize = 0 ∧ InStorage s.lastPageAddr flashPageSize

lemma FlashState.PendingProper.congr (hs : s.PendingProper) (h : t.lastPageAddr = s.lastPageAddr) :
    t.PendingProper := by
  unfold FlashState.PendingProper
  rw [h]
  exact hs

lemma spiStorage_bounds : spiStorageOffset.toNat = 917504 ∧
    spiStorageSize.toNat = 131072 := by decide

lemma flashSyncIssued_proper (hs : s.PendingProper) (h : (flashSyncIssued s).Has c) : c.Proper := by
  unfold flashSyncIssued at h
  split at h
  · rename_i hpend
    simp only [Issued.has_bind, Issued.has_issue, Issued.has_pure, and_false, exists_false,
      or_false] at h
    obtain ⟨halign, hin⟩ := hs hpend
    rw [h]
    exact ⟨halign, rfl, hin⟩
  · simp at h

lemma flashLoadPageIssued_proper (hs : s.PendingProper) (hpage : pageAddr ≠ 0)
    (h : (flashLoadPageIssued s pageAddr).Has c) : c.Proper := by
  unfold flashLoadPageIssued at h
  split at h
  · simp only [Issued.has_bind, Issued.has_issue, Issued.has_pure, and_false, exists_false,
      or_false, flashSyncIssued_result, Option.some.injEq, exists_eq_left'] at h
    rcases h with hsync | rfl
    · exact flashSyncIssued_proper hs hsync
    · exact hpage
  · simp at h

/-- A piece of a request issues proper commands, also if its page is not in the storage. -/
lemma flashProgramPageIssued_proper (hs : s.PendingProper) (haddr : flashPageSize ≤ addr)
    (h : (flashProgramPageIssued s addr src len).Has c) : c.Proper := by
  simp only [flashProgramPageIssued, Issued.has_bind, Issued.has_lift, Issued.result_lift,
    jdAssert_eq_some, exists_const, false_or, and_false, exists_false, or_false] at h
  refine flashLoadPageIssued_proper hs ?_ h.2.2
  have := Nat.mod_lt addr (show 0 < flashPageSize by decide)
  omega

/-- A piece that fills a page issues nothing. -/
lemma flashProgramPageIssued_full (h : (flashProgramPageIssued s addr src flashPageSize).Has c) :
    False := by
  simp only [flashProgramPageIssued, Issued.has_bind, Issued.has_lift, Issued.result_lift,
    jdAssert_eq_some, exists_const, false_or] at h
  exact absurd h.1 (lt_irrefl _)

/-- A piece in the storage leaves a page of the storage pending. -/
lemma flashProgramPage_pendingProper (haddr : InStorage addr 1)
    (h : flashProgramPage s addr src len = some t) :
    t.PendingProper := by
  obtain ⟨-, -, -, rfl⟩ := flashProgramPage_eq_some.mp h
  intro _
  rw [FlashState.patch_lastPageAddr, flashLoadPage_lastPageAddr]
  obtain ⟨hoff, hsize⟩ := spiStorage_bounds
  unfold InStorage at haddr ⊢
  rw [hoff, hsize] at haddr ⊢
  unfold flashPageSize
  omega

/-- A command of the loop is one of the first piece, or one of the rest of the request. -/
lemma flashProgramLoopIssued_has (hlen : len ≠ 0) :
    (flashProgramLoopIssued s off src len).Has c ↔
      (flashProgramPageIssued s off src (flashChunk off len)).Has c ∨
        ∃ u, flashProgramPage s off src (flashChunk off len) = some u ∧
          (flashProgramLoopIssued u ((off + flashChunk off len) % 2 ^ 32)
            (fun i => src (flashChunk off len + i)) (len - flashChunk off len)).Has c := by
  rw [flashProgramLoopIssued, if_neg hlen, Issued.has_bind, flashProgramPageIssued_result]

/-- A request that lies in the storage issues proper commands and leaves a page of the storage
pending. -/
lemma flashProgramLoopIssued_proper (hs : s.PendingProper) (hin : InStorage off len) :
    (∀ c, (flashProgramLoopIssued s off src len).Has c → c.Proper) ∧
      ∀ t, flashProgramLoop s off src len = some t → t.PendingProper := by
  obtain ⟨hstart, hsize⟩ := spiStorage_bounds
  induction len using Nat.strong_induction_on generalizing s off src with
  | _ len ih =>
    by_cases hlen : len = 0
    · subst hlen
      refine ⟨fun c hc => ?_, fun t ht => ?_⟩
      · rw [flashProgramLoopIssued, if_pos rfl] at hc
        simp at hc
      · rw [flashProgramLoop_zero, Option.some.injEq] at ht
        exact ht ▸ hs
    · have hpos := flashChunk_pos off hlen
      have hle := (flashChunk_le off len).1
      obtain ⟨hlow, hhigh⟩ := hin
      rw [hstart, hsize] at hhigh
      rw [hstart] at hlow
      have hmod : (off + flashChunk off len) % 2 ^ 32 = off + flashChunk off len :=
        Nat.mod_eq_of_lt (by omega)
      have hfirst : InStorage off 1 := by
        unfold InStorage
        omega
      have hrest : InStorage (off + flashChunk off len) (len - flashChunk off len) := by
        unfold InStorage
        omega
      refine ⟨fun c hc => ?_, fun t ht => ?_⟩
      · rcases (flashProgramLoopIssued_has hlen).mp hc with hpage | ⟨u, hu, hrec⟩
        · refine flashProgramPageIssued_proper hs ?_ hpage
          unfold flashPageSize
          omega
        · rw [hmod] at hrec
          exact (ih _ (by omega) (flashProgramPage_pendingProper hfirst hu) hrest).1 c hrec
      · obtain ⟨u, hu, hrec⟩ := (flashProgramLoop_pos hlen).mp ht
        rw [hmod] at hrec
        exact (ih _ (by omega) (flashProgramPage_pendingProper hfirst hu) hrest).2 t hrec

/-- A request of two pages or more is stopped at its second piece, before it programs the first. -/
lemma flashProgramLoopIssued_long (hs : s.PendingProper) (hoff : flashPageSize ≤ off)
    (hlong : 2 * flashPageSize ≤ len) (h : (flashProgramLoopIssued s off src len).Has c) :
    c.Proper := by
  have hsize : flashPageSize = 256 := rfl
  have hlen : len ≠ 0 := by omega
  rcases (flashProgramLoopIssued_has hlen).mp h with hpage | ⟨u, -, hrec⟩
  · exact flashProgramPageIssued_proper hs hoff hpage
  · exfalso
    have hmod : off % flashPageSize < flashPageSize := Nat.mod_lt _ (by decide)
    have hchunk : flashChunk off len = flashPageSize - off % flashPageSize := by
      unfold flashChunk
      split_ifs <;> omega
    have hlen' : len - flashChunk off len ≠ 0 := by omega
    have hfull : flashChunk ((off + flashChunk off len) % 2 ^ 32)
      (len - flashChunk off len) = flashPageSize := by
      have haligned : (off + flashChunk off len) % 2 ^ 32 % flashPageSize = 0 := by
        rw [hchunk, hsize]
        omega
      unfold flashChunk at haligned ⊢
      rw [haligned]
      split_ifs at haligned ⊢ <;> omega
    rcases (flashProgramLoopIssued_has hlen').mp hrec with hpage | ⟨v, hv, -⟩
    · rw [hfull] at hpage
      exact flashProgramPageIssued_full hpage
    · rw [hfull] at hv
      exact absurd (flashProgramPage_eq_some.mp hv).1 (lt_irrefl _)

/-- A request that passes the bounds check lies in the storage, or the sum of the check wraps; then
it is two pages long or longer. -/
lemma inStorage_or_long {dst len : UInt32} (hdiff : (storageDiff dst).toNat < 2 ^ 31)
    (hbound : storageDiff dst + len ≤ spiStorageSize) :
    InStorage (flashOffset dst) len.toNat ∨ 2 * flashPageSize ≤ len.toNat := by
  obtain ⟨hoff, -⟩ := storageDiff_spec hdiff
  obtain ⟨hstart, hsize⟩ := spiStorage_bounds
  rw [UInt32.le_iff_toNat_le, UInt32.toNat_add, hsize] at hbound
  unfold InStorage flashPageSize
  omega

/-- `flash_program` issues proper commands. -/
lemma flashProgramIssued_proper (hs : s.PendingProper) {dst len : UInt32}
    (h : (flashProgramIssued s dst src len).Has c) : c.Proper := by
  simp only [flashProgramIssued, Issued.has_bind, Issued.has_lift, Issued.result_lift,
    jdAssert_eq_some, exists_const, false_or] at h
  obtain ⟨⟨hdiff, hbound⟩, -, hloop⟩ := h
  obtain ⟨hoff, hsum⟩ := storageDiff_spec hdiff
  rw [hsum] at hloop
  rcases inStorage_or_long hdiff hbound with hin | hlong
  · exact (flashProgramLoopIssued_proper hs hin).1 c hloop
  · refine flashProgramLoopIssued_long hs ?_ hlong hloop
    rw [hoff, spiStorage_bounds.1]
    unfold flashPageSize
    omega

/-- `flash_erase` issues proper commands. -/
lemma flashEraseIssued_proper {p : UInt32} (h : (flashEraseIssued s p).Has c) : c.Proper := by
  simp only [flashEraseIssued, Issued.has_bind, Issued.has_lift, Issued.result_lift,
    jdAssert_eq_some, exists_const, false_or, Issued.has_issue, Issued.has_pure, and_false,
    or_false] at h
  obtain ⟨⟨hdiff, hbound⟩, halign, rfl⟩ := h
  obtain ⟨hoff, hsum⟩ := storageDiff_spec hdiff
  obtain ⟨hstart, hsize⟩ := spiStorage_bounds
  rw [hsum, hoff, hstart]
  unfold FlashCmd.Proper InStorage
  unfold jdFlashPageSize at *
  rw [hsize] at hbound
  rw [hstart, hsize]
  omega

/-- A call issues proper commands. -/
lemma FlashState.stepIssued_proper (hs : s.PendingProper) {op : FlashOp}
    (h : (s.stepIssued op).Has c) :
    c.Proper := by
  cases op with
  | program dst src len => exact flashProgramIssued_proper hs h
  | sync => exact flashSyncIssued_proper hs h
  | erase pageAddr => exact flashEraseIssued_proper h

/-- A call that returns leaves a page of the storage pending, or none. -/
lemma FlashState.step_pendingProper (hs : s.PendingProper) {op : FlashOp} (h : s.step op = some t) :
    t.PendingProper := by
  cases op with
  | program dst src len =>
    obtain ⟨hend, hstart, hloop⟩ := flashProgram_eq_some h
    obtain ⟨hoff, hsize⟩ := spiStorage_bounds
    refine (flashProgramLoopIssued_proper hs ⟨hstart, ?_⟩).2 t hloop
    rw [hoff, hsize]
    omega
  | sync =>
    obtain rfl : flashSync s = t := Option.some.inj h
    intro hpend
    exact absurd flashSync_lastPageAddr hpend
  | erase pageAddr =>
    obtain ⟨-, -, ht⟩ := flashErase_eq_some h
    exact hs.congr (by rw [ht])

/-- **Flash writes stay inside the storage.**  Whatever calls are made, with any pointers, lengths
and data, every page that is programmed and every sector that is erased is aligned and lies in the
storage, and no pending page has the address zero; commands issued by a call that an assertion
stops count. -/
theorem flash_commands_in_storage (mem : ℕ → UInt8) (ops : List FlashOp) (c : FlashCmd)
    (h : ((FlashState.initial mem).runIssued ops).Has c) : c.Proper := by
  have hs : (FlashState.initial mem).PendingProper := fun hpend => absurd rfl hpend
  generalize FlashState.initial mem = s at hs h
  induction ops generalizing s with
  | nil => simp [FlashState.runIssued] at h
  | cons op ops ih =>
    rw [FlashState.runIssued, Issued.has_bind, FlashState.stepIssued_result] at h
    rcases h with hstep | ⟨t, ht, hrest⟩
    · exact FlashState.stepIssued_proper hs hstep
    · exact ih t (FlashState.step_pendingProper hs ht) hrest

/-- A request two gigabytes above the storage whose length makes the bounds check wrap: it is
stopped, after the page that was pending before it was programmed. -/
theorem flash_commands_in_storage_wrapped :
    let ops : List FlashOp := [.program storageBase (fun _ => 5) 8,
      .program (storageBase + 0x7fff0008) (fun _ => 5) 0x80010000]
    ((FlashState.initial fun _ => 0xff).runIssued ops).result = none ∧
      ((FlashState.initial fun _ => 0xff).runIssued ops).Has (.rangeProgram 917504 256) ∧
      (FlashCmd.rangeProgram 917504 256).Proper := by
  intro ops
  have hhas :
      ((FlashState.initial fun _ => 0xff).runIssued ops).Has (.rangeProgram 917504 256) := by
    unfold Issued.Has
    decide +kernel
  have hnone : ((FlashState.initial fun _ => 0xff).runIssued ops).result.isNone := by decide +kernel
  exact ⟨Option.isNone_iff_eq_none.mp hnone, hhas, flash_commands_in_storage _ ops _ hhas⟩

end JdPico
