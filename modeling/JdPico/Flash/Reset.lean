import JdPico.Flash.Refinement

/-!
# What a reset leaves

A reset or a loss of power can come between any two calls.  The static variables of `flash.c` start
again from zero, so the page in the buffer is gone; the flash keeps what it has.  The settings
storage, which then reads the flash, can deal with data that is missing but not with data that was
never written.

What is missing is in one page and reads as erased: the buffer differs from the flash only in bytes
that were checked to be erased before they were set.  A byte that was synchronised, or that no call
was about, is there.
-/

namespace JdPico

open Machine ByteStore

/-- The buffer differs from the flash only in bytes of `W` that are erased in the flash. -/
def FlashState.Patched (W : Set ℕ) (s : FlashState) : Prop :=
  s.lastPageAddr ≠ 0 → ∀ i < flashPageSize,
    s.flashPageBuf i = s.flash (s.lastPageAddr + i) ∨
      s.flash (s.lastPageAddr + i) = 0xff ∧ s.lastPageAddr + i ∈ W

variable {W : Set ℕ} {s t : FlashState} {off len n pageAddr : ℕ} {src : ℕ → UInt8}

lemma FlashState.patched_of_idle (h : s.lastPageAddr = 0) : s.Patched W := fun hp => absurd h hp

/-- A page that was just loaded does not differ at all. -/
lemma FlashState.Patched.loadPage (hs : s.Patched W) (pageAddr : ℕ) :
    (flashLoadPage s pageAddr).Patched W := by
  by_cases h : s.lastPageAddr = pageAddr
  · rwa [flashLoadPage_of_eq h]
  · rw [flashLoadPage_of_ne h]
    intro _ i hi
    left
    dsimp only
    rw [write_of_mem ⟨Nat.zero_le i, by omega⟩, Nat.sub_zero]

/-- A piece is set where the flash is erased. -/
lemma FlashState.Patched.programPage (hs : s.Patched W) (hW : ∀ i < n, off + i ∈ W)
    (h : flashProgramPage s off src n = some t) : t.Patched W := by
  obtain ⟨-, -, herased, rfl⟩ := flashProgramPage_eq_some.mp h
  have hload := hs.loadPage (off - off % flashPageSize)
  have haddr := flashLoadPage_lastPageAddr s (off - off % flashPageSize)
  intro hp i hi
  by_cases hin : off % flashPageSize ≤ i ∧ i < off % flashPageSize + n
  · right
    have hle : off % flashPageSize ≤ off := Nat.mod_le _ _
    have hbyte := herased (i - off % flashPageSize) (by omega)
    have hmem := hW (i - off % flashPageSize) (by omega)
    rw [show off + (i - off % flashPageSize) = off - off % flashPageSize + i by omega]
      at hbyte hmem
    rw [patch_lastPageAddr, haddr]
    exact ⟨hbyte, hmem⟩
  · have hkeep : (patch (flashLoadPage s (off - off % flashPageSize)) (off % flashPageSize) n
        src).flashPageBuf i = (flashLoadPage s (off - off % flashPageSize)).flashPageBuf i :=
      write_of_not_mem hin
    rw [hkeep]
    exact hload hp i hi

lemma FlashState.Patched.programLoop (hs : s.Patched W) (hW : ∀ i < len, off + i ∈ W)
    (hend : off + len < 2 ^ 32) (h : flashProgramLoop s off src len = some t) : t.Patched W := by
  induction len using Nat.strong_induction_on generalizing s off src with
  | _ len ih =>
    by_cases hlen : len = 0
    · subst hlen
      rw [flashProgramLoop_zero, Option.some.injEq] at h
      exact h ▸ hs
    · obtain ⟨u, hpage, hrest⟩ := (flashProgramLoop_pos hlen).mp h
      have hpos := flashChunk_pos off hlen
      have hle := (flashChunk_le off len).1
      rw [Nat.mod_eq_of_lt (show off + flashChunk off len < 2 ^ 32 by omega)] at hrest
      refine ih _ (by omega) (hs.programPage (fun i hi => hW i (by omega)) hpage)
        (fun i hi => ?_) (by omega) hrest
      rw [Nat.add_assoc]
      exact hW _ (by omega)

/-- Every call keeps it, if sectors are erased only while nothing is pending. -/
lemma FlashState.Patched.step {op : FlashOp} (hs : s.Patched W) (hidle : EraseIdle s op)
    (hW : ∀ a, op.Touches a → a ∈ W) (h : s.step op = some t) : t.Patched W := by
  cases op with
  | program dst src len =>
    obtain ⟨hend, -, hloop⟩ := flashProgram_eq_some h
    exact hs.programLoop (fun i hi => hW _ ⟨Nat.le_add_right _ _, by omega⟩) (by omega) hloop
  | sync =>
    obtain rfl := Option.some.inj h
    exact patched_of_idle flashSync_lastPageAddr
  | erase pageAddr =>
    obtain ⟨-, -, rfl⟩ := flashErase_eq_some h
    exact patched_of_idle hidle

/-- The flash has what the driver shows, or the byte is erased and in the page in the buffer. -/
lemma FlashState.Patched.flash_eq_view_or (hs : s.Patched W) (a : ℕ) :
    s.flash a = s.view a ∨ s.flash a = 0xff ∧ (s.lastPageAddr ≠ 0 ∧ s.lastPageAddr ≤ a ∧
      a < s.lastPageAddr + flashPageSize) ∧ a ∈ W := by
  by_cases hp : s.lastPageAddr = 0
  · left
    rw [view_of_idle hp]
  · rw [view_of_pending hp]
    by_cases ha : s.lastPageAddr ≤ a ∧ a < s.lastPageAddr + flashPageSize
    · have hbyte := hs hp (a - s.lastPageAddr) (by omega)
      rw [Nat.add_sub_cancel' ha.1] at hbyte
      rw [write_of_mem ha]
      rcases hbyte with heq | ⟨herased, hmem⟩
      · exact .inl heq.symm
      · exact .inr ⟨herased, ⟨hp, ha⟩, hmem⟩
    · exact .inl (write_of_not_mem ha).symm

/-- **What a reset leaves.**  At any point of any run of calls that no assertion stops and in which
sectors are erased only while nothing is pending: every byte of the flash is what the calls have
stored there, or it is erased, lies in the one page that is pending, and is one that a call of the
run was about. -/
theorem flash_after_reset (mem : ℕ → UInt8) (ops : List FlashOp) (s : FlashState)
    (hrun : exec FlashState.step (.initial mem) ops = some s)
    (hidle : AllSteps FlashState.step EraseIdle (.initial mem) ops) (a : ℕ) :
    s.flash a = ops.foldl FlashOp.apply mem a ∨
      s.flash a = 0xff ∧ (s.lastPageAddr ≠ 0 ∧ s.lastPageAddr ≤ a ∧
        a < s.lastPageAddr + flashPageSize) ∧ ∃ op ∈ ops, op.Touches a := by
  obtain ⟨-, hview⟩ := exec_refines_of_allSteps FlashState.step_view
    (FlashState.coherent_initial mem) hidle hrun
  rw [FlashState.view_initial] at hview
  let W : Set ℕ := { a | ∃ op ∈ ops, op.Touches a }
  have htouch : AllSteps FlashState.step (fun _ op => ∀ a, op.Touches a → a ∈ W) (.initial mem)
      ops := .of_forall_mem fun op hop a ha => ⟨op, hop, ha⟩
  have hpatched : s.Patched W :=
    exec_inv_of_allSteps (fun _ _ _ hs hC hst => hs.step hC.1 hC.2 hst)
      (FlashState.patched_of_idle rfl) (hidle.and htouch) hrun
  rw [← hview]
  exact hpatched.flash_eq_view_or a

/-- Eight bytes are programmed and synchronised, and the next eight are not. -/
def unsyncedWrite : List FlashOp :=
  [.program storageBase (fun _ => 7) 8, .sync, .program (storageBase + 8) (fun _ => 5) 8]

/-- After a reset the first are there, and the others are erased. -/
theorem flash_after_reset_unsynced :
    ∃ s, exec FlashState.step (.initial fun _ => 0xff) unsyncedWrite = some s ∧
      s.flash 917504 = 7 ∧
      s.flash 917512 ≠ unsyncedWrite.foldl FlashOp.apply (fun _ => 0xff) 917512 ∧
      s.flash 917512 = 0xff := by
  have hrun : (exec FlashState.step (.initial fun _ => 0xff) unsyncedWrite).map
      (fun s => (s.flash 917504, s.flash 917512)) = some (7, 0xff) := by decide +kernel
  obtain ⟨s, hs, heq⟩ := Option.map_eq_some_iff.mp hrun
  obtain ⟨hfirst, hsecond⟩ := Prod.mk.inj heq
  have hidle : AllSteps FlashState.step EraseIdle (.initial fun _ => 0xff) unsyncedWrite :=
    ⟨trivial, fun _ _ => ⟨trivial, fun _ _ => ⟨trivial, fun _ _ => trivial⟩⟩⟩
  have hstored : s.flash 917512 ≠ unsyncedWrite.foldl FlashOp.apply (fun _ => 0xff) 917512 := by
    rw [hsecond]
    decide +kernel
  exact ⟨s, hs, hfirst, hstored,
    ((flash_after_reset _ _ s hs hidle 917512).resolve_left hstored).1⟩

end JdPico
