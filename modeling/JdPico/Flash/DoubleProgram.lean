import JdPico.Flash.Refinement

/-!
# Programming a byte twice

`flash_program_page` asserts that the bytes it is about to set are erased, and looks at the flash
for that.  The newest data may still be in the page buffer, so a byte that was set there and is set
again is not noticed as long as its page stays in the buffer.  Only the first piece of a request can
meet the buffered page: for every other piece the page was switched before, which programs the
buffer back.

If no request sets a byte again that is only in the buffer (`NotBuffered`), what the driver accepts
depends on the store it presents alone, and `flash_sync` does not change that store.  So it makes no
difference where the `flash_sync` calls of a run stand.
-/

namespace JdPico

open ByteStore Machine

variable {s t : FlashState} {off len : ℕ} {src : ℕ → UInt8}

/-! ### What is accepted -/

/-- The page of a flash offset. -/
def flashPageOf (off : ℕ) : ℕ := off - off % flashPageSize

/-- No byte of the first piece of the request is only in the buffer. -/
def FirstPieceFresh (s : FlashState) (off len : ℕ) : Prop :=
  s.lastPageAddr ≠ 0 → s.lastPageAddr = flashPageOf off →
    ∀ a, off ≤ a → a < off + len → a < s.lastPageAddr + flashPageSize → s.flash a = 0xff →
      s.flashPageBuf (a - s.lastPageAddr) = 0xff

/-- A byte that reads erased in the view is erased in the flash. -/
lemma FlashState.Coherent.flash_eq_erased (hs : s.Coherent) {a : ℕ} (h : s.view a = 0xff) :
    s.flash a = 0xff := by
  by_cases hidle : s.lastPageAddr = 0
  · rwa [view_of_idle hidle] at h
  · rw [view_of_pending hidle] at h
    by_cases ha : s.lastPageAddr ≤ a ∧ a < s.lastPageAddr + flashPageSize
    · rw [write_of_mem ha] at h
      have hand := hs hidle (a - s.lastPageAddr) (by omega)
      rw [Nat.add_sub_cancel' ha.1, h, and_erased] at hand
      exact hand
    · rwa [write_of_not_mem ha] at h

/-- The flash that the check of a piece looks at: that of the state if the page is in the buffer,
the view otherwise. -/
lemma flashLoadPage_flash (hs : s.Coherent) (pageAddr : ℕ) :
    (flashLoadPage s pageAddr).flash = if s.lastPageAddr = pageAddr then s.flash else s.view := by
  by_cases h : s.lastPageAddr = pageAddr
  · rw [flashLoadPage_of_eq h, if_pos h]
  · rw [flashLoadPage_of_ne h, if_neg h, flashSync_flash hs]

/-- A piece that is accepted sets bytes that read erased. -/
lemma flashProgramPage_erased (hs : s.Coherent) (hoff : flashPageSize ≤ off) {n : ℕ}
    (hend : off % flashPageSize + n ≤ flashPageSize) (hn : n ≤ len)
    (hfresh : FirstPieceFresh s off len)
    (h : flashProgramPage s off src n = some t) {a : ℕ} (hlow : off ≤ a) (hhigh : a < off + n) :
    s.view a = 0xff := by
  have hmod : off % flashPageSize < flashPageSize := Nat.mod_lt _ (by decide)
  obtain ⟨-, -, herased, -⟩ := flashProgramPage_eq_some.mp h
  have ha := herased (a - off) (by omega)
  rw [Nat.add_sub_cancel' hlow, flashLoadPage_flash hs] at ha
  by_cases hpage : s.lastPageAddr = off - off % flashPageSize
  · rw [if_pos hpage] at ha
    have hpend : s.lastPageAddr ≠ 0 := by omega
    rw [FlashState.view_of_pending hpend, write_of_mem (by omega)]
    exact hfresh hpend hpage a hlow (by omega) (by omega) ha
  · rwa [if_neg hpage] at ha

/-- A piece is accepted by every state in which its bytes read erased, if it is accepted by one. -/
lemma flashProgramPage_isSome {u : FlashState} (hs : s.Coherent) {n : ℕ}
    (herased : ∀ i < n, s.view (off + i) = 0xff) (h : flashProgramPage u off src n = some t) :
    ∃ t', flashProgramPage s off src n = some t' := by
  obtain ⟨hn, hpage, -, -⟩ := flashProgramPage_eq_some.mp h
  refine ⟨_, flashProgramPage_eq_some.mpr ⟨hn, hpage, fun i hi => ?_, rfl⟩⟩
  rw [flashLoadPage_flash hs]
  split
  · exact hs.flash_eq_erased (herased i hi)
  · exact herased i hi

/-- After a piece the rest of the request starts in another page. -/
lemma firstPieceFresh_rest {n : ℕ}
    (hrest : n < len → off % flashPageSize + n = flashPageSize)
    (h : flashProgramPage s off src n = some t) :
    FirstPieceFresh t (off + n) (len - n) := by
  obtain ⟨-, -, -, rfl⟩ := flashProgramPage_eq_some.mp h
  intro _ hpage a hlow hhigh _ _
  exfalso
  have hmod : off % flashPageSize < flashPageSize := Nat.mod_lt _ (by decide)
  have hfull := hrest (by omega)
  rw [FlashState.patch_lastPageAddr, flashLoadPage_lastPageAddr, flashPageOf] at hpage
  have hnext : (off + n) % flashPageSize = 0 := by
    unfold flashPageSize at *
    omega
  omega

lemma flashChunk_rest (off : ℕ) {len : ℕ} (h : flashChunk off len < len) :
    off % flashPageSize + flashChunk off len = flashPageSize := by
  have : off % flashPageSize < flashPageSize := Nat.mod_lt _ (by decide)
  unfold flashChunk at h ⊢
  split_ifs at h ⊢ <;> omega

/-- A request that is accepted sets bytes that read erased, if none of its first piece is only in
the buffer. -/
lemma flashProgramLoop_erased (hs : s.Coherent) (hoff : flashPageSize ≤ off)
    (hend : off + len < 2 ^ 32)
    (hfresh : FirstPieceFresh s off len) (h : flashProgramLoop s off src len = some t) {a : ℕ}
    (hlow : off ≤ a) (hhigh : a < off + len) : s.view a = 0xff := by
  induction len using Nat.strong_induction_on generalizing s off src with
  | _ len ih =>
    have hlen : len ≠ 0 := by omega
    obtain ⟨u, hu, h⟩ := (flashProgramLoop_pos hlen).mp h
    have hpos := flashChunk_pos off hlen
    have hle := flashChunk_le off len
    by_cases hfirst : a < off + flashChunk off len
    · exact flashProgramPage_erased hs hoff hle.2 hle.1 hfresh hu hlow hfirst
    · obtain ⟨huco, huview⟩ := flashProgramPage_view hs hoff hle.2 hu
      rw [Nat.mod_eq_of_lt (by omega)] at h
      have hrest := firstPieceFresh_rest (fun hlt => flashChunk_rest off hlt) hu
      have ha := ih (len - flashChunk off len) (by omega) huco (by omega) (by omega) hrest h
        (by omega)
        (by omega)
      rwa [huview, write_of_not_mem (by omega)] at ha

/-- A request is accepted by every state in which its bytes read erased, if it is accepted
by one. -/
lemma flashProgramLoop_isSome {u : FlashState} (hs : s.Coherent) (hoff : flashPageSize ≤ off)
    (hend : off + len < 2 ^ 32) (herased : ∀ a, off ≤ a → a < off + len → s.view a = 0xff)
    (h : flashProgramLoop u off src len = some t) :
    ∃ t', flashProgramLoop s off src len = some t' := by
  induction len using Nat.strong_induction_on generalizing s u off src with
  | _ len ih =>
    by_cases hlen : len = 0
    · subst hlen
      exact ⟨s, flashProgramLoop_zero⟩
    · obtain ⟨v, hv, h⟩ := (flashProgramLoop_pos hlen).mp h
      have hpos := flashChunk_pos off hlen
      have hle := flashChunk_le off len
      obtain ⟨w, hw⟩ := flashProgramPage_isSome hs
        (fun i hi => herased (off + i) (by omega) (by omega)) hv
      obtain ⟨hwco, hwview⟩ := flashProgramPage_view hs hoff hle.2 hw
      rw [Nat.mod_eq_of_lt (by omega)] at h
      obtain ⟨t', ht'⟩ := ih (len - flashChunk off len) (by omega) hwco (by omega) (by omega)
        (fun a hlow hhigh => by
          rw [hwview, write_of_not_mem (by omega)]
          exact herased a (by omega) (by omega))
        h
      refine ⟨t', (flashProgramLoop_pos hlen).mpr ⟨w, hw, ?_⟩⟩
      rwa [Nat.mod_eq_of_lt (by omega)]

/-- The checks of `flash_program` do not depend on the state. -/
lemma flashProgram_of_loop {u : FlashState} {dst len : UInt32}
    (h : flashProgram u dst src len = some t)
    {t' : FlashState} (hloop : flashProgramLoop s (flashOffset dst) src len.toNat = some t') :
    flashProgram s dst src len = some t' := by
  simp only [flashProgram, Option.bind_eq_bind, Option.bind_eq_some_iff, jdAssert_eq_some,
    exists_const] at h ⊢
  obtain ⟨hbound, halign, -⟩ := h
  exact ⟨hbound, halign, by rwa [(storageDiff_spec hbound.1).2]⟩

/-! ### The calls -/

/-- The call sets no byte again that is only in the buffer. -/
def NotBuffered (s : FlashState) : FlashOp → Prop
  | .program dst _ len => FirstPieceFresh s (flashOffset dst) len.toNat
  | _ => True

/-- The call is a `flash_program`. -/
def FlashOp.isProgram : FlashOp → Bool
  | .program .. => true
  | _ => false

/-- The call is a `flash_erase`. -/
def FlashOp.isErase : FlashOp → Bool
  | .erase _ => true
  | _ => false

/-- The call sets a byte to a value that is not the erased one. -/
def FlashOp.Burns : FlashOp → ℕ → Prop
  | .program dst src len, a =>
    (flashOffset dst ≤ a ∧ a < flashOffset dst + len.toNat) ∧ src (a - flashOffset dst) ≠ 0xff
  | _, _ => False

/-- The call sets a byte that an earlier one has set to a value that is not the erased one. -/
def FlashOp.Rewrites (op : FlashOp) (earlier : List FlashOp) : Prop :=
  op.isProgram = true ∧ ∃ a, op.Touches a ∧ ∃ op' ∈ earlier, op'.Burns a

/-- A `flash_program` that is accepted sets bytes that read erased. -/
lemma flashProgram_erased (hs : s.Coherent) {dst len : UInt32}
    (hC : NotBuffered s (.program dst src len))
    (h : flashProgram s dst src len = some t) {a : ℕ} (hlow : flashOffset dst ≤ a)
    (hhigh : a < flashOffset dst + len.toNat) : s.view a = 0xff := by
  obtain ⟨hend, hstart, hloop⟩ := flashProgram_eq_some h
  have hoff : spiStorageOffset.toNat = 917504 := by decide
  refine flashProgramLoop_erased hs ?_ (by omega) hC hloop hlow hhigh
  unfold flashPageSize
  omega

/-- What is accepted depends on the view only. -/
lemma flashProgram_transfer {u : FlashState} (hs : s.Coherent) (hu : u.Coherent)
    (hview : u.view = s.view) {dst len : UInt32} (hC : NotBuffered s (.program dst src len))
    (h : flashProgram s dst src len = some t) :
    ∃ t', flashProgram u dst src len = some t' ∧ t'.view = t.view := by
  obtain ⟨hend, hstart, hloop⟩ := flashProgram_eq_some h
  have hoff : spiStorageOffset.toNat = 917504 := by decide
  have hpage : flashPageSize ≤ flashOffset dst := by
    unfold flashPageSize
    omega
  obtain ⟨t', ht'⟩ := flashProgramLoop_isSome hu hpage (by omega)
    (fun a hlow hhigh => by rw [hview]; exact flashProgram_erased hs hC h hlow hhigh) hloop
  have hprog := flashProgram_of_loop h ht'
  refine ⟨t', hprog, ?_⟩
  rw [(flashProgram_view hu hprog).2, (flashProgram_view hs h).2, hview]

/-- A driver with nothing in its buffer meets the condition. -/
lemma notBuffered_initial (mem : ℕ → UInt8) (op : FlashOp) : NotBuffered (.initial mem) op := by
  cases op with
  | program dst src len => exact fun hpend => absurd rfl hpend
  | sync => trivial
  | erase p => trivial

/-- A byte that was set stays set, as long as the condition is met. -/
lemma FlashState.step_view_ne_erased (hs : s.Coherent) {op : FlashOp} (hop : op.isErase = false)
    (hC : NotBuffered s op) (h : s.step op = some t) {a : ℕ} (ha : s.view a ≠ 0xff) :
    t.view a ≠ 0xff := by
  cases op with
  | program dst src len =>
    rw [(flashProgram_view hs h).2, write_of_not_mem fun hmem =>
      ha (flashProgram_erased hs hC h hmem.1 hmem.2)]
    exact ha
  | sync =>
    obtain rfl : flashSync s = t := Option.some.inj h
    rwa [view_of_idle flashSync_lastPageAddr, flashSync_flash hs]
  | erase p => simp [FlashOp.isErase] at hop

/-- A call leaves the byte set that it sets. -/
lemma FlashState.step_burns (hs : s.Coherent) {op : FlashOp} (h : s.step op = some t) {a : ℕ}
    (ha : op.Burns a) : t.view a ≠ 0xff := by
  cases op with
  | program dst src len =>
    rw [(flashProgram_view hs h).2, write_of_mem ha.1]
    exact ha.2
  | sync => exact ha.elim
  | erase p => exact ha.elim

lemma FlashOp.eraseIdle {op : FlashOp} (hop : op.isErase = false) (s : FlashState) :
    EraseIdle s op := by
  cases op with
  | program dst src len => trivial
  | sync => trivial
  | erase p => simp [FlashOp.isErase] at hop

/-! ### Runs -/

/-- How a run ends: the number of `flash_program` calls that returned, and the contents of the flash
after one more `flash_sync`, if no call was stopped by an assertion. -/
def flashOutcome : FlashState → List FlashOp → ℕ × Option (ℕ → UInt8)
  | s, [] => (0, some (flashSync s).flash)
  | s, op :: ops =>
    match s.step op with
    | none => (0, none)
    | some t => ((flashOutcome t ops).1 + (if op.isProgram then 1 else 0), (flashOutcome t ops).2)

/-- How a run ends if every call finds the buffer empty. -/
def storeOutcome : (ℕ → UInt8) → List FlashOp → ℕ × Option (ℕ → UInt8)
  | mem, [] => (0, some mem)
  | mem, op :: ops =>
    match (FlashState.initial mem).step op with
    | none => (0, none)
    | some t => ((storeOutcome t.view ops).1 + (if op.isProgram then 1 else 0),
      (storeOutcome t.view ops).2)

/-- A call does the same to the view of the driver and to a driver with an empty buffer whose flash
is that view. -/
lemma FlashState.step_initial_view (hs : s.Coherent) {op : FlashOp} (hop : op.isErase = false)
    (hC : NotBuffered s op) :
    (s.step op).map FlashState.view =
      ((FlashState.initial s.view).step op).map FlashState.view := by
  have hinit := FlashState.coherent_initial s.view
  cases op with
  | program dst src len =>
    change (flashProgram s dst src len).map _ = (flashProgram (.initial s.view) dst src len).map _
    cases h : flashProgram s dst src len with
    | some t =>
      obtain ⟨t', ht', hview⟩ := flashProgram_transfer hs hinit (view_initial _) hC h
      simp [ht', hview]
    | none =>
      cases h' : flashProgram (.initial s.view) dst src len with
      | none => rfl
      | some t' =>
        obtain ⟨t, ht, -⟩ := flashProgram_transfer hinit hs (view_initial _).symm
          (notBuffered_initial _ (.program dst src len)) h'
        simp [h] at ht
  | sync =>
    change some (flashSync s).view = some (flashSync (.initial s.view)).view
    rw [view_of_idle flashSync_lastPageAddr, view_of_idle flashSync_lastPageAddr,
      flashSync_flash hs, flashSync_flash hinit, view_initial]
  | erase p => simp [FlashOp.isErase] at hop

/-- A run that meets the condition ends as if every call found the buffer empty. -/
lemma flashOutcome_eq {ops : List FlashOp} (hs : s.Coherent) (hops : ∀ op ∈ ops, op.isErase = false)
    (hC : AllSteps FlashState.step NotBuffered s ops) :
    flashOutcome s ops = storeOutcome s.view ops := by
  induction ops generalizing s with
  | nil => simp [flashOutcome, storeOutcome, flashSync_flash hs]
  | cons op ops ih =>
    have hop := hops op List.mem_cons_self
    have hstep := FlashState.step_initial_view hs hop hC.1
    rw [flashOutcome, storeOutcome]
    cases h : s.step op with
    | none =>
      rw [h, Option.map_none, eq_comm, Option.map_eq_none_iff] at hstep
      rw [hstep]
    | some t =>
      rw [h, Option.map_some, eq_comm, Option.map_eq_some_iff] at hstep
      obtain ⟨t', ht', hview⟩ := hstep
      have hco := (FlashState.step_view s op t hs (FlashOp.eraseIdle hop s) h).1
      have hrest := ih hco (fun o ho => hops o (List.mem_cons_of_mem _ ho)) (hC.2 t h)
      simp only [ht', hview, hrest]

/-- With an empty buffer, only the `flash_program` calls matter. -/
lemma storeOutcome_filter {ops : List FlashOp} (hops : ∀ op ∈ ops, op.isErase = false)
    (mem : ℕ → UInt8) :
    storeOutcome mem ops = storeOutcome mem (ops.filter FlashOp.isProgram) := by
  induction ops generalizing mem with
  | nil => rfl
  | cons op ops ih =>
    have hrest := ih fun o ho => hops o (List.mem_cons_of_mem _ ho)
    cases op with
    | program dst src len =>
      rw [List.filter_cons_of_pos rfl, storeOutcome, storeOutcome]
      cases (FlashState.initial mem).step (.program dst src len) with
      | none => rfl
      | some t => simp only [hrest]
    | sync =>
      rw [List.filter_cons_of_neg (by simp [FlashOp.isProgram]), ← hrest, storeOutcome]
      have hsync : (FlashState.initial mem).step .sync = some (.initial mem) := rfl
      simp [hsync, FlashOp.isProgram]
    | erase p => simpa [FlashOp.isErase] using hops _ List.mem_cons_self

/-- A byte set by an earlier call of a run is set. -/
lemma view_ne_erased_of_burns {ops : List FlashOp} (hs : s.Coherent)
    (hops : ∀ op ∈ ops, op.isErase = false) (hC : AllSteps FlashState.step NotBuffered s ops)
    (hrun : exec FlashState.step s ops = some t) {a : ℕ}
    (ha : s.view a ≠ 0xff ∨ ∃ op ∈ ops, op.Burns a) : t.Coherent ∧ t.view a ≠ 0xff := by
  induction ops generalizing s with
  | nil =>
    rw [exec_nil, Option.some.injEq] at hrun
    subst hrun
    exact ⟨hs, ha.resolve_right (by simp)⟩
  | cons op ops ih =>
    have hop := hops op List.mem_cons_self
    obtain ⟨u, hst, hut⟩ := exec_cons.mp hrun
    have hco := (FlashState.step_view s op u hs (FlashOp.eraseIdle hop s) hst).1
    refine ih hco (fun o ho => hops o (List.mem_cons_of_mem _ ho)) (hC.2 u hst) hut ?_
    rcases ha with hset | ⟨op', hmem, hburn⟩
    · exact .inl (FlashState.step_view_ne_erased hs hop hC.1 hst hset)
    · rcases List.mem_cons.mp hmem with rfl | hmem
      · exact .inl (FlashState.step_burns hs hst hburn)
      · exact .inr ⟨op', hmem, hburn⟩

/-- **Double programming is caught.**  In every run of `flash_program` and `flash_sync` calls that
sets no byte again that is only in the buffer, a call that sets a byte again is stopped, and two
such runs with the same `flash_program` calls end in the same way, wherever their `flash_sync`
calls stand. -/
theorem double_program_caught (mem : ℕ → UInt8) {ops₁ ops₂ : List FlashOp}
    (hops₁ : ∀ op ∈ ops₁, op.isErase = false) (hops₂ : ∀ op ∈ ops₂, op.isErase = false)
    (hC₁ : AllSteps FlashState.step NotBuffered (.initial mem) ops₁)
    (hC₂ : AllSteps FlashState.step NotBuffered (.initial mem) ops₂) :
    (∀ earlier later op s, ops₁ = earlier ++ op :: later →
      exec FlashState.step (.initial mem) earlier = some s → op.Rewrites earlier →
        s.step op = none) ∧
    (ops₁.filter FlashOp.isProgram = ops₂.filter FlashOp.isProgram →
      flashOutcome (.initial mem) ops₁ = flashOutcome (.initial mem) ops₂) := by
  have hinit := FlashState.coherent_initial mem
  constructor
  · rintro earlier later op s rfl hrun ⟨hprog, a, htouch, hburn⟩
    obtain ⟨hfirst, hrest⟩ := hC₁.of_append hrun
    obtain ⟨hco, hset⟩ := view_ne_erased_of_burns hinit
      (fun o ho => hops₁ o (List.mem_append_left _ ho)) hfirst hrun (.inr hburn)
    cases op with
    | program dst src len =>
      by_contra hsome
      obtain ⟨t, ht⟩ := Option.ne_none_iff_exists'.mp hsome
      exact hset (flashProgram_erased hco hrest.1 ht htouch.1 htouch.2)
    | sync => simp [FlashOp.isProgram] at hprog
    | erase p => simp [FlashOp.isProgram] at hprog
  · intro hsame
    rw [flashOutcome_eq hinit hops₁ hC₁, flashOutcome_eq hinit hops₂ hC₂, storeOutcome_filter hops₁,
      storeOutcome_filter hops₂, hsame]

/-- Set the first eight bytes of the storage. -/
def writeStart (b : UInt8) : FlashOp := .program storageBase (fun _ => b) 8

lemma writeStart_rewrites (b : UInt8) (rest : List FlashOp) :
    (writeStart b).Rewrites (writeStart 5 :: rest) := by
  refine ⟨rfl, flashOffset storageBase, ⟨le_rfl, by decide⟩, writeStart 5, List.mem_cons_self,
    ⟨le_rfl, ?_⟩, ?_⟩
  · decide
  · decide

/-- After a `flash_sync` the condition is met, and the second call is stopped, with one more
`flash_sync` or without. -/
theorem double_program_caught_after_sync :
    (∃ s, exec FlashState.step (.initial fun _ => 0xff) [writeStart 5, .sync] = some s ∧
      s.step (writeStart 7) = none) ∧
    flashOutcome (.initial fun _ => 0xff) [writeStart 5, .sync, writeStart 7] =
      flashOutcome (.initial fun _ => 0xff) [writeStart 5, .sync, .sync, writeStart 7] := by
  have hsync : ∀ s : FlashState, NotBuffered (flashSync s) (writeStart 7) := fun s hpend =>
    absurd flashSync_lastPageAddr hpend
  have hC₁ : AllSteps FlashState.step NotBuffered (.initial fun _ => 0xff)
      [writeStart 5, .sync, writeStart 7] :=
    ⟨notBuffered_initial _ _, fun t _ => ⟨trivial, fun u hu => by
      obtain rfl : flashSync t = u := Option.some.inj hu
      exact ⟨hsync t, fun _ _ => trivial⟩⟩⟩
  have hC₂ : AllSteps FlashState.step NotBuffered (.initial fun _ => 0xff)
      [writeStart 5, .sync, .sync, writeStart 7] :=
    ⟨notBuffered_initial _ _, fun t _ => ⟨trivial, fun u _ => ⟨trivial, fun v hv => by
      obtain rfl : flashSync u = v := Option.some.inj hv
      exact ⟨hsync u, fun _ _ => trivial⟩⟩⟩⟩
  obtain ⟨hcaught, hsame⟩ := double_program_caught (fun _ => 0xff)
    (by simp [writeStart, FlashOp.isErase]) (by simp [writeStart, FlashOp.isErase]) hC₁ hC₂
  have hsome : (exec FlashState.step (.initial fun _ => 0xff) [writeStart 5, .sync]).isSome := by
    decide +kernel
  obtain ⟨s, hs⟩ := Option.isSome_iff_exists.mp hsome
  exact ⟨⟨s, hs, hcaught [writeStart 5, .sync] [] _ s rfl hs (writeStart_rewrites 7 _)⟩, hsame rfl⟩

/-- Without the `flash_sync` the second call returns, and so it matters where the `flash_sync`
stands. -/
theorem double_program_missed :
    (∃ s, exec FlashState.step (.initial fun _ => 0xff) [writeStart 5] = some s ∧
      (writeStart 7).Rewrites [writeStart 5] ∧ s.step (writeStart 7) ≠ none) ∧
    flashOutcome (.initial fun _ => 0xff) [writeStart 5, writeStart 7] ≠
      flashOutcome (.initial fun _ => 0xff) [writeStart 5, .sync, writeStart 7] := by
  constructor
  · have hsome : (exec FlashState.step (.initial fun _ => 0xff)
        [writeStart 5, writeStart 7]).isSome := by
      decide +kernel
    obtain ⟨t, ht⟩ := Option.isSome_iff_exists.mp hsome
    obtain ⟨s, hs, hrest⟩ := exec_cons.mp ht
    obtain ⟨u, hu, -⟩ := exec_cons.mp hrest
    refine ⟨s, exec_cons.mpr ⟨s, hs, rfl⟩, writeStart_rewrites 7 [], ?_⟩
    rw [hu]
    simp
  · intro heq
    have h₁ : (flashOutcome (.initial fun _ => 0xff) [writeStart 5, writeStart 7]).1 = 2 := by
      decide +kernel
    have h₂ : (flashOutcome (.initial fun _ => 0xff)
        [writeStart 5, .sync, writeStart 7]).1 = 1 := by
      decide +kernel
    rw [heq, h₂] at h₁
    exact absurd h₁ (by decide)

end JdPico
