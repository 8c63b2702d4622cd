import JdPico.Dma.Model
import JdPico.Lib.Log

/-!
# Which completions reach which handlers

The mask `isr_dma_0` works from is read once, and the handlers it calls fill slots while it goes
through the channels.  That no bit of the mask is ever used for a handler registered after it was
read comes from one fact: a channel whose interrupt is on has a handler.  So a bit of the mask
belongs to a slot that is not empty, the assertion of `dma_set_ch_cb` keeps that slot as it is until
its turn comes, and the turn calls the handler the completion was meant for.

`DmaChannelInv` says this for one channel, from the log, the slot, the latch, the interrupt enable
and the bit of the mask that is still to come.  A step of the table changes one channel, and for the
others only adds to the log.
-/

namespace JdPico

/-- The registration an event of the log makes. -/
def DmaEvent.registration : DmaEvent → Option ℕ
  | .registered reg _ _ _ => some reg
  | _ => none

/-- The registration whose handler an event of the log calls. -/
def DmaEvent.call : DmaEvent → Option ℕ
  | .called reg _ _ _ _ => some reg
  | _ => none

/-- The registrations of a log. -/
def dmaRegistrations (log : List DmaEvent) : List ℕ := log.filterMap DmaEvent.registration

/-- The registrations whose handler was called. -/
def dmaCalls (log : List DmaEvent) : List ℕ := log.filterMap DmaEvent.call

/-- Completion `k` of the channel came while the registration `reg` was in its slot, and
after it. -/
def CompletedAfter (log : List DmaEvent) (reg : ℕ) (ch : Fin dmaChannels)
    (handler context k : ℕ) : Prop :=
  ∃ newer older, log = newer ++ .completed k ch (some reg) :: older ∧
    .registered reg ch (some handler) context ∈ older

/-- The completion the service routine has read for a channel whose turn is still to come. -/
def DmaPc.waiting : DmaPc → Fin dmaChannels → Option ℕ
  | .out, _ => none
  | .read mask, ch => mask ch
  | .loop mask turn, ch => if turn ≤ ch.val then mask ch else none

/-- What the callers of `dma_set_ch_cb` rely on. -/
structure DmaContract (s : DmaTable) : Prop where
  /-- Every registration has its own number. -/
  registrations_nodup : (dmaRegistrations s.log).Nodup
  /-- The handler of a registration runs at most once. -/
  calls_nodup : (dmaCalls s.log).Nodup
  /-- A handler that runs gets the context of its registration, for a completion that came
  after it. -/
  caused : ∀ newer older reg ch handler context k,
    s.log = newer ++ .called reg ch handler context k :: older →
      CompletedAfter older reg ch handler context k
  /-- The handler of a channel that completed has run, or the channel still asks for service, or the
  service routine has read its bit and has its turn still to come. -/
  kept : ∀ k ch reg, .completed k ch (some reg) ∈ s.log →
    (∃ handler context k', .called reg ch handler context k' ∈ s.log) ∨
      (s.holds ch = some reg ∧ ((s.ints ch).isSome ∨ (s.pc.waiting ch).isSome))
  /-- A channel whose interrupt is on has a handler. -/
  enabled : ∀ ch, s.inte ch → (s.dmaHandler ch).handler.isSome

namespace DmaPc

variable {mask : Fin dmaChannels → Option ℕ} {ch : Fin dmaChannels}

lemma waiting_loop_zero : (loop mask 0).waiting ch = mask ch := by
  simp [waiting]

lemma waiting_loop_self : (loop mask ch.val).waiting ch = mask ch := by
  simp [waiting]

lemma waiting_loop_succ_self : (loop mask (ch.val + 1)).waiting ch = none := by
  simp [waiting]

/-- A turn changes nothing for the other channels. -/
lemma waiting_loop_succ_of_ne {ch' : Fin dmaChannels} (h : ch' ≠ ch) :
    (loop mask (ch.val + 1)).waiting ch' = (loop mask ch.val).waiting ch' := by
  have hne : ch'.val ≠ ch.val := fun heq => h (Fin.ext heq)
  have hiff : ch.val + 1 ≤ ch'.val ↔ ch.val ≤ ch'.val := by omega
  simp only [waiting, hiff]

end DmaPc

/-! ### One channel -/

/-- What holds of a channel with the given slot, latch, interrupt enable and bit of the mask. -/
structure DmaChannelInv (log : List DmaEvent) (ch : Fin dmaChannels) (slot : DmaSlot)
    (latch : Option ℕ) (inte : Bool) (waiting : Option ℕ) : Prop where
  inte_eq : inte = slot.handler.isSome
  filled : ∀ f, slot.handler = some f →
    .registered slot.reg ch (some f) slot.context ∈ log ∧ slot.reg ∉ dmaCalls log
  latched : ∀ f k, slot.handler = some f → latch = some k →
    CompletedAfter log slot.reg ch f slot.context k
  masked : ∀ k, waiting = some k → ∃ f, slot.handler = some f ∧
    CompletedAfter log slot.reg ch f slot.context k
  kept : ∀ k reg, .completed k ch (some reg) ∈ log →
    (∃ f c k', .called reg ch f c k' ∈ log) ∨
      ((∃ f, slot.handler = some f) ∧ slot.reg = reg ∧ (latch.isSome ∨ waiting.isSome))

section Channel

variable {log : List DmaEvent} {ch : Fin dmaChannels} {slot : DmaSlot} {latch : Option ℕ}
  {inte : Bool}
  {waiting : Option ℕ} {reg f c k : ℕ} {e : DmaEvent}

lemma CompletedAfter.cons (h : CompletedAfter log reg ch f c k) (e : DmaEvent) :
    CompletedAfter (e :: log) reg ch f c k := by
  obtain ⟨newer, older, rfl, hreg⟩ := h
  exact ⟨e :: newer, older, rfl, hreg⟩

lemma CompletedAfter.registered_mem (h : CompletedAfter log reg ch f c k) :
    .registered reg ch (some f) c ∈ log := by
  obtain ⟨newer, older, rfl, hreg⟩ := h
  exact List.mem_append_right _ (List.mem_cons_of_mem _ hreg)

lemma mem_dmaRegistrations : reg ∈ dmaRegistrations log ↔
    ∃ ch f c, .registered reg ch f c ∈ log := by
  constructor
  · intro h
    obtain ⟨e, hmem, he⟩ := List.mem_filterMap.mp h
    cases e with
    | registered r ch f c =>
      obtain rfl : r = reg := by simpa [DmaEvent.registration] using he
      exact ⟨ch, f, c, hmem⟩
    | completed => simp [DmaEvent.registration] at he
    | called => simp [DmaEvent.registration] at he
  · rintro ⟨ch, f, c, hmem⟩
    exact List.mem_filterMap.mpr ⟨_, hmem, rfl⟩

lemma mem_dmaCalls : reg ∈ dmaCalls log ↔ ∃ ch f c k, .called reg ch f c k ∈ log := by
  constructor
  · intro h
    obtain ⟨e, hmem, he⟩ := List.mem_filterMap.mp h
    cases e with
    | registered => simp [DmaEvent.call] at he
    | completed => simp [DmaEvent.call] at he
    | called r ch f c k =>
      obtain rfl : r = reg := by simpa [DmaEvent.call] using he
      exact ⟨ch, f, c, k, hmem⟩
  · rintro ⟨ch, f, c, k, hmem⟩
    exact List.mem_filterMap.mpr ⟨_, hmem, rfl⟩

/-- A call that is not of the registration in the slot leaves it uncalled. -/
lemma notMem_dmaCalls_cons (h : reg ∉ dmaCalls log) (he : e.call ≠ some reg) :
    reg ∉ dmaCalls (e :: log) := by
  intro hmem
  obtain ⟨e', hmem', he'⟩ := List.mem_filterMap.mp hmem
  rcases List.mem_cons.mp hmem' with rfl | hlog
  · exact he he'
  · exact h (List.mem_filterMap.mpr ⟨e', hlog, he'⟩)

/-- What happens on another channel only adds to the log. -/
lemma DmaChannelInv.cons (h : DmaChannelInv log ch slot latch inte waiting)
    (hcompleted : ∀ k r, e ≠ .completed k ch (some r))
    (hcall : slot.handler.isSome → e.call ≠ some slot.reg) :
    DmaChannelInv (e :: log) ch slot latch inte waiting where
  inte_eq := h.inte_eq
  filled := by
    intro f hf
    obtain ⟨hmem, hcalls⟩ := h.filled f hf
    exact ⟨List.mem_cons_of_mem _ hmem, notMem_dmaCalls_cons hcalls (hcall (by simp [hf]))⟩
  latched f k hf hk := (h.latched f k hf hk).cons e
  masked := by
    intro k hk
    obtain ⟨f, hf, hafter⟩ := h.masked k hk
    exact ⟨f, hf, hafter.cons e⟩
  kept := by
    intro k r hmem
    rcases List.mem_cons.mp hmem with rfl | hlog
    · exact absurd rfl (hcompleted k r)
    · rcases h.kept k r hlog with ⟨f, c, k', hcalled⟩ | hslot
      · exact .inl ⟨f, c, k', List.mem_cons_of_mem _ hcalled⟩
      · exact .inr hslot

/-- A registration in an empty slot.  The bit of the mask is none, because it would need a
handler. -/
lemma DmaChannelInv.register (h : DmaChannelInv log ch slot latch inte waiting)
    (hempty : slot.handler = none) (hnew : reg ∉ dmaCalls log) :
    DmaChannelInv (.registered reg ch (some f) c :: log) ch ⟨c, some f, reg⟩ none true waiting where
  inte_eq := rfl
  filled := by
    intro g hg
    obtain rfl : f = g := by simpa using hg
    exact ⟨List.mem_cons_self, notMem_dmaCalls_cons hnew (by simp [DmaEvent.call])⟩
  latched := by simp
  masked := by
    intro k hk
    obtain ⟨g, hg, -⟩ := h.masked k hk
    simp [hempty] at hg
  kept := by
    intro k r hmem
    have hlog : .completed k ch (some r) ∈ log := by simpa using hmem
    rcases h.kept k r hlog with ⟨g, c', k', hcalled⟩ | ⟨⟨g, hg⟩, -⟩
    · exact .inl ⟨g, c', k', List.mem_cons_of_mem _ hcalled⟩
    · simp [hempty] at hg

/-- A completion of the channel; an older one in the latch stays there. -/
lemma DmaChannelInv.complete (h : DmaChannelInv log ch slot latch inte waiting) (n : ℕ) :
    DmaChannelInv
      (.completed n ch (if slot.handler.isSome then some slot.reg else none) :: log) ch slot
      (some (latch.getD n)) inte waiting where
  inte_eq := h.inte_eq
  filled := by
    intro f hf
    obtain ⟨hmem, hcalls⟩ := h.filled f hf
    exact ⟨List.mem_cons_of_mem _ hmem, notMem_dmaCalls_cons hcalls (by simp [DmaEvent.call])⟩
  latched := by
    intro f k hf hk
    cases hlatch : latch with
    | none =>
      obtain rfl : n = k := by simpa [hlatch] using hk
      simp only [hf, Option.isSome_some, if_true]
      exact ⟨[], log, rfl, (h.filled f hf).1⟩
    | some k₀ =>
      obtain rfl : k₀ = k := by simpa [hlatch] using hk
      exact (h.latched f k₀ hf hlatch).cons _
  masked := by
    intro k hk
    obtain ⟨f, hf, hafter⟩ := h.masked k hk
    exact ⟨f, hf, hafter.cons _⟩
  kept := by
    intro k r hmem
    rcases List.mem_cons.mp hmem with heq | hlog
    · cases hhandler : slot.handler with
      | none => simp [hhandler] at heq
      | some f =>
        obtain ⟨-, rfl⟩ : k = n ∧ r = slot.reg := by simpa [hhandler] using heq
        exact .inr ⟨⟨f, rfl⟩, rfl, .inl rfl⟩
    · rcases h.kept k r hlog with ⟨f, c, k', hcalled⟩ | ⟨hf, hr, -⟩
      · exact .inl ⟨f, c, k', List.mem_cons_of_mem _ hcalled⟩
      · exact .inr ⟨hf, hr, .inl rfl⟩

/-- The service routine reads whether the channel asks for service. -/
lemma DmaChannelInv.read (h : DmaChannelInv log ch slot latch inte none) :
    DmaChannelInv log ch slot latch inte (if inte then latch else none) where
  inte_eq := h.inte_eq
  filled := h.filled
  latched := h.latched
  masked := by
    intro k hk
    cases hinte : inte with
    | false => simp [hinte] at hk
    | true =>
      obtain ⟨f, hf⟩ := Option.isSome_iff_exists.mp (h.inte_eq.symm.trans hinte)
      have hlatch : latch = some k := by simpa [hinte] using hk
      exact ⟨f, hf, h.latched f k hf hlatch⟩
  kept := by
    intro k r hmem
    rcases h.kept k r hmem with hcalled | ⟨hf, hr, hlatch | hnone⟩
    · exact .inl hcalled
    · exact .inr ⟨hf, hr, .inl hlatch⟩
    · simp at hnone

/-- The service routine clears the latch of a channel whose bit it has read. -/
lemma DmaChannelInv.clear (h : DmaChannelInv log ch slot latch inte waiting) :
    DmaChannelInv log ch slot (if waiting.isSome then none else latch) inte waiting where
  inte_eq := h.inte_eq
  filled := h.filled
  latched := by
    intro f k hf hk
    split at hk
    · simp at hk
    · exact h.latched f k hf hk
  masked := h.masked
  kept := by
    intro k r hmem
    rcases h.kept k r hmem with hcalled | ⟨hf, hr, hpending⟩
    · exact .inl hcalled
    · refine .inr ⟨hf, hr, ?_⟩
      by_cases hwaiting : waiting.isSome
      · exact .inr hwaiting
      · rw [if_neg hwaiting]
        exact hpending

/-- The turn of a channel whose bit is set calls the handler in its slot. -/
lemma DmaChannelInv.serve (h : DmaChannelInv log ch slot latch inte (some k)) :
    DmaChannelInv (.called slot.reg ch f slot.context k :: log) ch
      { slot with handler := none } latch
      false none where
  inte_eq := rfl
  filled := by simp
  latched := by simp
  masked := by simp
  kept := by
    intro k' r hmem
    have hlog : .completed k' ch (some r) ∈ log := by simpa using hmem
    refine .inl ?_
    rcases h.kept k' r hlog with ⟨g, c, k'', hcalled⟩ | ⟨-, rfl, -⟩
    · exact ⟨g, c, k'', List.mem_cons_of_mem _ hcalled⟩
    · exact ⟨f, slot.context, k, List.mem_cons_self⟩

end Channel

/-! ### The table -/

/-- What holds of the table in every reachable state. -/
structure DmaTable.Inv (s : DmaTable) : Prop where
  channel : ∀ ch, DmaChannelInv s.log ch (s.dmaHandler ch) (s.intr ch) (s.inte ch) (s.pc.waiting ch)
  registrations_nodup : (dmaRegistrations s.log).Nodup
  registrations_le : ∀ r ∈ dmaRegistrations s.log, r ≤ s.regs
  calls_nodup : (dmaCalls s.log).Nodup
  caused : ∀ newer older r ch f c k, s.log = newer ++ .called r ch f c k :: older →
    CompletedAfter older r ch f c k
  /-- Two slots are not filled by one registration. -/
  distinct : ∀ ch ch' f f', (s.dmaHandler ch).handler = some f →
    (s.dmaHandler ch').handler = some f' →
    (s.dmaHandler ch).reg = (s.dmaHandler ch').reg → ch = ch'

namespace DmaTable.Inv

variable {s : DmaTable}

lemma initial : DmaTable.initial.Inv where
  channel ch :=
    { inte_eq := rfl
      filled := by simp [DmaTable.initial]
      latched := by simp [DmaTable.initial]
      masked := by simp [DmaTable.initial, DmaPc.waiting]
      kept := by simp [DmaTable.initial] }
  registrations_nodup := List.nodup_nil
  registrations_le := by simp [DmaTable.initial, dmaRegistrations]
  calls_nodup := List.nodup_nil
  caused := by simp [DmaTable.initial]
  distinct := by simp [DmaTable.initial]

/-- A registration whose handler was called is one of the log. -/
lemma calls_le (h : s.Inv) {r : ℕ} (hr : r ∈ dmaCalls s.log) : r ≤ s.regs := by
  obtain ⟨ch, f, c, k, hmem⟩ := mem_dmaCalls.mp hr
  obtain ⟨newer, older, hsplit⟩ := List.append_of_mem hmem
  have hreg := (h.caused newer older r ch f c k hsplit).registered_mem
  refine h.registrations_le r (mem_dmaRegistrations.mpr ⟨ch, some f, c, ?_⟩)
  rw [hsplit]
  exact List.mem_append_right _ (List.mem_cons_of_mem _ hreg)

/-- The registration in a slot is one of the log. -/
lemma reg_le (h : s.Inv) {ch : Fin dmaChannels} {f : ℕ} (hf : (s.dmaHandler ch).handler = some f) :
    (s.dmaHandler ch).reg ≤ s.regs :=
  h.registrations_le _ (mem_dmaRegistrations.mpr ⟨ch, some f, _, ((h.channel ch).filled f hf).1⟩)

/-- An event that is not a call has no cause to show. -/
lemma caused_cons (h : s.Inv) {e : DmaEvent} (he : e.call = none) :
    ∀ newer older r ch f c k, e :: s.log = newer ++ .called r ch f c k :: older →
      CompletedAfter older r ch f c k := by
  intro newer older r ch f c k hsplit
  rcases Log.split_cons hsplit with ⟨rfl, -⟩ | ⟨newer', hrest⟩
  · simp [DmaEvent.call] at he
  · exact h.caused newer' older r ch f c k hrest

/-- A registration in an empty slot; its number is new. -/
lemma fill (h : s.Inv) {ch : Fin dmaChannels} (hempty : (s.dmaHandler ch).handler = none)
    (f c : ℕ) :
    (s.fill ch (some f) c).Inv := by
  have hnew : ∀ r, r ≤ s.regs → s.regs + 1 ≠ r := by
    intro r hr
    omega
  refine ⟨?_, ?_, ?_, h.calls_nodup, h.caused_cons rfl, ?_⟩
  · intro ch'
    by_cases hch : ch' = ch
    · subst hch
      simp only [DmaTable.fill, Function.update_self]
      exact (h.channel ch').register hempty fun hmem => hnew _ (h.calls_le hmem) rfl
    · simp only [DmaTable.fill, Function.update_of_ne hch]
      exact (h.channel ch').cons (by simp) (by simp [DmaEvent.call])
  · exact List.nodup_cons.mpr ⟨fun hmem => hnew _ (h.registrations_le _ hmem) rfl,
      h.registrations_nodup⟩
  · intro r hr
    rcases List.mem_cons.mp hr with rfl | hlog
    · exact le_rfl
    · exact (h.registrations_le r hlog).trans (Nat.le_succ _)
  · intro ch₁ ch₂ f₁ f₂ hf₁ hf₂ heq
    by_cases hch₁ : ch₁ = ch <;> by_cases hch₂ : ch₂ = ch
    · exact hch₁.trans hch₂.symm
    · subst hch₁
      simp only [DmaTable.fill, Function.update_self, Function.update_of_ne hch₂] at hf₂ heq
      exact absurd heq (hnew _ (h.reg_le hf₂))
    · subst hch₂
      simp only [DmaTable.fill, Function.update_self, Function.update_of_ne hch₁] at hf₁ heq
      exact absurd heq.symm (hnew _ (h.reg_le hf₁))
    · simp only [DmaTable.fill, Function.update_of_ne hch₁,
        Function.update_of_ne hch₂] at hf₁ hf₂ heq
      exact h.distinct ch₁ ch₂ f₁ f₂ hf₁ hf₂ heq

lemma dmaSetChCb (h : s.Inv) {channel f c : ℕ} {t : DmaTable}
    (hst : s.dmaSetChCb channel (some f) c = some t) : t.Inv := by
  unfold DmaTable.dmaSetChCb at hst
  split at hst
  · rename_i hlt
    split at hst
    · simp at hst
    · rename_i hempty
      obtain rfl := Option.some.inj hst
      exact h.fill (by simpa using hempty) f c
  · exact Option.some.inj hst ▸ h

lemma complete (h : s.Inv) (ch : Fin dmaChannels) : (s.complete ch).Inv where
  channel := by
    intro ch'
    by_cases hch : ch' = ch
    · subst hch
      simp only [DmaTable.complete, Function.update_self]
      exact (h.channel ch').complete _
    · simp only [DmaTable.complete, Function.update_of_ne hch]
      refine (h.channel ch').cons ?_ (by simp [DmaEvent.call])
      rintro k r heq
      simp only [DmaEvent.completed.injEq] at heq
      exact hch heq.2.1.symm
  registrations_nodup := h.registrations_nodup
  registrations_le := h.registrations_le
  calls_nodup := h.calls_nodup
  caused := h.caused_cons rfl
  distinct := h.distinct

/-- What changes neither the slots nor the log is seen on each channel. -/
lemma keep (h : s.Inv) {t : DmaTable} (hslots : t.dmaHandler = s.dmaHandler) (hlog : t.log = s.log)
    (hregs : t.regs = s.regs)
    (hchannel : ∀ ch, DmaChannelInv s.log ch (s.dmaHandler ch) (t.intr ch) (t.inte ch)
      (t.pc.waiting ch)) :
    t.Inv where
  channel := by
    rw [hslots, hlog]
    exact hchannel
  registrations_nodup := hlog ▸ h.registrations_nodup
  registrations_le := by
    rw [hlog, hregs]
    exact h.registrations_le
  calls_nodup := hlog ▸ h.calls_nodup
  caused := hlog ▸ h.caused
  distinct := hslots ▸ h.distinct

/-- The service routine reads the mask. -/
lemma read (h : s.Inv) (hpc : s.pc = .out) : ({ s with pc := .read s.ints } : DmaTable).Inv := by
  refine h.keep rfl rfl rfl fun ch => ?_
  have hch := h.channel ch
  rw [hpc] at hch
  exact hch.read

/-- The service routine clears the latches of the channels it has read. -/
lemma clear (h : s.Inv) {mask : Fin dmaChannels → Option ℕ} (hpc : s.pc = .read mask) :
    ({ s with
        intr := fun ch => if (mask ch).isSome then none else s.intr ch
        pc := .loop mask 0 } : DmaTable).Inv := by
  refine h.keep rfl rfl rfl fun ch => ?_
  have hch := h.channel ch
  rw [hpc] at hch
  rw [DmaPc.waiting_loop_zero]
  exact hch.clear

/-- A turn of the loop for a channel whose bit is not set. -/
lemma skip (h : s.Inv) {mask : Fin dmaChannels → Option ℕ} {ch : Fin dmaChannels}
    (hpc : s.pc = .loop mask ch.val) (hmask : mask ch = none) :
    ({ s with pc := .loop mask (ch.val + 1) } : DmaTable).Inv := by
  refine h.keep rfl rfl rfl fun ch' => ?_
  have hch := h.channel ch'
  rw [hpc] at hch
  by_cases heq : ch' = ch
  · subst heq
    rw [DmaPc.waiting_loop_self, hmask] at hch
    rw [DmaPc.waiting_loop_succ_self]
    exact hch
  · rw [DmaPc.waiting_loop_succ_of_ne heq]
    exact hch

/-- A turn of the loop that calls the handler of its channel. -/
lemma serve (h : s.Inv) {mask : Fin dmaChannels → Option ℕ} {ch : Fin dmaChannels} {k f : ℕ}
    (hpc : s.pc = .loop mask ch.val) (hmask : mask ch = some k)
    (hf : (s.dmaHandler ch).handler = some f) :
    ({ s with
        inte := Function.update s.inte ch false
        dmaHandler := Function.update s.dmaHandler ch { s.dmaHandler ch with handler := none }
        log := .called (s.dmaHandler ch).reg ch f (s.dmaHandler ch).context k :: s.log
        pc := .loop mask (ch.val + 1) } : DmaTable).Inv := by
  have hserved := h.channel ch
  rw [hpc, DmaPc.waiting_loop_self, hmask] at hserved
  refine ⟨?_, h.registrations_nodup, h.registrations_le, ?_, ?_, ?_⟩
  · intro ch'
    by_cases heq : ch' = ch
    · subst heq
      simp only [Function.update_self, DmaPc.waiting_loop_succ_self]
      exact hserved.serve
    · have hch := h.channel ch'
      rw [hpc] at hch
      simp only [Function.update_of_ne heq, DmaPc.waiting_loop_succ_of_ne heq]
      refine hch.cons (by simp) fun hsome hcall => heq ?_
      obtain ⟨f', hf'⟩ := Option.isSome_iff_exists.mp hsome
      exact (h.distinct ch ch' f f' hf hf' (Option.some.inj hcall)).symm
  · exact List.nodup_cons.mpr ⟨(hserved.filled f hf).2, h.calls_nodup⟩
  · intro newer older r ch' f' c k' hsplit
    rcases Log.split_cons hsplit with ⟨hcall, rfl⟩ | ⟨newer', hrest⟩
    · simp only [DmaEvent.called.injEq] at hcall
      obtain ⟨rfl, rfl, rfl, rfl, rfl⟩ := hcall
      obtain ⟨g, hg, hafter⟩ := hserved.masked k rfl
      rwa [Option.some.inj (hf.symm.trans hg)]
    · exact h.caused newer' older r ch' f' c k' hrest
  · intro ch₁ ch₂ f₁ f₂ hf₁ hf₂ hreg
    have hne : ∀ {ch' f'}, (Function.update s.dmaHandler ch
        { s.dmaHandler ch with handler := none } ch').handler = some f' → ch' ≠ ch := by
      rintro ch' f' hf' rfl
      simp at hf'
    have hne₁ := hne hf₁
    have hne₂ := hne hf₂
    simp only [Function.update_of_ne hne₁, Function.update_of_ne hne₂] at hf₁ hf₂ hreg
    exact h.distinct ch₁ ch₂ f₁ f₂ hf₁ hf₂ hreg

/-- The loop of the service routine ends. -/
lemma leave (h : s.Inv) {mask : Fin dmaChannels → Option ℕ} {turn : ℕ}
    (hpc : s.pc = .loop mask turn)
    (hturn : ¬turn < dmaChannels) : ({ s with pc := .out } : DmaTable).Inv := by
  refine h.keep rfl rfl rfl fun ch => ?_
  have hch := h.channel ch
  have hwaiting : (DmaPc.loop mask turn).waiting ch = none := by
    refine if_neg ?_
    have := ch.isLt
    omega
  rw [hpc, hwaiting] at hch
  exact hch

/-- A bit of the mask belongs to a slot that is not empty, so the turn of its channel calls a
handler. -/
lemma turn (h : s.Inv) {mask : Fin dmaChannels → Option ℕ} {ch : Fin dmaChannels}
    (hpc : s.pc = .loop mask ch.val) :
    ({ s.service mask ch with pc := .loop mask (ch.val + 1) } : DmaTable).Inv := by
  cases hmask : mask ch with
  | none =>
    simp only [DmaTable.service, hmask]
    exact h.skip hpc hmask
  | some k =>
    have hch := h.channel ch
    rw [hpc, DmaPc.waiting_loop_self] at hch
    obtain ⟨f, hf, -⟩ := hch.masked k hmask
    simp only [DmaTable.service, hmask, hf]
    exact h.serve hpc hmask hf

lemma isrDma0 (h : s.Inv) : s.isrDma0.Inv := by
  unfold DmaTable.isrDma0
  split
  · rename_i hpc
    exact h.read hpc
  · rename_i mask hpc
    exact h.clear hpc
  · rename_i mask turn hpc
    split
    · rename_i hlt
      exact h.turn hpc
    · rename_i hturn
      exact h.leave hpc hturn

lemma step (h : s.Inv) {a : DmaAct} {t : DmaTable} (hst : s.step a = some t) : t.Inv := by
  cases a with
  | setChCb channel f c => exact h.dmaSetChCb hst
  | complete ch => exact Option.some.inj hst ▸ h.complete ch
  | isr => exact Option.some.inj hst ▸ h.isrDma0

/-- What holds of one channel says that no completion is lost. -/
lemma contract (h : s.Inv) : DmaContract s where
  registrations_nodup := h.registrations_nodup
  calls_nodup := h.calls_nodup
  caused := h.caused
  kept := by
    intro k ch reg hmem
    rcases (h.channel ch).kept k reg hmem with hcalled | ⟨⟨f, hf⟩, rfl, hpending⟩
    · exact .inl hcalled
    · have hinte : s.inte ch = true := by rw [(h.channel ch).inte_eq, hf, Option.isSome_some]
      refine .inr ⟨by simp [DmaTable.holds, hf], ?_⟩
      rwa [DmaTable.ints, if_pos hinte]
  enabled := by
    intro ch hinte
    rwa [(h.channel ch).inte_eq] at hinte

end DmaTable.Inv

/-- Whatever is registered, completes and is serviced, in whatever order: the handler of a
registration runs at most once, with its context and for a completion that came after it, no
completion of a channel with a handler is lost, and a channel whose interrupt is on has a
handler. -/
theorem dma_callbacks {s : DmaTable} (h : Machine.Reachable DmaTable.step .initial s) :
    DmaContract s :=
  (Machine.Reachable.inv (fun _ _ _ hs hst => DmaTable.Inv.step hs hst)
    DmaTable.Inv.initial h).contract

/-- Two channels complete before one interrupt, and the handler of the first registers itself again
and completes again before the turn of the second. -/
def dmaRearmed : List DmaAct :=
  List.flatten
    [[.setChCb 5 80 8, .setChCb 3 70 7, .complete ⟨5, by decide⟩, .complete ⟨3, by decide⟩],
      List.replicate 6 .isr, [.setChCb 3 70 9, .complete ⟨3, by decide⟩], List.replicate 25 .isr]

theorem dma_callbacks_rearmed :
    (Machine.exec DmaTable.step .initial dmaRearmed).map (fun s => dmaCalls s.log) =
      some [3, 1, 2] ∧
      ∀ s, Machine.exec DmaTable.step .initial dmaRearmed = some s → DmaContract s := by
  refine ⟨by decide +kernel, ?_⟩
  intro s hs
  exact dma_callbacks ⟨dmaRearmed, hs⟩

end JdPico
