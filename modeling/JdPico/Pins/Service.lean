import JdPico.Pins.Edges

/-!
# The routine serves the edges

`isr_io_bank0` goes through the pins once.  Whatever happens meanwhile, at this pin or at others, it
takes a bounded number of steps; it calls the callbacks in the order of the pins, each one at most
once; and a pin that had an enabled edge latched when the routine was entered has had its callback
called when it returns, unless the events of the pin were set up anew in between.  What is latched
then came after the entry.

For one pin the routine goes through four stages (`PinStage`): it has not come to the pin, has read
its events, has acknowledged them, or is done with it.
-/

namespace JdPico

open Machine

variable {κ : Type*}

/-! ### The run of the routine -/

/-- The event of a pin is latched and enabled. -/
def EdgeState.pending (s : EdgeState κ) (p : Fin 30) (i : Fin 4) : Bool :=
  s.bank.latched p i && s.bank.enabled p i

/-- A step from the entry of the routine until it returns. -/
def EdgeState.serviceStep (s : EdgeState κ) (a : EdgeAct κ) : Option (EdgeState κ) :=
  match a, s.isr with
  | .isr, .idle => none
  | _, _ => s.step a

/-- The step is one of the routine. -/
def EdgeAct.isIsr : EdgeAct κ → Bool
  | .isr => true
  | _ => false

/-- The step does not set up the pin. -/
def LeavesAlone (p : Fin 30) (s : EdgeState κ) : EdgeAct κ → Prop
  | .write context => s.pinOf (.write context) ≠ some p
  | _ => True

instance LeavesAlone.decidable (p : Fin 30) (s : EdgeState κ) :
    (a : EdgeAct κ) → Decidable (LeavesAlone p s a)
  | .write context => inferInstanceAs (Decidable (s.pinOf (.write context) ≠ some p))
  | .edge _ _ | .isr | .call _ _ => .isTrue trivial

/-- There is an edge among the steps that latches the event. -/
def EdgeSince (p : Fin 30) (acts : List (EdgeAct κ)) (i : Fin 4) : Prop :=
  ∃ type : EdgeType, .edge p type ∈ acts ∧ type.index = i

/-- The pin whose callback starts. -/
def EdgeEvent.called : EdgeEvent κ → Option (Fin 30)
  | .callback pin _ => some pin
  | _ => none

/-- The pins whose callbacks were started. -/
def calledPins (log : List (EdgeEvent κ)) : List (Fin 30) := log.filterMap EdgeEvent.called

/-! ### The stages of a pin -/

/-- How far the routine is with a pin. -/
inductive PinStage where
  | waiting
  | read (events : BitVec 32)
  | acked
  | served

/-- The stage of a pin. -/
def IsrPc.stage (p : Fin 30) : IsrPc → PinStage
  | .idle => .served
  | .scan gpio => if gpio ≤ p then .waiting else .served
  | .read gpio events => if gpio < p then .waiting else if gpio = p then .read events else .served
  | .acked gpio => if gpio < p then .waiting else if gpio = p then .acked else .served
  | .callback gpio => if gpio < p then .waiting else .served

/-- What holds in each stage, for the events that were pending at the entry, those that are pending
now, those that came since, and whether the callback was called. -/
def PinStage.Holds (before now : Fin 4 → Bool) (fresh : Fin 4 → Prop) (called : Prop) :
    PinStage → Prop
  | .waiting => ∀ i, before i = true → now i = true
  | .read events => ∀ i, now i = true → events.getLsbD i = true ∨ fresh i
  | .acked => ∀ i, now i = true → fresh i
  | .served => ((∃ i, before i = true) → called) ∧ ∀ i, now i = true → fresh i

/-- An edge keeps the stage, and so does a step that is not about the pin. -/
lemma PinStage.Holds.mono {before now now' : Fin 4 → Bool} {fresh fresh' : Fin 4 → Prop}
    {called called' : Prop} {stage : PinStage} (h : stage.Holds before now fresh called)
    (hnow : ∀ i, now i = true → now' i = true)
    (hback : ∀ i, now' i = true → now i = true ∨ fresh' i)
    (hfresh : ∀ i, fresh i → fresh' i) (hcalled : called → called') :
    stage.Holds before now' fresh' called' := by
  cases stage with
  | waiting => exact fun i hi => hnow i (h i hi)
  | read events =>
    exact fun i hi => (hback i hi).elim (fun hi => (h i hi).imp_right (hfresh i)) .inr
  | acked => exact fun i hi => (hback i hi).elim (fun hi => hfresh i (h i hi)) id
  | served =>
    exact ⟨fun hi => hcalled (h.1 hi),
      fun i hi => (hback i hi).elim (fun hi => hfresh i (h.2 i hi)) id⟩

/-! ### The steps of the routine -/

/-- At most so many steps of the routine are left. -/
def IsrPc.left : IsrPc → ℕ
  | .idle => 0
  | .scan gpio => 4 * (30 - gpio) + 1
  | .read gpio _ => 4 * (30 - gpio)
  | .acked gpio => 4 * (30 - gpio) - 1
  | .callback gpio => 4 * (30 - gpio) - 2

/-- The callbacks of the pins from here on were not started. -/
def IsrPc.next : IsrPc → ℕ
  | .idle => 30
  | .scan gpio => gpio
  | .read gpio _ | .acked gpio => gpio
  | .callback gpio => gpio + 1

variable {p : Fin 30} {s t : EdgeState κ}

/-- Each step of the routine brings it closer to its end. -/
lemma left_isrIoBank0 (h : s.isr ≠ .idle) : s.isrIoBank0.isr.left < s.isr.left := by
  unfold EdgeState.isrIoBank0
  rcases hpc : s.isr with _ | gpio | ⟨gpio, events⟩ | gpio | gpio
  · exact absurd hpc h
  · dsimp only
    split_ifs <;> simp only [IsrPc.left] <;> omega
  · simp only [IsrPc.left]
    omega
  · dsimp only
    cases s.extiCb gpio <;> simp only [IsrPc.left] <;> omega
  · simp only [IsrPc.left]
    omega

/-- The status of a pin has the bits of its pending events. -/
lemma getLsbD_status (s : EdgeState κ) (p : Fin 30) (i : Fin 4) :
    (s.status p).getLsbD i = s.pending p i := by
  have hlow : (0xf : BitVec 32).getLsbD i = true := by
    revert i
    decide
  rw [EdgeState.status, BitVec.getLsbD_and, hlow, Bool.and_true, BitVec.getLsbD_ushiftRight,
    IoBank.ints, BitVec.getLsbD_and]
  rfl

/-- Events that are as they were are pending if they were. -/
lemma EdgeState.SameEvents.pending (h : EdgeState.SameEvents p s t) :
    t.pending p = s.pending p := by
  funext i
  rw [EdgeState.pending, EdgeState.pending, (h i).1, (h i).2]

/-- What a step of the routine adds to the log. -/
def EdgeState.isrLog (s : EdgeState κ) : List (EdgeEvent κ) :=
  match s.isr with
  | .acked gpio => ((s.extiCb gpio).map fun callback => EdgeEvent.callback gpio callback).toList
  | _ => []

lemma log_isrIoBank0 (s : EdgeState κ) : s.isrIoBank0.log = s.isrLog ++ s.log := by
  unfold EdgeState.isrIoBank0 EdgeState.isrLog
  rcases hpc : s.isr with _ | gpio | ⟨gpio, events⟩ | gpio | gpio
  · rfl
  · dsimp only
    split_ifs <;> rfl
  · rfl
  · dsimp only
    cases s.extiCb gpio <;> rfl
  · rfl

/-- The routine looks at the status of a pin. -/
lemma EdgeState.stage_scan {gpio : ℕ} (hpc : s.isr = .scan gpio) {before : Fin 4 → Bool}
    {fresh : Fin 4 → Prop} {called : Prop}
    (hold : (s.isr.stage p).Holds before (s.pending p) fresh called) :
    (s.isrIoBank0.isr.stage p).Holds before (s.pending p) fresh called := by
  rw [hpc] at hold
  unfold EdgeState.isrIoBank0
  rw [hpc]
  dsimp only
  rcases lt_or_ge gpio 30 with hlt | hge
  · rw [dif_pos hlt]
    rcases lt_trichotomy gpio p with hp | rfl | hp
    · have hold' : PinStage.Holds before (s.pending p) fresh called .waiting := by
        simpa only [IsrPc.stage, if_pos hp.le] using hold
      dsimp only
      split_ifs
      · simpa only [IsrPc.stage, Fin.lt_def, if_pos hp] using hold'
      · simpa only [IsrPc.stage, if_pos (Nat.succ_le_of_lt hp)] using hold'
    · -- the events that are read are those that are pending
      have hold' : PinStage.Holds before (s.pending p) fresh called .waiting := by
        simpa only [IsrPc.stage, if_pos le_rfl] using hold
      dsimp only
      split_ifs with hevents
      · simp only [IsrPc.stage, Fin.eta, lt_self_iff_false, if_false, if_true]
        exact fun i hi => .inl (by rw [getLsbD_status, hi])
      · have hnone : ∀ i, s.pending p i = false := by
          intro i
          rw [← getLsbD_status, show s.status p = 0 from not_not.mp hevents]
          simp
        simp only [IsrPc.stage, if_neg (Nat.not_succ_le_self _)]
        exact ⟨fun ⟨i, hi⟩ => absurd (hold' i hi) (by simp [hnone]),
          fun i hi => absurd hi (by simp [hnone])⟩
    · have hold' : PinStage.Holds before (s.pending p) fresh called .served := by
        simpa only [IsrPc.stage, if_neg hp.not_ge] using hold
      dsimp only
      split_ifs
      · simpa only [IsrPc.stage, Fin.lt_def, Fin.ext_iff, if_neg hp.not_gt, if_neg hp.ne']
          using hold'
      · simpa only [IsrPc.stage, if_neg (Nat.lt_succ_of_lt hp).not_ge] using hold'
  · rw [dif_neg hge.not_gt]
    have hp : (p : ℕ) < gpio := by omega
    simpa only [IsrPc.stage, if_neg hp.not_ge] using hold

/-- A step of the routine keeps what holds of the pin in its stage. -/
lemma EdgeState.Inv.stage_isr (h : s.Inv) (hne : s.isr ≠ .idle) {before : Fin 4 → Bool}
    {fresh : Fin 4 → Prop} {newer : List (EdgeEvent κ)}
    (hold : (s.isr.stage p).Holds before (s.pending p) fresh (p ∈ calledPins newer)) :
    (s.isrIoBank0.isr.stage p).Holds before (s.isrIoBank0.pending p) fresh
      (p ∈ calledPins (s.isrLog ++ newer)) := by
  have hsame : s.pinOf .isr ≠ some p → s.isrIoBank0.pending p = s.pending p :=
    fun hq => (h.sameEvents_isrIoBank0 hq).pending
  rcases hpc : s.isr with _ | gpio | ⟨gpio, events⟩ | gpio | gpio
  · exact absurd hpc hne
  · rw [hsame (by simp [EdgeState.pinOf, hpc]), EdgeState.isrLog, hpc]
    exact EdgeState.stage_scan hpc hold
  · -- the events are acknowledged
    have hisr : s.isrIoBank0.isr = .acked gpio := by simp [EdgeState.isrIoBank0, hpc]
    have hlog : s.isrLog = [] := by simp [EdgeState.isrLog, hpc]
    rw [hisr, hlog, List.nil_append]
    rw [hpc] at hold
    by_cases hp : gpio = p
    · subst hp
      simp only [IsrPc.stage, lt_self_iff_false, if_false, if_true] at hold ⊢
      intro i hi
      have hevents : IsEvents events := by
        have hsound := h.isr
        rw [hpc] at hsound
        exact hsound.1
      have hack : s.isrIoBank0.pending gpio i = (s.pending gpio i && !events.getLsbD i) := by
        simp only [EdgeState.isrIoBank0, hpc, EdgeState.pending]
        rw [latched_gpioAcknowledgeIrq hevents, decide_eq_true rfl, Bool.true_and,
          Bool.and_right_comm]
        rfl
      rw [hack, Bool.and_eq_true, Bool.not_eq_true'] at hi
      exact (hold i hi.1).resolve_left (by simp [hi.2])
    · rw [hsame (by simp [EdgeState.pinOf, hpc, hp])]
      simpa only [IsrPc.stage, if_neg hp] using hold
  · -- the callback is called; there is one, because the pin is enabled
    obtain ⟨callback, hcb⟩ : ∃ callback, s.extiCb gpio = some callback := by
      have hsound := h.isr
      rw [hpc] at hsound
      exact Option.isSome_iff_exists.mp hsound
    have hisr : s.isrIoBank0.isr = .callback gpio := by simp [EdgeState.isrIoBank0, hpc, hcb]
    have hlog : s.isrLog = [.callback gpio callback] := by simp [EdgeState.isrLog, hpc, hcb]
    rw [hsame (by simp [EdgeState.pinOf, hpc]), hisr, hlog]
    rw [hpc] at hold
    rcases lt_trichotomy gpio p with hp | rfl | hp
    · simp only [IsrPc.stage, if_pos hp] at hold ⊢
      exact hold
    · simp only [IsrPc.stage, lt_self_iff_false, if_false, if_true] at hold ⊢
      exact ⟨fun _ => List.mem_cons_self, hold⟩
    · simp only [IsrPc.stage, if_neg hp.not_gt, if_neg hp.ne'] at hold ⊢
      exact ⟨fun hi => List.mem_cons_of_mem _ (hold.1 hi), hold.2⟩
  · rw [hsame (by simp [EdgeState.pinOf, hpc])]
    have hisr : s.isrIoBank0.isr = .scan (gpio + 1) := by simp [EdgeState.isrIoBank0, hpc]
    have hlog : s.isrLog = [] := by simp [EdgeState.isrLog, hpc]
    rw [hisr, hlog, List.nil_append]
    rw [hpc] at hold
    simpa only [IsrPc.stage, Nat.succ_le_iff, Fin.lt_def] using hold

/-! ### The order of the callbacks -/

/-- The callbacks were called in the order of the pins, and none of a pin from `next` on. -/
def InOrder (next : ℕ) (newer : List (EdgeEvent κ)) : Prop :=
  (calledPins newer).Pairwise (· > ·) ∧ ∀ q ∈ calledPins newer, (q : ℕ) < next

lemma InOrder.mono {next next' : ℕ} {newer : List (EdgeEvent κ)} (h : InOrder next newer)
    (hle : next ≤ next') : InOrder next' newer :=
  ⟨h.1, fun q hq => (h.2 q hq).trans_le hle⟩

/-- A step of the routine keeps the order. -/
lemma EdgeState.inOrder_isr (hne : s.isr ≠ .idle) {newer : List (EdgeEvent κ)}
    (h : InOrder s.isr.next newer) : InOrder s.isrIoBank0.isr.next (s.isrLog ++ newer) := by
  unfold EdgeState.isrIoBank0 EdgeState.isrLog
  rcases hpc : s.isr with _ | gpio | ⟨gpio, events⟩ | gpio | gpio <;> rw [hpc] at h
  · exact absurd hpc hne
  · dsimp only
    split_ifs with hlt hevents
    · exact h
    · exact h.mono (Nat.le_succ gpio)
    · refine ⟨h.1, fun q _ => q.isLt⟩
  · exact h
  · dsimp only
    cases s.extiCb gpio with
    | none => exact h.mono (Nat.le_succ gpio)
    | some callback =>
      refine ⟨List.pairwise_cons.mpr ⟨fun q hq => h.2 q hq, h.1⟩, fun q hq => ?_⟩
      rcases List.mem_cons.mp hq with rfl | hq
      · exact Nat.lt_succ_self _
      · exact Nat.lt_succ_of_lt (h.2 q hq)
  · exact h

/-! ### Runs -/

/-- What holds after the steps `acts` from the entry of the routine in `s₀`, with `newer` added to
the log. -/
structure ServesPin (p : Fin 30) (s₀ : EdgeState κ) (acts : List (EdgeAct κ))
    (newer : List (EdgeEvent κ)) (s : EdgeState κ) : Prop where
  inv : s.Inv
  steps : acts.countP EdgeAct.isIsr + s.isr.left ≤ 121
  log : s.log = newer ++ s₀.log
  order : InOrder s.isr.next newer
  stage : (s.isr.stage p).Holds (s₀.pending p) (s.pending p) (EdgeSince p acts)
    (p ∈ calledPins newer)

section

variable {s₀ : EdgeState κ} {acts : List (EdgeAct κ)} {newer : List (EdgeEvent κ)} {a : EdgeAct κ}

/-- What a write adds to the log. -/
def ExtiWrite.logged : ExtiWrite κ → List (EdgeEvent κ)
  | .intr pin events => [.cleared pin events]
  | .cb _ _ | .ev _ _ | .inte _ _ _ => []

/-- More steps leave the edges there are. -/
lemma EdgeSince.append {i : Fin 4} (h : EdgeSince p acts i) : EdgeSince p (acts ++ [a]) i := by
  obtain ⟨type, hmem, hindex⟩ := h
  exact ⟨type, List.mem_append_left _ hmem, hindex⟩

/-- A step that is not one of the routine and calls no callback. -/
lemma ServesPin.of_other (h : ServesPin p s₀ acts newer s) (ht : t.Inv) (ha : a.isIsr = false)
    (hisr : t.isr = s.isr) (events : List (EdgeEvent κ)) (hlog : t.log = events ++ s.log)
    (hcalled : calledPins events = []) (hnow : ∀ i, s.pending p i = true → t.pending p i = true)
    (hback : ∀ i, t.pending p i = true → s.pending p i = true ∨ EdgeSince p (acts ++ [a]) i) :
    ServesPin p s₀ (acts ++ [a]) (events ++ newer) t := by
  have hpins : calledPins (events ++ newer) = calledPins newer := by
    rw [calledPins, List.filterMap_append, ← calledPins, hcalled, List.nil_append, calledPins]
  refine ⟨ht, ?_, by rw [hlog, h.log, List.append_assoc], ?_, ?_⟩
  · rw [List.countP_append, List.countP_singleton, ha, hisr]
    exact h.steps
  · rw [InOrder, hpins, hisr]
    exact h.order
  · rw [hisr, hpins]
    exact h.stage.mono hnow hback (fun _ => EdgeSince.append) id

/-- Each step keeps what holds. -/
lemma ServesPin.step (h : ServesPin p s₀ acts newer s) (halone : LeavesAlone p s a)
    (hst : s.serviceStep a = some t) : ∃ newer', ServesPin p s₀ (acts ++ [a]) newer' t := by
  have hstep : s.step a = some t := by
    unfold EdgeState.serviceStep at hst
    split at hst
    · simp at hst
    · exact hst
  have ht := h.inv.step hstep
  cases a with
  | edge q type =>
    obtain rfl := Option.some.inj hstep
    have hpending : ∀ i, (s.edge q type).pending p i =
        ((s.bank.latched p i || (decide (q = p) && decide (type.index = i))) &&
          s.bank.enabled p i) := by
      intro i
      rw [← latched_edge]
      rfl
    refine ⟨_, h.of_other ht rfl rfl (if s.bank.enabled q type.index then [.edge q type] else [])
      ?_ ?_ (fun i hi => ?_) fun i hi => ?_⟩
    · simp only [EdgeState.edge]
      split_ifs <;> rfl
    · split_ifs <;> rfl
    · rw [EdgeState.pending, Bool.and_eq_true] at hi
      rw [hpending, hi.1, hi.2]
      rfl
    · rw [hpending, Bool.and_eq_true, Bool.or_eq_true, Bool.and_eq_true, decide_eq_true_eq,
        decide_eq_true_eq] at hi
      obtain ⟨hlatched | ⟨rfl, hindex⟩, henabled⟩ := hi
      · exact .inl (by rw [EdgeState.pending, hlatched, henabled]; rfl)
      · exact .inr ⟨type, by simp, hindex⟩
  | isr =>
    obtain rfl := Option.some.inj hstep
    have hne : s.isr ≠ .idle := by
      intro hidle
      simp [EdgeState.serviceStep, hidle] at hst
    refine ⟨s.isrLog ++ newer, ht, ?_, ?_, EdgeState.inOrder_isr hne h.order, ?_⟩
    · have hleft := left_isrIoBank0 hne
      have hsteps := h.steps
      rw [List.countP_append, List.countP_singleton, EdgeAct.isIsr, if_pos rfl]
      omega
    · rw [log_isrIoBank0, h.log, List.append_assoc]
    · refine (h.inv.stage_isr hne h.stage).mono (fun _ => id) (fun _ => .inl) (fun _ => ?_) id
      exact EdgeSince.append
  | call context call =>
    simp only [EdgeState.step] at hstep
    split_ifs at hstep
    obtain rfl := Option.some.inj hstep
    exact ⟨newer, h.of_other ht rfl rfl [] rfl rfl (fun _ => id) fun _ => .inl⟩
  | write context =>
    have hpending : t.pending p = s.pending p :=
      (h.inv.sameEvents_step hstep halone).pending
    rcases hcall : s.calls context with _ | ⟨w, ws⟩ <;>
      simp only [EdgeState.step, hcall] at hstep
    · simp at hstep
    · obtain rfl := Option.some.inj hstep
      refine ⟨_, h.of_other ht rfl (by cases w <;> rfl) w.logged (by cases w <;> rfl)
        (by cases w <;> rfl) (fun i hi => ?_) fun i hi => .inl ?_⟩
      · rwa [hpending]
      · rwa [hpending] at hi

end

/-- **The routine serves the edges.**  Take any state that the system can be in before the routine
is entered, and any steps of the system after that until it returns at the latest, among them none
that sets up the pin.  The routine has taken at most 121 steps, and has called callbacks in the
order of the pins, each at most once.  When it has returned, the callback of the pin was called if
an event of the pin was pending at the entry, and an event that is pending now comes from an edge
since then. -/
theorem isr_serves_pending {before acts : List (EdgeAct κ)}
    (hs : exec EdgeState.step .initial before = some s) (hidle : s.isr = .idle)
    (halone : AllSteps EdgeState.serviceStep (LeavesAlone p) s.isrIoBank0 acts)
    (hrun : exec EdgeState.serviceStep s.isrIoBank0 acts = some t) :
    acts.countP EdgeAct.isIsr ≤ 121 ∧
      ∃ newer, t.log = newer ++ s.log ∧ (calledPins newer.reverse).Pairwise (· < ·) ∧
        (t.isr = .idle →
          ((∃ i, s.pending p i = true) → p ∈ calledPins newer) ∧
          ∀ i, t.pending p i = true → EdgeSince p acts i) := by
  have hinv : s.Inv := exec_inv (fun _ _ _ h hst => h.step hst) EdgeState.inv_initial hs
  have hentry : s.isrIoBank0 = { s with isr := .scan 0 } := by rw [EdgeState.isrIoBank0, hidle]
  have hstart : ServesPin p s [] [] s.isrIoBank0 := by
    refine ⟨hinv.isrIoBank0, ?_, ?_, ?_, ?_⟩ <;> rw [hentry]
    · exact le_rfl
    · rfl
    · exact ⟨List.Pairwise.nil, fun q hq => absurd hq List.not_mem_nil⟩
    · exact fun i hi => hi
  obtain ⟨newer, h⟩ := exec_history_of_allSteps
    (P := fun acts t => ∃ newer, ServesPin p s acts newer t)
    (fun _ _ _ _ h halone hst => h.elim fun _ h => h.step halone hst) ⟨[], hstart⟩ halone hrun
  refine ⟨by have := h.steps; omega, newer, h.log, ?_, fun ht => ?_⟩
  · rw [calledPins, List.filterMap_reverse, List.pairwise_reverse]
    exact h.order.1
  · have hstage := h.stage
    rw [ht] at hstage
    exact hstage

/-- Two pins are enabled, and there is an edge at the first one. -/
def beforeService (p q : Fin 30) : List (EdgeAct ℕ) :=
  [.call 0 (.setCallback p 100 0x01), .write 0, .write 0, .write 0, .write 0,
    .call 0 (.setCallback q 200 0x03), .write 0, .write 0, .write 0, .write 0, .edge p .fall]

/-- There is an edge at a pin when the callback of another one runs, and the callback of a third one
is set. -/
def duringService (q r : Fin 30) : List (EdgeAct ℕ) :=
  List.replicate 4 .isr ++ [.call 0 (.setCallback r 500 0x02), .write 0, .edge q .rise] ++
    List.replicate 33 .isr

/-- The routine calls the callback of pin 1 in a run in which pin 2 has an edge meanwhile. -/
theorem isr_serves_pending_two_pins :
    ∃ s t, exec EdgeState.step .initial (beforeService 1 2) = some s ∧
      exec EdgeState.serviceStep s.isrIoBank0 (duringService 2 5) = some t ∧
      t.isr = .idle ∧ s.pending 1 2 = true ∧
      ∃ newer, t.log = newer ++ s.log ∧ (calledPins newer.reverse).Pairwise (· < ·) ∧
        1 ∈ calledPins newer := by
  obtain ⟨-, newer, hlog, horder, hserved⟩ := isr_serves_pending (p := 1)
    (show exec EdgeState.step .initial (beforeService 1 2) = some _ from rfl) rfl
    (show AllSteps EdgeState.serviceStep (LeavesAlone 1) _ (duringService 2 5) by decide) rfl
  exact ⟨_, _, rfl, rfl, rfl, rfl, newer, hlog, horder, (hserved rfl).1 ⟨2, rfl⟩⟩

end JdPico
