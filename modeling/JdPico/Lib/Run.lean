import Mathlib.Data.List.Basic
import Mathlib.Tactic

/-!
# Runs of a partial transition function

A machine is a partial transition function `step : σ → ι → Option σ`: the result is `none` when the
input is not possible in the state, or when the machine stops on it.  `exec step s is` feeds the
list of inputs `is` to the machine started in `s`.

`AllSteps step C s is` says that every input of the run is taken in a state that meets the condition
`C`; it is how a property of a whole run is made conditional on what each of its steps does.  The
rules below turn a fact about one step into a fact about every run: `exec_inv` for an invariant,
`exec_inv_of_allSteps` for an invariant that needs the step condition, `allStates_iff_allSteps` for
one that holds exactly under it, `exec_refines_of_allSteps` for an abstraction function,
`exec_countdown` for a bound that some of the steps lower, `exec_history` for what relates the
inputs so far to the state, `exec_outputs` for what relates the outputs so far to it, and
`exec_simulates_of_allSteps` for a second machine that takes several steps for each one.
`foldl_history` and `foldl_view` are for machines that take every input.
-/

namespace Machine

variable {σ τ ι : Type*}

/-- Feed a list of inputs to a partial transition function. -/
def exec (step : σ → ι → Option σ) : σ → List ι → Option σ
  | s, [] => some s
  | s, i :: is => (step s i).bind fun t => exec step t is

/-- What the steps of a run put out, one after the other. -/
def outputs (step : σ → ι → Option σ) (out : σ → ι → List τ) : σ → List ι → List τ
  | _, [] => []
  | s, i :: is =>
    out s i ++ match step s i with
      | some t => outputs step out t is
      | none => []

/-- Every input of the run is taken in a state that meets the condition `C`. -/
def AllSteps (step : σ → ι → Option σ) (C : σ → ι → Prop) : σ → List ι → Prop
  | _, [] => True
  | s, i :: is => C s i ∧ ∀ t, step s i = some t → AllSteps step C t is

/-- Every state the run goes through satisfies `P`. -/
def AllStates (step : σ → ι → Option σ) (P : σ → Prop) : σ → List ι → Prop
  | s, [] => P s
  | s, i :: is => P s ∧ ∀ t, step s i = some t → AllStates step P t is

/-- The condition on the steps of a run can be evaluated along the run. -/
instance AllSteps.decidable (step : σ → ι → Option σ) (C : σ → ι → Prop)
    [∀ s i, Decidable (C s i)] : ∀ s is, Decidable (AllSteps step C s is)
  | _, [] => .isTrue trivial
  | s, i :: is =>
    match hst : step s i with
    | none => decidable_of_iff (C s i) (by simp [AllSteps, hst])
    | some t =>
      have := AllSteps.decidable step C t is
      decidable_of_iff (C s i ∧ AllSteps step C t is) (by simp [AllSteps, hst])

/-- So can a property of the states. -/
instance AllStates.decidable (step : σ → ι → Option σ) (P : σ → Prop) [∀ s, Decidable (P s)] :
    ∀ s is, Decidable (AllStates step P s is)
  | s, [] => inferInstanceAs (Decidable (P s))
  | s, i :: is =>
    match hst : step s i with
    | none => decidable_of_iff (P s) (by simp [AllStates, hst])
    | some t =>
      have := AllStates.decidable step P t is
      decidable_of_iff (P s ∧ AllStates step P t is) (by simp [AllStates, hst])

/-- A state is reachable if some run from the initial state ends in it. -/
def Reachable (step : σ → ι → Option σ) (init s : σ) : Prop :=
  ∃ is, exec step init is = some s

variable {step : σ → ι → Option σ} {C : σ → ι → Prop} {s u : σ} {i : ι} {is : List ι}

@[simp] lemma exec_nil : exec step s [] = some s := rfl

/-- A run is its first step followed by the rest of the run. -/
lemma exec_cons : exec step s (i :: is) = some u ↔
    ∃ t, step s i = some t ∧ exec step t is = some u :=
  Option.bind_eq_some_iff

/-- A run on two lists of inputs is a run on the first followed by one on the second. -/
lemma exec_append {js : List ι} :
    exec step s (is ++ js) = some u ↔ ∃ t, exec step s is = some t ∧ exec step t js = some u := by
  induction is generalizing s with
  | nil => simp
  | cons i is ih =>
    rw [List.cons_append, exec_cons]
    constructor
    · rintro ⟨t, hst, htu⟩
      obtain ⟨r, htr, hru⟩ := ih.mp htu
      exact ⟨r, exec_cons.mpr ⟨t, hst, htr⟩, hru⟩
    · rintro ⟨r, hsr, hru⟩
      obtain ⟨t, hst, htr⟩ := exec_cons.mp hsr
      exact ⟨t, hst, ih.mpr ⟨r, htr, hru⟩⟩

lemma Reachable.refl : Reachable step s s := ⟨[], rfl⟩

lemma Reachable.trans {t : σ} (h₁ : Reachable step s t) (h₂ : Reachable step t u) :
    Reachable step s u := by
  obtain ⟨is, his⟩ := h₁
  obtain ⟨js, hjs⟩ := h₂
  exact ⟨is ++ js, exec_append.mpr ⟨t, his, hjs⟩⟩

lemma Reachable.single (h : step s i = some u) : Reachable step s u :=
  ⟨[i], exec_cons.mpr ⟨u, h, rfl⟩⟩

/-- A condition on the inputs alone holds along the run if every input meets it. -/
lemma AllSteps.of_forall_mem {D : ι → Prop} (h : ∀ i ∈ is, D i) :
    AllSteps step (fun _ i => D i) s is := by
  induction is generalizing s with
  | nil => trivial
  | cons i is ih =>
    exact ⟨h i List.mem_cons_self, fun t _ => ih fun j hj => h j (List.mem_cons_of_mem _ hj)⟩

/-- Two conditions on the steps of a run are one. -/
lemma AllSteps.and {D : σ → ι → Prop} (hC : AllSteps step C s is) (hD : AllSteps step D s is) :
    AllSteps step (fun s i => C s i ∧ D s i) s is := by
  induction is generalizing s with
  | nil => trivial
  | cons i is ih => exact ⟨⟨hC.1, hD.1⟩, fun t ht => ih (hC.2 t ht) (hD.2 t ht)⟩

/-- The steps of the rest of a run meet the condition in the state the first part leads to. -/
lemma AllSteps.of_append {js : List ι} (hC : AllSteps step C s (is ++ js))
    (hrun : exec step s is = some u) : AllSteps step C s is ∧ AllSteps step C u js := by
  induction is generalizing s with
  | nil =>
    rw [exec_nil, Option.some.injEq] at hrun
    exact ⟨trivial, hrun ▸ hC⟩
  | cons i is ih =>
    obtain ⟨t, hst, htu⟩ := exec_cons.mp hrun
    obtain ⟨hfirst, hrest⟩ := ih (hC.2 t hst) htu
    exact ⟨⟨hC.1, fun r hr => Option.some.inj (hst.symm.trans hr) ▸ hfirst⟩, hrest⟩

/-- An invariant of every step that meets the step condition is an invariant of every run whose
steps all meet it. -/
lemma exec_inv_of_allSteps {P : σ → Prop}
    (hstep : ∀ s i t, P s → C s i → step s i = some t → P t)
    (hs : P s) (hC : AllSteps step C s is) (hrun : exec step s is = some u) : P u := by
  induction is generalizing s with
  | nil =>
    rw [exec_nil, Option.some.injEq] at hrun
    exact hrun ▸ hs
  | cons i is ih =>
    obtain ⟨t, hst, htu⟩ := exec_cons.mp hrun
    exact ih (hstep s i t hs hC.1 hst) (hC.2 t hst) htu

/-- The first state of a run is one of its states. -/
lemma AllStates.head {P : σ → Prop} (h : AllStates step P s is) : P s := by
  cases is with
  | nil => exact h
  | cons i is => exact h.1

/-- An invariant of every step from a state that satisfies `Q` is an invariant of every run whose
states all satisfy `Q`. -/
lemma exec_inv_of_allStates {P Q : σ → Prop}
    (hstep : ∀ s i t, P s → Q s → step s i = some t → P t)
    (hs : P s) (hQ : AllStates step Q s is) (hrun : exec step s is = some u) : P u ∧ Q u := by
  induction is generalizing s with
  | nil =>
    rw [exec_nil, Option.some.injEq] at hrun
    subst hrun
    exact ⟨hs, hQ⟩
  | cons i is ih =>
    obtain ⟨t, hst, htu⟩ := exec_cons.mp hrun
    exact ih (hstep s i t hs hQ.1 hst) (hQ.2 t hst) htu

/-- In a run whose steps all meet `D`: if a step from a state that satisfies `P` and an invariant
keeps `P` exactly when it meets the step condition, then all states of the run satisfy `P` exactly
when all its steps meet the condition. -/
lemma AllSteps.allStates_iff_allSteps {I P : σ → Prop} {D : σ → ι → Prop}
    (hinv : ∀ s i t, I s → D s i → step s i = some t → I t)
    (hstep : ∀ s i t, I s → P s → D s i → step s i = some t → (P t ↔ C s i))
    (hI : I s) (hs : P s) (hD : AllSteps step D s is) (hrun : exec step s is = some u) :
    AllStates step P s is ↔ AllSteps step C s is := by
  induction is generalizing s with
  | nil => exact ⟨fun _ => trivial, fun _ => hs⟩
  | cons i is ih =>
    obtain ⟨t, hst, htu⟩ := exec_cons.mp hrun
    have hnext : ∀ {Q : σ → Prop}, (∀ r, step s i = some r → Q r) ↔ Q t :=
      ⟨fun h => h t hst, fun h r hr => Option.some.inj (hst.symm.trans hr) ▸ h⟩
    rw [AllStates, AllSteps, hnext, hnext]
    have hkeep := hstep s i t hI hs hD.1 hst
    have hrest := fun ht => ih (hinv s i t hI hD.1 hst) ht (hD.2 t hst) htu
    constructor
    · rintro ⟨-, h⟩
      exact ⟨hkeep.mp h.head, (hrest h.head).mp h⟩
    · rintro ⟨hC, h⟩
      exact ⟨hs, (hrest (hkeep.mpr hC)).mpr h⟩

/-- The same for all runs. -/
lemma allStates_iff_allSteps_of_inv {I P : σ → Prop}
    (hinv : ∀ s i t, I s → step s i = some t → I t)
    (hstep : ∀ s i t, I s → P s → step s i = some t → (P t ↔ C s i))
    (hI : I s) (hs : P s) (hrun : exec step s is = some u) :
    AllStates step P s is ↔ AllSteps step C s is :=
  AllSteps.allStates_iff_allSteps (D := fun _ _ => True) (fun s i t h _ => hinv s i t h)
    (fun s i t h hP _ => hstep s i t h hP) hI hs (.of_forall_mem fun _ _ => trivial) hrun

/-- The same without an invariant. -/
lemma allStates_iff_allSteps {P : σ → Prop}
    (hstep : ∀ s i t, P s → step s i = some t → (P t ↔ C s i))
    (hs : P s) (hrun : exec step s is = some u) : AllStates step P s is ↔ AllSteps step C s is :=
  allStates_iff_allSteps_of_inv (I := fun _ => True) (fun _ _ _ _ _ => trivial)
    (fun s i t _ => hstep s i t) trivial hs hrun

/-- Refinement by an abstraction function: if every step from a state that satisfies the invariant
and meets the step condition moves the abstraction as `f` does, a whole run moves it as the fold
of `f`. -/
lemma exec_refines_of_allSteps {α : Type*} {P : σ → Prop} {abs : σ → α} {f : α → ι → α}
    (hstep : ∀ s i t, P s → C s i → step s i = some t → P t ∧ abs t = f (abs s) i)
    (hs : P s) (hC : AllSteps step C s is) (hrun : exec step s is = some u) :
    P u ∧ abs u = is.foldl f (abs s) := by
  induction is generalizing s with
  | nil =>
    rw [exec_nil, Option.some.injEq] at hrun
    subst hrun
    exact ⟨hs, rfl⟩
  | cons i is ih =>
    obtain ⟨t, hst, htu⟩ := exec_cons.mp hrun
    obtain ⟨ht, habs⟩ := hstep s i t hs hC.1 hst
    rw [List.foldl_cons, ← habs]
    exact ih ht (hC.2 t hst) htu

/-- An invariant of every step is an invariant of every run. -/
lemma exec_inv {P : σ → Prop} (hstep : ∀ s i t, P s → step s i = some t → P t)
    (hs : P s) (hrun : exec step s is = some u) : P u := by
  induction is generalizing s with
  | nil =>
    rw [exec_nil, Option.some.injEq] at hrun
    exact hrun ▸ hs
  | cons i is ih =>
    obtain ⟨t, hst, htu⟩ := exec_cons.mp hrun
    exact ih (hstep s i t hs hst) htu

/-- What holds of the inputs so far and the state, and is kept by every step that meets the step
condition, holds of the inputs of a whole run whose steps meet it and the state it leads to. -/
lemma exec_history_of_allSteps {P : List ι → σ → Prop}
    (hstep : ∀ is s i t, P is s → C s i → step s i = some t → P (is ++ [i]) t)
    (hs : P [] s) (hC : AllSteps step C s is) (hrun : exec step s is = some u) : P is u := by
  suffices h : ∀ before s, P before s → AllSteps step C s is → exec step s is = some u →
      P (before ++ is) u from h [] s hs hC hrun
  clear hs hC hrun
  induction is with
  | nil =>
    intro before s hs _ hrun
    rw [exec_nil, Option.some.injEq] at hrun
    exact (List.append_nil before).symm ▸ hrun ▸ hs
  | cons i is ih =>
    intro before s hs hC hrun
    obtain ⟨t, hst, htu⟩ := exec_cons.mp hrun
    have hrest := ih (before ++ [i]) t (hstep before s i t hs hC.1 hst) (hC.2 t hst) htu
    rwa [List.append_assoc, List.singleton_append] at hrest

/-- The same for all runs. -/
lemma exec_history {P : List ι → σ → Prop}
    (hstep : ∀ is s i t, P is s → step s i = some t → P (is ++ [i]) t)
    (hs : P [] s) (hrun : exec step s is = some u) : P is u :=
  exec_history_of_allSteps (C := fun _ _ => True) (fun is s i t h _ => hstep is s i t h) hs
    (.of_forall_mem fun _ _ => trivial) hrun

/-- What holds of the outputs so far and the state, and is kept by every step, holds of the outputs
of a run and the state it leads to. -/
lemma exec_outputs {P : List τ → σ → Prop} {out : σ → ι → List τ}
    (hstep : ∀ o s i t, P o s → step s i = some t → P (o ++ out s i) t)
    (hs : P [] s) (hrun : exec step s is = some u) : P (outputs step out s is) u := by
  suffices h : ∀ o s, P o s → exec step s is = some u → P (o ++ outputs step out s is) u from
    h [] s hs hrun
  clear hs hrun
  induction is with
  | nil =>
    intro o s hs hrun
    rw [exec_nil, Option.some.injEq] at hrun
    exact (List.append_nil o).symm ▸ hrun ▸ hs
  | cons i is ih =>
    intro o s hs hrun
    obtain ⟨t, hst, htu⟩ := exec_cons.mp hrun
    have hrest := ih (o ++ out s i) t (hstep o s i t hs hst) htu
    rw [List.append_assoc] at hrest
    rwa [outputs, hst]

/-- A countdown: if every step keeps a bound and the steps marked by `tick` lower it by one, a run
lowers it by the number of its marked steps. -/
lemma exec_countdown {P : ℕ → σ → Prop} {tick : ι → Bool}
    (hstep : ∀ n s i t, P n s → C s i → step s i = some t →
      P (n - if tick i then 1 else 0) t)
    {n : ℕ} (hs : P n s) (hC : AllSteps step C s is) (hrun : exec step s is = some u) :
    P (n - is.countP tick) u := by
  induction is generalizing s n with
  | nil =>
    rw [exec_nil, Option.some.injEq] at hrun
    exact hrun ▸ hs
  | cons i is ih =>
    obtain ⟨t, hst, htu⟩ := exec_cons.mp hrun
    have hrest := ih (hstep n s i t hs hC.1 hst) (hC.2 t hst) htu
    rwa [Nat.sub_sub, Nat.add_comm, ← List.countP_cons] at hrest

/-- An invariant holds in every reachable state. -/
lemma Reachable.inv {P : σ → Prop} (hstep : ∀ s i t, P s → step s i = some t → P t)
    (hs : P s) (h : Reachable step s u) : P u := by
  obtain ⟨is, his⟩ := h
  exact exec_inv hstep hs his

/-- Two machines that are related and whose related states step to related states stay related
along every run on the same inputs that the first machine completes; the second machine completes
it too. -/
lemma exec_rel {step' : τ → ι → Option τ} {R : σ → τ → Prop}
    (hstep : ∀ s i t s', R s s' → step s i = some t → ∃ t', step' s' i = some t' ∧ R t t')
    {s' : τ} (hs : R s s') (hrun : exec step s is = some u) :
    ∃ u', exec step' s' is = some u' ∧ R u u' := by
  induction is generalizing s s' with
  | nil =>
    rw [exec_nil, Option.some.injEq] at hrun
    exact ⟨s', rfl, hrun ▸ hs⟩
  | cons i is ih =>
    obtain ⟨t, hst, htu⟩ := exec_cons.mp hrun
    obtain ⟨t', hst', htt'⟩ := hstep s i t s' hs hst
    obtain ⟨u', htu', huu'⟩ := ih htt' htu
    exact ⟨u', exec_cons.mpr ⟨t', hst', htu'⟩, huu'⟩

/-- The outputs of a run on two lists of inputs. -/
lemma outputs_append {out : σ → ι → List τ} {t : σ} {js : List ι} (h : exec step s is = some t) :
    outputs step out s (is ++ js) = outputs step out s is ++ outputs step out t js := by
  induction is generalizing s with
  | nil =>
    rw [exec_nil, Option.some.injEq] at h
    subst h
    rfl
  | cons i is ih =>
    obtain ⟨v, hst, hvt⟩ := exec_cons.mp h
    rw [List.cons_append, outputs, outputs, hst, List.append_assoc]
    exact congrArg _ (ih hvt)

/-- Forward simulation.  Each step of the first machine that meets the condition is matched by a
sequence of steps of the second one, with the same outputs.  Then the second machine completes the
sequences for every such run of the first, with the same outputs, and the two stay related. -/
lemma exec_simulates_of_allSteps {κ ω : Type*} {step' : τ → κ → Option τ} {R : σ → τ → Prop}
    {acts : σ → ι → List κ} {out : σ → ι → List ω} {out' : τ → κ → List ω}
    (hstep : ∀ s i t s', R s s' → C s i → step s i = some t →
      ∃ t', exec step' s' (acts s i) = some t' ∧ R t t' ∧
        outputs step' out' s' (acts s i) = out s i)
    {s' : τ} (hs : R s s') (hC : AllSteps step C s is) (hrun : exec step s is = some u) :
    ∃ u', exec step' s' (outputs step acts s is) = some u' ∧ R u u' ∧
      outputs step' out' s' (outputs step acts s is) = outputs step out s is := by
  induction is generalizing s s' with
  | nil =>
    rw [exec_nil, Option.some.injEq] at hrun
    exact ⟨s', rfl, hrun ▸ hs, rfl⟩
  | cons i is ih =>
    obtain ⟨t, hst, htu⟩ := exec_cons.mp hrun
    obtain ⟨t', hst', htt', hout⟩ := hstep s i t s' hs hC.1 hst
    obtain ⟨u', htu', huu', houts⟩ := ih htt' (hC.2 t hst) htu
    rw [outputs, outputs, hst]
    refine ⟨u', exec_append.mpr ⟨t', hst', htu'⟩, huu', ?_⟩
    rw [outputs_append hst', hout]
    exact congrArg _ houts

/-! ### Total machines -/

/-- What holds of the inputs so far and the state, and is kept by every step, holds after all of the
inputs. -/
lemma foldl_history {P : List ι → σ → Prop} {next : σ → ι → σ}
    (hnext : ∀ is s i, P is s → P (is ++ [i]) (next s i)) (hs : P [] s) (is : List ι) :
    P is (is.foldl next s) := by
  induction is using List.reverseRecOn with
  | nil => exact hs
  | append_singleton is i ih =>
    rw [List.foldl_append]
    exact hnext is _ i ih

/-- If every input changes one part of the state by itself or leaves it alone, a run changes the
part as the inputs that touch it do, without the others. -/
lemma foldl_view {ν : Type*} {view : σ → ν} {next : σ → ι → σ} {f : ν → ι → ν} {touches : ι → Bool}
    (hnext : ∀ s i, view (next s i) = if touches i then f (view s) i else view s) (s : σ)
    (is : List ι) : view (is.foldl next s) = (is.filter touches).foldl f (view s) := by
  induction is generalizing s with
  | nil => rfl
  | cons i is ih =>
    rw [List.foldl_cons, ih, hnext]
    by_cases hi : touches i
    · rw [if_pos hi, List.filter_cons_of_pos hi, List.foldl_cons]
    · rw [if_neg hi, List.filter_cons_of_neg hi]

end Machine
