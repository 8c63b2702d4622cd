import Mathlib.Data.List.Destutter
import Mathlib.Tactic

/-!
# Reporting changes

Something has a value that is looked at again and again; only when it differs from the last one is
it reported.  What is reported is the sequence of the values without repetitions (`List.destutter'`
of the library), without the first one, which is known before.
-/

namespace Changes

variable {α : Type*} [DecidableEq α] {start last : α} {seen reported : List α}

/-- From `start` on, `seen` was seen and `reported` was reported, and `last` is the last value. -/
structure Reports (start : α) (seen reported : List α) (last : α) : Prop where
  changes : start :: reported = seen.destutter' (· ≠ ·) start
  lastSeen : (start :: seen).getLast? = some last
  lastReported : (start :: reported).getLast? = some last

/-- Nothing was seen yet. -/
lemma Reports.initial (start : α) : Reports start [] [] start := ⟨rfl, rfl, rfl⟩

/-- The sequence begins with the value that is known before. -/
lemma cons_tail_destutter' (start : α) (l : List α) :
    start :: (l.destutter' (· ≠ ·) start).tail = l.destutter' (· ≠ ·) start := by
  induction l with
  | nil => rfl
  | cons x l ih =>
    by_cases hx : start = x
    · rwa [List.destutter'_cons_neg _ (not_not.mpr hx)]
    · rw [List.destutter'_cons_pos _ hx, List.tail_cons]

/-- The changes of a sequence are those of its parts. -/
lemma destutter'_append (start : α) (l m : List α) (h : (start :: l).getLast? = some last) :
    (l ++ m).destutter' (· ≠ ·) start =
      l.destutter' (· ≠ ·) start ++ (m.destutter' (· ≠ ·) last).tail := by
  induction l generalizing start with
  | nil =>
    obtain rfl : start = last := by simpa using h
    exact (cons_tail_destutter' start m).symm
  | cons y l ih =>
    have hlast : (y :: l).getLast? = some last := by simpa using h
    by_cases hy : start = y
    · subst hy
      rw [List.cons_append, List.destutter'_cons_neg _ (by simp), ih start hlast,
        List.destutter'_cons_neg _ (by simp)]
    · rw [List.cons_append, List.destutter'_cons_pos _ hy, ih y hlast,
        List.destutter'_cons_pos _ hy, List.cons_append]

/-- One more value is kept if it differs from the last one. -/
lemma destutter'_concat (start x : α) (seen : List α) (h : (start :: seen).getLast? = some last) :
    (seen ++ [x]).destutter' (· ≠ ·) start =
      seen.destutter' (· ≠ ·) start ++ if last ≠ x then [x] else [] := by
  rw [destutter'_append start seen [x] h]
  by_cases hx : last = x <;> simp [hx]

/-- The same value is seen again. -/
lemma Reports.same (h : Reports start seen reported last) :
    Reports start (seen ++ [last]) reported last := by
  refine ⟨?_, by rw [← List.cons_append, List.getLast?_concat], h.lastReported⟩
  rw [destutter'_concat start last seen h.lastSeen, h.changes]
  simp

/-- A new value is seen and reported. -/
lemma Reports.change (h : Reports start seen reported last) {x : α} (hx : last ≠ x) :
    Reports start (seen ++ [x]) (reported ++ [x]) x := by
  refine ⟨?_, by rw [← List.cons_append, List.getLast?_concat],
    by rw [← List.cons_append, List.getLast?_concat]⟩
  rw [destutter'_concat start x seen h.lastSeen, if_pos hx, ← h.changes, List.cons_append]

/-- One more look, with a report if the value has changed. -/
lemma Reports.look (h : Reports start seen reported last) (x : α) :
    Reports start (seen ++ [x]) (reported ++ if last ≠ x then [x] else []) x := by
  by_cases hx : last = x
  · subst hx
    simpa using h.same
  · rw [if_pos hx]
    exact h.change hx

/-- No value is reported twice in a row. -/
lemma Reports.isChain (h : Reports start seen reported last) :
    (start :: reported).IsChain (· ≠ ·) := by
  rw [h.changes]
  exact List.isChain_destutter' _ _ _

/-! ### Sequences with the same changes -/

/-- From `start` on, two sequences have the same changes, and both end with `last`. -/
structure SameChanges (start : α) (l m : List α) (last : α) : Prop where
  changes : l.destutter' (· ≠ ·) start = m.destutter' (· ≠ ·) start
  left : (start :: l).getLast? = some last
  right : (start :: m).getLast? = some last

lemma SameChanges.nil (start : α) : SameChanges start [] [] start := ⟨rfl, rfl, rfl⟩

omit [DecidableEq α] in
/-- The last value of two sequences, of which the second one begins where the first one ends. -/
lemma getLast?_append_of_eq {mid : α} {l m : List α} (hl : (start :: l).getLast? = some mid)
    (hm : (mid :: m).getLast? = some last) : (start :: (l ++ m)).getLast? = some last := by
  rw [← List.cons_append, List.getLast?_append, hl, ← hm, ← List.singleton_append (l := m),
    List.getLast?_append]
  rfl

/-- Sequences can be put together. -/
lemma SameChanges.append {mid : α} {l l' m m' : List α} (h : SameChanges start l m mid)
    (h' : SameChanges mid l' m' last) : SameChanges start (l ++ l') (m ++ m') last := by
  refine ⟨?_, getLast?_append_of_eq h.left h'.left, getLast?_append_of_eq h.right h'.right⟩
  rw [destutter'_append start l l' h.left, destutter'_append start m m' h.right, h.changes,
    h'.changes]

end Changes
