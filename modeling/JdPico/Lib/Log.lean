import Mathlib.Data.List.Basic
import Mathlib.Tactic

/-!
# Logs

A log is a list of what happened, newest entry first.  What came before an entry is said by
splitting the log there: `log = newer ++ x :: older`.  The rules below say where a log that has
grown can be split: at one of the new entries, or where the old log could be.
-/

namespace Log

variable {α : Type*} {x e : α} {log m newer older : List α}

/-- A log with one more entry is split at that entry, or further down. -/
lemma split_cons (h : e :: log = newer ++ x :: older) :
    e = x ∧ log = older ∨ ∃ newer', log = newer' ++ x :: older := by
  cases newer with
  | nil => exact .inl (List.cons.inj h)
  | cons y newer => exact .inr ⟨newer, (List.cons.inj h).2⟩

/-- A log with one more entry is not split there if the entry is another one. -/
lemma split_of_ne (he : e ≠ x) (h : e :: log = newer ++ x :: older) :
    ∃ newer', log = newer' ++ x :: older := by
  rcases split_cons h with ⟨heq, -⟩ | hsplit
  · exact absurd heq he
  · exact hsplit

/-- A log that has grown by other entries is split where it could be split before. -/
lemma split_of_notMem (hx : x ∉ m) (h : m ++ log = newer ++ x :: older) :
    ∃ newer', log = newer' ++ x :: older := by
  induction m generalizing newer with
  | nil => exact ⟨newer, h⟩
  | cons e m ih =>
    have he : e ≠ x := by
      rintro rfl
      exact hx List.mem_cons_self
    obtain ⟨newer', hrest⟩ := split_of_ne he h
    exact ih (fun hmem => hx (List.mem_cons_of_mem _ hmem)) hrest

end Log
