import Mathlib.Data.List.Basic
import Mathlib.Tactic

/-!
# Mailboxes

A mailbox holds one value and a flag.  To put a value into it replaces the one that is there and
sets the flag; to take the value out resets the flag.  Values that are replaced before they are
taken are lost, which is what a mailbox is for: what counts is the latest value.

`Delivers` says what can be relied on: the values taken are among those put, in the same order and
each at most once, and the latest value is either the last one taken or still there.
-/

namespace Mailbox

variable {α : Type*} {puts taken : List α} {value : α} {dirty : Bool}

/-- After the values `puts` were put into a mailbox and `taken` were taken out of it, both in this
order, it holds `value`. -/
structure Delivers (puts taken : List α) (value : α) (dirty : Bool) : Prop where
  sublist : taken.Sublist puts
  /-- The latest value was taken, and nothing after it. -/
  clean : dirty = false → taken.getLast? = puts.getLast?
  /-- The latest value is there, and was not taken. -/
  dirty : dirty = true → ∃ earlier, puts = earlier ++ [value] ∧ taken.Sublist earlier

lemma Delivers.initial (value : α) : Delivers [] [] value false :=
  ⟨.slnil, fun _ => rfl, fun h => absurd h Bool.false_ne_true⟩

/-- A value is put into the mailbox. -/
lemma Delivers.put (h : Delivers puts taken value dirty) (new : α) :
    Delivers (puts ++ [new]) taken new true :=
  ⟨h.sublist.trans (List.sublist_append_left puts [new]), fun hclean => absurd hclean (by simp),
    fun _ => ⟨puts, rfl, h.sublist⟩⟩

/-- The value is taken out. -/
lemma Delivers.take (h : Delivers puts taken value true) :
    Delivers puts (taken ++ [value]) value false := by
  obtain ⟨earlier, rfl, hsub⟩ := h.dirty rfl
  refine ⟨hsub.append_right [value], fun _ => ?_, fun hdirty => absurd hdirty (by simp)⟩
  rw [List.getLast?_append, List.getLast?_append]
  rfl

end Mailbox
