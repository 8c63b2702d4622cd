import Mathlib.Data.List.Basic
import Mathlib.Data.List.Nodup
import Mathlib.Tactic

/-!
# Tables of last writes

Entries with a key are written to a table one after the other.  An entry whose key is not in the
table is added at its end, and any other takes the place of the entry with its key.  What the table
then holds can be said without reference to the order of these steps (`LastWrites`): one entry for
each key that was written, in the order in which the keys were first written, and each of them is
the latest that was written with its key.
-/

namespace Keyed

variable {α κ : Type*} [DecidableEq κ] {key : α → κ} {xs ys table : List α} {x : α}

/-- The keys that were written, in the order of the first writes. -/
def writtenKeys (key : α → κ) (xs : List α) : List κ := (xs.map key).eraseDups

/-- The table holds what is left of the writes `xs`. -/
structure LastWrites (key : α → κ) (xs table : List α) : Prop where
  /-- One entry for each key, in the order of the first writes. -/
  keys : table.map key = writtenKeys key xs
  /-- An entry is the latest write of its key. -/
  latest : ∀ e ∈ table, xs.reverse.find? (fun x => key x = key e) = some e

/-- One more key is kept if it is a new one. -/
lemma eraseDups_append_singleton (ks : List κ) (k : κ) :
    (ks ++ [k]).eraseDups = if k ∈ ks then ks.eraseDups else ks.eraseDups ++ [k] := by
  rw [List.eraseDups_append]
  by_cases hk : k ∈ ks <;> simp [List.removeAll, List.eraseDups_cons, hk]

lemma nodup_eraseDups (ks : List κ) : ks.eraseDups.Nodup := by
  induction ks using List.reverseRecOn with
  | nil => simp
  | append_singleton ks k ih =>
    rw [eraseDups_append_singleton]
    split_ifs with hk
    · exact ih
    · rw [List.nodup_append]
      refine ⟨ih, List.nodup_singleton k, ?_⟩
      rintro a ha b hb rfl
      obtain rfl := List.mem_singleton.mp hb
      exact hk (List.mem_eraseDups.mp ha)

lemma LastWrites.nil : LastWrites key [] [] := ⟨rfl, by simp⟩

lemma LastWrites.nodup (h : LastWrites key xs table) : (table.map key).Nodup :=
  h.keys ▸ nodup_eraseDups _

lemma LastWrites.length (h : LastWrites key xs table) :
    table.length = (writtenKeys key xs).length := by
  rw [← h.keys, List.length_map]

lemma LastWrites.mem_keys (h : LastWrites key xs table) {k : κ} :
    k ∈ xs.map key ↔ k ∈ table.map key := by
  rw [h.keys, writtenKeys, List.mem_eraseDups]

/-- The latest write of another key is what it was. -/
lemma find_append_of_ne {e : α} (hne : key x ≠ key e) :
    (xs ++ [x]).reverse.find? (fun y => key y = key e) =
      xs.reverse.find? (fun y => key y = key e) := by
  rw [List.reverse_append, List.reverse_singleton, List.singleton_append, List.find?_cons_of_neg]
  simpa using hne

/-- The latest write is the latest of its key. -/
lemma find_append_self : (xs ++ [x]).reverse.find? (fun y => key y = key x) = some x := by
  simp

/-- A write of a key that is not in the table is added at its end. -/
lemma LastWrites.append (h : LastWrites key xs table) (hnew : key x ∉ table.map key) :
    LastWrites key (xs ++ [x]) (table ++ [x]) where
  keys := by
    have hx : key x ∉ xs.map key := fun hmem => hnew (h.mem_keys.mp hmem)
    rw [writtenKeys, List.map_append, List.map_append, List.map_singleton,
      eraseDups_append_singleton, if_neg hx, h.keys, writtenKeys]
  latest e he := by
    rcases List.mem_append.mp he with he | he
    · have hne : key x ≠ key e := fun heq => hnew (heq ▸ List.mem_map_of_mem he)
      rw [find_append_of_ne hne]
      exact h.latest e he
    · obtain rfl := List.mem_singleton.mp he
      exact find_append_self

/-- A write of a key that is in the table takes the place of its entry. -/
lemma LastWrites.replace (h : LastWrites key xs table) {i : ℕ} {e : α} (hi : table[i]? = some e)
    (hkey : key e = key x) : LastWrites key (xs ++ [x]) (table.set i x) where
  keys := by
    have hsame : (table.set i x).map key = table.map key := by
      rw [List.map_set, ← hkey]
      refine List.ext_getElem? fun j => ?_
      by_cases hj : j = i
      · subst hj
        rw [List.getElem?_set_self', List.getElem?_map, hi]
        rfl
      · rw [List.getElem?_set_ne (Ne.symm hj)]
    have hx : key x ∈ xs.map key :=
      h.mem_keys.mpr (hkey ▸ List.mem_map_of_mem (List.mem_of_getElem? hi))
    rw [hsame, h.keys, writtenKeys, writtenKeys, List.map_append, List.map_singleton,
      eraseDups_append_singleton, if_pos hx]
  latest f hf := by
    obtain ⟨j, hj⟩ := List.getElem?_of_mem hf
    by_cases hij : i = j
    · subst hij
      rw [List.getElem?_set_self', hi] at hj
      obtain rfl := Option.some.inj hj
      exact find_append_self
    · rw [List.getElem?_set_ne hij] at hj
      have hne : key x ≠ key f := by
        intro heq
        -- the keys of the table are different at different places
        have h₁ : (table.map key)[i]? = some (key f) := by
          rw [List.getElem?_map, hi, Option.map_some, hkey, heq]
        have h₂ : (table.map key)[j]? = some (key f) := by
          rw [List.getElem?_map, hj, Option.map_some]
        have hlt : i < (table.map key).length := (List.getElem?_eq_some_iff.mp h₁).1
        exact hij ((List.getElem?_inj hlt h.nodup).mp (h₁.trans h₂.symm))
      rw [find_append_of_ne hne]
      exact h.latest f (List.mem_of_getElem? hj)

end Keyed
