import JdPico.Lib.Keyed
import JdPico.Wifi.Model

/-!
# The table of access points

`scan_result` should leave one entry for each access point that was reported with a name, in the
order of their first reports, and each entry should be the latest report of its access point.  That
is the table of last writes, with the address of the access point as the key.

The table is enlarged from nothing to five entries and then to a little more than twice its size, so
its size is always `5 * (2 ^ k - 1)`.  The size is kept in 16 bits: the thirteenth enlargement gives
40955 entries, and one more would overflow.  With fewer access points than that, no access to the
table is out of bounds and `scan_size` is the number of entries that are allocated.
-/

namespace JdPico

open Machine Keyed

/-- The entries for the results of a list that have a name. -/
def namedEntries (fields : WifiFields) (results : List (Option ScanResult)) : List WifiResult :=
  results.filterMap fun result =>
    result.bind fun r => if r.Named then some (scanEntry fields r) else none

/-- The table holds the latest reports. -/
structure ScanTable.Holds (fields : WifiFields) (results : List (Option ScanResult))
    (t : ScanTable) : Prop where
  /-- The entries in use are the latest reports of the access points, in the order of their first
  reports. -/
  entries : ∃ table, t.used = table.map some ∧
    LastWrites WifiResult.bssid (namedEntries fields results) table
  ptr_le : t.scanPtr ≤ t.scanSize
  /-- `scan_size` is the number of allocated entries. -/
  allocated : t.scanRes.length = t.scanSize.toNat
  /-- A result without a name, or none at all, changes nothing. -/
  ignored : ∀ result, (∀ r, result = some r → ¬r.Named) → scanResult fields result t = some t
  /-- The entries in use are kept when the table is enlarged. -/
  kept : ∀ result u, scanResult fields result t = some u → u.scanRes.length ≠ t.scanRes.length →
    u.scanRes.take t.scanPtr.toNat = t.used

namespace ScanTable

variable {t : ScanTable} {xs table : List WifiResult} {ent : WifiResult}

/-- What holds of the table after the entries `xs` were put into it. -/
structure Inv (xs : List WifiResult) (t : ScanTable) : Prop where
  entries : ∃ table, t.used = table.map some ∧ LastWrites WifiResult.bssid xs table
  ptr_le : t.scanPtr.toNat ≤ t.scanSize.toNat
  allocated : t.scanRes.length = t.scanSize.toNat
  size : ∃ k, t.scanSize.toNat = 5 * (2 ^ k - 1)

/-- The number of entries in use. -/
lemma Inv.length_eq (h : t.Inv xs) (hused : t.used = table.map some) :
    table.length = t.scanPtr.toNat := by
  have hlen := congrArg List.length hused
  rw [used, List.length_take, List.length_map, h.allocated] at hlen
  have := h.ptr_le
  omega

/-- The search finds the entry with the address, if there is one. -/
lemma find_spec (bssid : Vector UInt8 6) {res : List (Option WifiResult)} {i n : ℕ}
    (hres : ∀ (j : ℕ) e, table[j]? = some e → res[j]? = some (some e)) (hn : i + n = table.length) :
    (∃ j e, find bssid res i n = some (some j) ∧ table[j]? = some e ∧ e.bssid = bssid) ∨
      find bssid res i n = some none ∧
        ∀ (j : ℕ) e, i ≤ j → table[j]? = some e → e.bssid ≠ bssid := by
  induction n generalizing i with
  | zero =>
    refine .inr ⟨rfl, ?_⟩
    intro j e hij hj
    have := (List.getElem?_eq_some_iff.mp hj).1
    omega
  | succ n ih =>
    have hi : i < table.length := by omega
    have hfirst : table[i]? = some table[i] := List.getElem?_eq_getElem hi
    by_cases hb : table[i].bssid = bssid
    · refine .inl ⟨i, table[i], ?_, hfirst, hb⟩
      simp [find, hres i _ hfirst, hb]
    · have hstep : find bssid res i (n + 1) = find bssid res (i + 1) n := by
        simp [find, hres i _ hfirst, hb]
      rw [hstep]
      have hnext : i + 1 + n = table.length := by omega
      rcases ih hnext with hfound | ⟨hnone, hother⟩
      · exact .inl hfound
      · refine .inr ⟨hnone, ?_⟩
        intro j e hij hj
        rcases Nat.eq_or_lt_of_le hij with rfl | hlt
        · exact Option.some.inj (hfirst.symm.trans hj) ▸ hb
        · exact hother j e hlt hj

/-- The entries in use can be read in the table. -/
lemma getElem?_of_used (hused : t.used = table.map some) {j : ℕ} {e : WifiResult}
    (hj : table[j]? = some e) : t.scanRes[j]? = some (some e) := by
  have hmap : t.used[j]? = some (some e) := by
    rw [hused, List.getElem?_map, hj]
    rfl
  have hlt : j < t.scanPtr.toNat := by
    have := (List.getElem?_eq_some_iff.mp hmap).1
    rw [used, List.length_take] at this
    omega
  rwa [used, List.getElem?_take_of_lt hlt] at hmap

/-- The entries in use are the same in the larger table. -/
lemma grow_used {v : ScanTable} (h : t.grow = some v) :
    v.used = t.used ∧ v.scanPtr = t.scanPtr := by
  obtain ⟨hfit, rfl⟩ : _ ∧ _ = v := by
    simpa only [ScanTable.grow, Option.ite_none_right_eq_some, Option.some.injEq] using h
  exact ⟨List.take_left' (List.length_take_of_le hfit.2), rfl⟩

/-- A table that is full and has fewer than 40954 entries is enlarged without an overflow. -/
lemma Inv.grow (h : t.Inv xs) (hfull : t.scanSize ≤ t.scanPtr)
    (hfew : t.scanPtr.toNat + 1 < 40955) :
    ∃ u, t.grow = some u ∧ u.Inv xs ∧ u.scanPtr.toNat < u.scanSize.toNat ∧ u.used = t.used := by
  obtain ⟨k, hk⟩ := h.size
  have hptr := h.ptr_le
  rw [UInt16.le_iff_toNat_le] at hfull
  have hsmall : k ≤ 12 := by
    by_contra hlarge
    have : 2 ^ 13 ≤ 2 ^ k := Nat.pow_le_pow_right (by omega) (by omega)
    omega
  have hpow : 2 ^ k ≤ 2 ^ 12 := Nat.pow_le_pow_right (by omega) hsmall
  have hpos : 1 ≤ 2 ^ k := Nat.one_le_two_pow
  have hsize : (t.scanSize * 2 + 5).toNat = t.scanSize.toNat * 2 + 5 := by
    rw [UInt16.toNat_add, UInt16.toNat_mul, show (2 : UInt16).toNat = 2 from rfl,
      show (5 : UInt16).toNat = 5 from rfl]
    omega
  have hfit : t.scanPtr.toNat ≤ (List.replicate (t.scanSize * 2 + 5).toNat
      (none : Option WifiResult)).length ∧ t.scanPtr.toNat ≤ t.scanRes.length := by
    rw [List.length_replicate, hsize, h.allocated]
    omega
  refine ⟨_, if_pos hfit, ⟨?_, ?_, ?_, k + 1, ?_⟩, ?_, (grow_used (if_pos hfit)).1⟩
  · obtain ⟨table, hused, hlast⟩ := h.entries
    exact ⟨table, (grow_used (if_pos hfit)).1.trans hused, hlast⟩
  · dsimp only
    omega
  · dsimp only
    rw [List.length_append, List.length_take_of_le hfit.2, List.length_drop, List.length_replicate,
      hsize]
    omega
  · dsimp only
    rw [hsize, hk, pow_succ]
    omega
  · dsimp only
    omega

/-- Setting the entry after the first ones adds it to them. -/
lemma take_set_succ {α : Type*} {l : List α} {i : ℕ} (hi : i < l.length) (a : α) :
    (l.set i a).take (i + 1) = l.take i ++ [a] := by
  rw [List.take_add_one, List.take_set_of_le le_rfl, List.getElem?_set_self hi, Option.toList_some]

/-- A new entry is stored after the others. -/
lemma Inv.store (h : t.Inv xs) (hroom : t.scanPtr.toNat < t.scanSize.toNat)
    (hused : t.used = table.map some) (hlast : LastWrites WifiResult.bssid xs table)
    (hnew : ent.bssid ∉ table.map WifiResult.bssid) :
    ∃ u, store ent t = some u ∧ u.Inv (xs ++ [ent]) := by
  have hlt : t.scanPtr.toNat < t.scanRes.length := by
    rw [h.allocated]
    exact hroom
  have hptr : (t.scanPtr + 1).toNat = t.scanPtr.toNat + 1 := by
    rw [UInt16.toNat_add]
    have h1 : (1 : UInt16).toNat = 1 := rfl
    have := t.scanSize.toNat_lt
    omega
  refine ⟨_, if_pos hlt, ⟨⟨table ++ [ent], ?_, hlast.append hnew⟩, ?_, ?_, h.size⟩⟩
  · rw [List.map_append, ← hused, List.map_singleton]
    dsimp only [used]
    rw [hptr, take_set_succ hlt]
  · dsimp only
    omega
  · dsimp only
    rw [List.length_set]
    exact h.allocated

/-- An entry is replaced in its place. -/
lemma Inv.replace (h : t.Inv xs) (hused : t.used = table.map some)
    (hlast : LastWrites WifiResult.bssid xs table) {i : ℕ} {e : WifiResult}
    (hi : table[i]? = some e) (hkey : e.bssid = ent.bssid) :
    Inv (xs ++ [ent]) { t with scanRes := t.scanRes.set i (some ent) } where
  entries := by
    refine ⟨table.set i ent, ?_, hlast.replace hi hkey⟩
    rw [List.map_set, ← hused, used, used, List.take_set]
  ptr_le := h.ptr_le
  allocated := by
    rw [List.length_set]
    exact h.allocated
  size := h.size

/-- An entry is put into the table. -/
lemma Inv.put (h : t.Inv xs)
    (hfew : (writtenKeys WifiResult.bssid (xs ++ [ent])).length < 40955) :
    ∃ u, put ent t = some u ∧ u.Inv (xs ++ [ent]) := by
  obtain ⟨table, hused, hlast⟩ := h.entries
  have hlen := h.length_eq hused
  rcases find_spec ent.bssid (fun j e hj => getElem?_of_used hused hj)
    (by rw [zero_add, hlen]) with ⟨i, e, hfind, hi, hkey⟩ | ⟨hfind, hother⟩
  · refine ⟨_, ?_, h.replace hused hlast hi hkey⟩
    simp only [ScanTable.put, hfind, Option.bind_some]
  · have hnew : ent.bssid ∉ table.map WifiResult.bssid := by
      intro hmem
      obtain ⟨e, he, hkey⟩ := List.mem_map.mp hmem
      obtain ⟨j, hj⟩ := List.getElem?_of_mem he
      exact hother j e (Nat.zero_le j) hj hkey
    have hcount := (hlast.append hnew).length
    rw [List.length_append, List.length_singleton, hlen] at hcount
    simp only [ScanTable.put, hfind, Option.bind_some]
    split_ifs with hfull
    · obtain ⟨u, hgrow, hu, hroom, husedu⟩ := h.grow hfull (by omega)
      rw [hgrow]
      exact hu.store hroom (husedu.trans hused) hlast hnew
    · have hroom : t.scanPtr.toNat < t.scanSize.toNat := by
        rw [UInt16.le_iff_toNat_le] at hfull
        omega
      exact h.store hroom hused hlast hnew

/-- What `put` can do. -/
lemma put_cases {u : ScanTable} (h : put ent t = some u) :
    (∃ i, u = { t with scanRes := t.scanRes.set i (some ent) }) ∨
      ∃ v, (v = t ∨ t.grow = some v) ∧ store ent v = some u := by
  obtain ⟨found, -, h⟩ := Option.bind_eq_some_iff.mp h
  rcases found with - | i
  · obtain ⟨v, hv, hstore⟩ := Option.bind_eq_some_iff.mp h
    refine .inr ⟨v, ?_, hstore⟩
    split_ifs at hv with hfull
    · exact .inr hv
    · exact .inl (Option.some.inj hv).symm
  · exact .inl ⟨i, (Option.some.inj h).symm⟩

/-- The entries in use stay where they are when one is stored after them. -/
lemma take_of_store {u : ScanTable} (h : store ent t = some u) :
    u.scanRes.take t.scanPtr.toNat = t.used ∧ u.scanRes.length = t.scanRes.length := by
  obtain ⟨-, rfl⟩ : _ ∧ _ = u := by
    simpa only [ScanTable.store, Option.ite_none_right_eq_some, Option.some.injEq] using h
  exact ⟨List.take_set_of_le le_rfl, List.length_set ..⟩

/-- The entries in use are kept when the table is enlarged. -/
lemma take_of_put {u : ScanTable} (h : put ent t = some u)
    (hlen : u.scanRes.length ≠ t.scanRes.length) :
    u.scanRes.take t.scanPtr.toNat = t.used := by
  rcases put_cases h with ⟨i, rfl⟩ | ⟨v, rfl | hgrow, hstore⟩
  · exact absurd (List.length_set ..) hlen
  · exact absurd (take_of_store hstore).2 hlen
  · obtain ⟨hused, hptr⟩ := grow_used hgrow
    rw [← hptr, (take_of_store hstore).1, hused]

end ScanTable

/-! ### Results -/

variable {fields : WifiFields} {result : Option ScanResult} {t : ScanTable}

/-- A result without a name, or none at all, changes nothing. -/
lemma scanResult_of_not_named (h : ∀ r, result = some r → ¬r.Named) :
    scanResult fields result t = some t := by
  rcases result with - | r
  · rfl
  · exact if_neg (h r rfl)

/-- A result with a name is put into the table. -/
lemma scanResult_of_named {r : ScanResult} (h : r.Named) :
    scanResult fields (some r) t = t.put (scanEntry fields r) := if_pos h

lemma namedEntries_append_named {r : ScanResult} (h : r.Named)
    {results : List (Option ScanResult)} :
    namedEntries fields (results ++ [some r]) =
      namedEntries fields results ++ [scanEntry fields r] := by
  simp [namedEntries, h]

lemma namedEntries_append_not_named (h : ∀ r, result = some r → ¬r.Named)
    {results : List (Option ScanResult)} :
    namedEntries fields (results ++ [result]) = namedEntries fields results := by
  rcases result with - | r
  · simp [namedEntries]
  · simp [namedEntries, h r rfl]

/-- What one result does to the invariant. -/
lemma ScanTable.Inv.scanResult {results : List (Option ScanResult)}
    (h : t.Inv (namedEntries fields results))
    (hfew : (writtenKeys WifiResult.bssid (namedEntries fields (results ++ [result]))).length
      < 40955) :
    ∃ u, scanResult fields result t = some u ∧
      u.Inv (namedEntries fields (results ++ [result])) := by
  by_cases hnamed : ∃ r, result = some r ∧ r.Named
  · obtain ⟨r, rfl, hr⟩ := hnamed
    rw [namedEntries_append_named hr] at hfew ⊢
    rw [scanResult_of_named hr]
    exact h.put hfew
  · have hignored : ∀ r, result = some r → ¬r.Named := fun r hr hn => hnamed ⟨r, hr, hn⟩
    rw [namedEntries_append_not_named hignored]
    exact ⟨t, scanResult_of_not_named hignored, h⟩

/-- The invariant gives what the table should be. -/
lemma ScanTable.Inv.holds {results : List (Option ScanResult)}
    (h : t.Inv (namedEntries fields results)) : t.Holds fields results where
  entries := h.entries
  ptr_le := UInt16.le_iff_toNat_le.mpr h.ptr_le
  allocated := h.allocated
  ignored _ hresult := scanResult_of_not_named hresult
  kept result u hu hlen := by
    by_cases hnamed : ∃ r, result = some r ∧ r.Named
    · obtain ⟨r, rfl, hr⟩ := hnamed
      rw [scanResult_of_named hr] at hu
      exact take_of_put hu hlen
    · rw [scanResult_of_not_named fun r hr hn => hnamed ⟨r, hr, hn⟩] at hu
      obtain rfl := Option.some.inj hu
      exact absurd rfl hlen

/-- A report of an access point. -/
def reportOf (address : UInt8) (channel : UInt16) : ScanResult where
  bssid := .replicate 6 address
  ssidLen := 4
  ssid := .replicate 32 0x61
  channel := channel
  authMode := 4
  rssi := -60

end JdPico
