import JdPico.Lib.Log
import JdPico.Wifi.Table

/-!
# One report for each scan

Every scan that was started should be reported once, with its own results, and a start that fails
should change nothing (`ScanContract`).

`jd_wifi_start_scan` sets `in_scan` before it asks the driver.  Two things go wrong.  If the driver
refuses, `in_scan` stays set and a scan is reported that never was.  If the driver has ended a scan
that is not reported yet, another one can be started; then one report is made for both, with the
results of both.  In every run where neither happens (`Orderly`) the contract is kept.

The invariant says in which of three phases the scan is (`ScanPhase`).  While the callback runs the
table is still the one that was reported, so nothing is said about it then.
-/

namespace JdPico

open Machine

/-! ### The contract -/

/-- The event belongs to the course of a scan: its start, its end or its report. -/
def WifiEvent.Marks : WifiEvent → Prop
  | .started | .ended | .done _ => True
  | .reported _ | .gotIp | .lostIp => False

/-- Neither the start nor the end nor the report of a scan is among the events. -/
def Unmarked (events : List WifiEvent) : Prop := ∀ event ∈ events, ¬event.Marks

/-- Every scan that was started has been reported. -/
def AllReported (log : List WifiEvent) : Prop :=
  ∀ newer older, log = newer ++ .started :: older → ∃ table, .done table ∈ newer

/-- A scan is going on, `during` is what happened since its start, and all scans before it have
been reported. -/
def Running (log during : List WifiEvent) : Prop :=
  Unmarked during ∧ ∃ before, log = during ++ .started :: before ∧ AllReported before

/-- The latest scan is over, `during` is what happened between its start and its end, it has not
been reported, and all scans before it have. -/
def Over (log during : List WifiEvent) : Prop :=
  ∃ after older, log = after ++ .ended :: older ∧ Unmarked after ∧ Running older during

/-- The table has only entries that were reported in `during`. -/
def OnlyReported (during : List WifiEvent) (table : List (Option WifiResult)) : Prop :=
  ∀ x ∈ table, ∃ ent, x = some ent ∧ .reported ent ∈ during

/-- Every report is that of a scan of its own, which is over, with results of that scan only. -/
def ReportsScans (log : List WifiEvent) : Prop :=
  ∀ newer older table, log = newer ++ .done table :: older →
    ∃ during, Over older during ∧ OnlyReported during table

/-- The contract for a run that ends in `s`. -/
structure ScanContract (fields : WifiFields) (acts : List WifiAct) (s : WifiState) : Prop where
  /-- A start that fails changes neither `in_scan` nor the table. -/
  refused : ∀ before ret after t, acts = before ++ .startScan ret :: after →
    exec (WifiState.step fields) .initial before = some t → (jdWifiStartScan ret t).1 ≠ 0 →
      (jdWifiStartScan ret t).2.inScan = t.inScan ∧ (jdWifiStartScan ret t).2.table = t.table
  reports : ReportsScans s.log

/-- If a scan is started while the driver is not scanning, then either no scan waits to be reported
and the driver accepts, or one does and the driver refuses. -/
def WifiState.Orderly (s : WifiState) : WifiAct → Prop
  | .startScan ret => s.active = false → (ret = 0 ↔ s.inScan = false)
  | _ => True

instance WifiState.Orderly.decidable (s : WifiState) : ∀ a, Decidable (s.Orderly a)
  | .startScan ret => inferInstanceAs (Decidable (s.active = false → (ret = 0 ↔ s.inScan = false)))
  | .result _ | .ended | .process | .resume | .status _ => .isTrue trivial

/-! ### Logs that grow -/

variable {fields : WifiFields} {s t : WifiState} {log during events : List WifiEvent}
  {event : WifiEvent} {table : List (Option WifiResult)}

lemma Unmarked.append (h₁ : Unmarked events) (h₂ : Unmarked during) :
    Unmarked (events ++ during) := by
  intro event hevent
  rcases List.mem_append.mp hevent with hmem | hmem
  · exact h₁ event hmem
  · exact h₂ event hmem

lemma Unmarked.notMem (h : Unmarked events) (hevent : event.Marks) : event ∉ events :=
  fun hmem => h event hmem hevent

lemma ReportsScans.append (h : ReportsScans log) (events : List WifiEvent)
    (hevents : ∀ table, .done table ∉ events) : ReportsScans (events ++ log) := by
  intro newer older table hlog
  obtain ⟨newer', hsplit⟩ := Log.split_of_notMem (hevents table) hlog
  exact h newer' older table hsplit

lemma ReportsScans.done (h : ReportsScans log) (hover : Over log during)
    (htable : OnlyReported during table) : ReportsScans (.done table :: log) := by
  intro newer older table' hlog
  rcases Log.split_cons hlog with ⟨heq, rfl⟩ | ⟨newer', hsplit⟩
  · obtain rfl := WifiEvent.done.inj heq
    exact ⟨during, hover, htable⟩
  · exact h newer' older table' hsplit

lemma AllReported.append (h : AllReported log) (hevents : Unmarked events) :
    AllReported (events ++ log) := by
  induction events with
  | nil => exact h
  | cons event events ih =>
    have hrest := ih fun e he => hevents e (List.mem_cons_of_mem _ he)
    intro newer older hlog
    cases newer with
    | nil =>
      obtain ⟨rfl, -⟩ := List.cons.inj hlog
      exact absurd List.mem_cons_self (hevents.notMem (show WifiEvent.Marks .started from trivial))
    | cons e newer =>
      obtain ⟨table, hmem⟩ := hrest newer older (List.cons.inj hlog).2
      exact ⟨table, List.mem_cons_of_mem _ hmem⟩

/-- After a report all scans have been reported. -/
lemma allReported_done : AllReported (.done table :: log) := by
  intro newer older hlog
  cases newer with
  | nil => exact absurd (List.cons.inj hlog).1 (by simp)
  | cons e newer =>
    obtain ⟨rfl, -⟩ := List.cons.inj hlog
    exact ⟨table, List.mem_cons_self⟩

lemma Running.append (h : Running log during) (hevents : Unmarked events) :
    Running (events ++ log) (events ++ during) := by
  obtain ⟨hduring, before, rfl, hbefore⟩ := h
  exact ⟨hevents.append hduring, before, (List.append_assoc ..).symm, hbefore⟩

lemma Over.append (h : Over log during) (hevents : Unmarked events) :
    Over (events ++ log) during := by
  obtain ⟨after, older, rfl, hafter, holder⟩ := h
  exact ⟨events ++ after, older, (List.append_assoc ..).symm, hevents.append hafter, holder⟩

/-- A scan that is going on ends. -/
lemma Running.ended (h : Running log during) : Over (.ended :: log) during :=
  ⟨[], log, rfl, by simp [Unmarked], h⟩

lemma OnlyReported.append (h : OnlyReported during table) (events : List WifiEvent) :
    OnlyReported (events ++ during) table := by
  intro x hx
  obtain ⟨ent, rfl, hent⟩ := h x hx
  exact ⟨ent, rfl, List.mem_append_right _ hent⟩

lemma onlyReported_empty : OnlyReported during ScanTable.empty.used := by
  simp [OnlyReported, ScanTable.empty, ScanTable.used]

/-! ### The table -/

/-- An entry in use was in use before, or is the new one. -/
lemma ScanTable.mem_used_of_put {ent : WifiResult} {t u : ScanTable} (h : t.put ent = some u)
    {x : Option WifiResult} (hx : x ∈ u.used) : x ∈ t.used ∨ x = some ent := by
  have hstored : ∀ v : ScanTable, store ent v = some u → x ∈ v.used ∨ x = some ent := by
    intro v hv
    obtain ⟨hlt, rfl⟩ : _ ∧ _ = u := by
      simpa only [ScanTable.store, Option.ite_none_right_eq_some, Option.some.injEq] using hv
    -- the count may overflow, and then fewer entries are in use
    have hle : (v.scanPtr + 1).toNat ≤ v.scanPtr.toNat + 1 := by
      rw [UInt16.toNat_add]
      exact Nat.mod_le _ _
    have hmem := List.take_subset_take_left _ hle hx
    rw [take_set_succ hlt] at hmem
    simpa [used] using hmem
  rcases put_cases h with ⟨i, rfl⟩ | ⟨v, rfl | hgrow, hstore⟩
  · rw [used, List.take_set] at hx
    exact List.mem_or_eq_of_mem_set hx
  · exact hstored v hstore
  · rw [← (grow_used hgrow).1]
    exact hstored v hstore

/-- What is in use after a result was in use before, or is made of the result. -/
lemma mem_used_of_scanResult {result : Option ScanResult} {t u : ScanTable}
    (h : scanResult fields result t = some u) {x : Option WifiResult} (hx : x ∈ u.used) :
    x ∈ t.used ∨ ∃ r, result = some r ∧ x = some (scanEntry fields r) := by
  by_cases hnamed : ∃ r, result = some r ∧ r.Named
  · obtain ⟨r, rfl, hr⟩ := hnamed
    rw [scanResult_of_named hr] at h
    rcases ScanTable.mem_used_of_put h hx with hold | rfl
    · exact .inl hold
    · exact .inr ⟨r, rfl, rfl⟩
  · rw [scanResult_of_not_named fun r hr hn => hnamed ⟨r, hr, hn⟩] at h
    obtain rfl := Option.some.inj h
    exact .inl hx

/-! ### The invariant -/

/-- The phases of a scan, as the program and the driver see it. -/
inductive ScanPhase (s : WifiState) : Prop where
  /-- There is no scan, or the latest was reported. -/
  | idle (hscan : s.inScan = false) (hactive : s.active = false) (hlog : AllReported s.log)
    (htable : s.pc ≠ .callback → s.table = .empty)
  /-- The driver is scanning. -/
  | running (during : List WifiEvent) (hscan : s.inScan = true) (hactive : s.active = true)
    (hlog : Running s.log during)
    (htable : s.pc ≠ .callback → OnlyReported during s.table.used)
  /-- The driver has ended the scan, which is not reported yet. -/
  | ended (during : List WifiEvent) (hscan : s.inScan = true) (hactive : s.active = false)
    (hlog : Over s.log during)
    (htable : s.pc ≠ .callback → OnlyReported during s.table.used)

/-- What holds in every state of an orderly run. -/
structure WifiState.Inv (s : WifiState) : Prop where
  phase : ScanPhase s
  reports : ReportsScans s.log

/-- The phase does not change with other events, also when the table is given up. -/
lemma ScanPhase.of_unmarked (h : ScanPhase s) (events : List WifiEvent)
    (hscan : t.inScan = s.inScan) (hactive : t.active = s.active)
    (hlog : t.log = events ++ s.log) (hevents : Unmarked events)
    (htable : t.table = .empty ∨ t.table = s.table ∧ s.pc ≠ .callback) : ScanPhase t := by
  have honly : ∀ during, (s.pc ≠ .callback → OnlyReported during s.table.used) →
      OnlyReported during t.table.used := by
    intro during hold
    rcases htable with hempty | ⟨hsame, hpc⟩
    · rw [hempty]
      exact onlyReported_empty
    · rw [hsame]
      exact hold hpc
  cases h with
  | idle hs ha hl ht =>
    refine .idle (hscan.trans hs) (hactive.trans ha) (hlog ▸ hl.append hevents) fun _ => ?_
    rcases htable with hempty | ⟨hsame, hpc⟩
    · exact hempty
    · exact hsame.trans (ht hpc)
  | running during hs ha hl ht =>
    exact .running _ (hscan.trans hs) (hactive.trans ha) (hlog ▸ hl.append hevents)
      fun _ => (honly during ht).append events
  | ended during hs ha hl ht =>
    exact .ended during (hscan.trans hs) (hactive.trans ha) (hlog ▸ hl.append hevents)
      fun _ => honly during ht

/-- While the driver is scanning, the scan is one of the program. -/
lemma ScanPhase.of_active (h : ScanPhase s) (hactive : s.active = true) :
    ∃ during, s.inScan = true ∧ Running s.log during ∧
      (s.pc ≠ .callback → OnlyReported during s.table.used) := by
  cases h with
  | idle hs ha hl ht => exact absurd (ha.symm.trans hactive) Bool.false_ne_true
  | ended during hs ha hl ht => exact absurd (ha.symm.trans hactive) Bool.false_ne_true
  | running during hs ha hl ht => exact ⟨during, hs, hl, ht⟩

/-- The results of a scan that is going on are added to the table. -/
lemma ScanPhase.result {r : Option ScanResult} {table : ScanTable} (h : ScanPhase s)
    (hactive : s.active = true) (htable : scanResult fields r s.table = some table) :
    ScanPhase { s with
      table := table
      log := (r.map fun r => WifiEvent.reported (scanEntry fields r)).toList ++ s.log } := by
  obtain ⟨during, hscan, hlog, hold⟩ := h.of_active hactive
  refine .running _ hscan hactive (hlog.append ?_) fun hpc x hx => ?_
  · intro event hevent
    rcases r with - | r
    · exact absurd hevent List.not_mem_nil
    · obtain rfl := List.mem_singleton.mp hevent
      exact id
  · rcases mem_used_of_scanResult htable hx with hused | ⟨r, rfl, rfl⟩
    · exact (hold hpc).append _ x hused
    · exact ⟨_, rfl, List.mem_cons_self⟩

/-- What `jd_wifi_start_scan` can do. -/
lemma jdWifiStartScan_cases (ret : ℤ) (s : WifiState) :
    (s.active = true ∧ jdWifiStartScan ret s = (-10, s)) ∨
      (s.active = false ∧ ret = 0 ∧ jdWifiStartScan ret s =
        (0, { s with inScan := true, active := true, log := .started :: s.log })) ∨
      (s.active = false ∧ ret ≠ 0 ∧ jdWifiStartScan ret s = (ret, { s with inScan := true })) := by
  unfold jdWifiStartScan
  split_ifs with hactive hret
  · exact .inl ⟨hactive, rfl⟩
  · subst hret
    exact .inr (.inl ⟨Bool.eq_false_iff.mpr hactive, rfl, rfl⟩)
  · exact .inr (.inr ⟨Bool.eq_false_iff.mpr hactive, hret, rfl⟩)

/-- In an orderly run a start that fails changes nothing at all. -/
lemma jdWifiStartScan_of_refused {ret : ℤ} (hord : s.Orderly (.startScan ret))
    (hret : (jdWifiStartScan ret s).1 ≠ 0) : (jdWifiStartScan ret s).2 = s := by
  rcases jdWifiStartScan_cases ret s with ⟨-, heq⟩ | ⟨-, -, heq⟩ | ⟨hactive, hne, heq⟩
  · rw [heq]
  · exact absurd (congrArg Prod.fst heq) hret
  · have hscan : s.inScan = true := by
      rw [← Bool.not_eq_false]
      exact fun hclear => hne ((hord hactive).mpr hclear)
    rw [heq, ← hscan]

/-- The invariant is kept by a start that succeeds, which finds no scan. -/
lemma WifiState.Inv.startScan {ret : ℤ} (h : s.Inv) (hord : s.Orderly (.startScan ret))
    (hret : (jdWifiStartScan ret s).1 = 0) : (jdWifiStartScan ret s).2.Inv := by
  rcases jdWifiStartScan_cases ret s with ⟨-, heq⟩ | ⟨hactive, hzero, heq⟩ | ⟨-, hne, heq⟩
  · exact absurd hret (by simp [heq])
  · rw [heq]
    have hclear := (hord hactive).mp hzero
    cases h.phase with
    | running during hs ha hl ht => exact absurd (hs.symm.trans hclear) (by simp)
    | ended during hs ha hl ht => exact absurd (hs.symm.trans hclear) (by simp)
    | idle hs ha hl ht =>
      refine ⟨.running [] rfl rfl ⟨by simp [Unmarked], s.log, rfl, hl⟩ fun hpc => ?_, ?_⟩
      · rw [ht hpc]
        exact onlyReported_empty
      · exact h.reports.append [.started] (by simp)
  · exact absurd hret (by simp [heq, hne])

/-- The part of the program that looks at the link status adds at most an event. -/
lemma jdWifiProcessStatus_eq (link : LinkStatus) (s : WifiState) :
    ∃ events prevStatus, Unmarked events ∧ jdWifiProcessStatus link s =
      { s with pc := .out, prevStatus := prevStatus, log := events ++ s.log } := by
  by_cases hsame : s.prevStatus = some link
  · exact ⟨[], s.prevStatus, by simp [Unmarked], if_pos hsame⟩
  · rw [jdWifiProcessStatus, if_neg hsame]
    dsimp only
    split_ifs
    · exact ⟨[.gotIp], some link, by simp [Unmarked, WifiEvent.Marks], rfl⟩
    · exact ⟨[.lostIp], some link, by simp [Unmarked, WifiEvent.Marks], rfl⟩
    · exact ⟨[], some link, by simp [Unmarked], rfl⟩

/-- An orderly step keeps the invariant. -/
lemma WifiState.Inv.step {a : WifiAct} (h : s.Inv) (hord : s.Orderly a)
    (hst : s.step fields a = some t) : t.Inv := by
  cases a with
  | startScan ret =>
    obtain rfl := Option.some.inj hst
    by_cases hret : (jdWifiStartScan ret s).1 = 0
    · exact h.startScan hord hret
    · exact (jdWifiStartScan_of_refused hord hret).symm ▸ h
  | result r =>
    obtain ⟨hactive, hst⟩ := Option.ite_none_right_eq_some.mp hst
    obtain ⟨table, htable, rfl⟩ := Option.map_eq_some_iff.mp hst
    refine ⟨h.phase.result hactive htable, h.reports.append _ fun table hmem => ?_⟩
    cases r <;> simp at hmem
  | ended =>
    obtain ⟨hactive, hst⟩ := Option.ite_none_right_eq_some.mp hst
    obtain rfl := Option.some.inj hst
    obtain ⟨during, hscan, hlog, hold⟩ := h.phase.of_active hactive
    exact ⟨.ended during hscan rfl hlog.ended hold, h.reports.append [.ended] (by simp)⟩
  | process =>
    obtain ⟨hpc, hst⟩ := Option.ite_none_right_eq_some.mp hst
    have hout : s.pc ≠ .callback := by simp [hpc]
    split_ifs at hst with hdone
    · obtain rfl := Option.some.inj hst
      cases h.phase with
      | idle hs ha hl ht => exact absurd (hs.symm.trans hdone.1) (by simp)
      | running during hs ha hl ht => exact absurd (ha.symm.trans hdone.2) (by simp)
      | ended during hs ha hl ht =>
        exact ⟨.idle rfl ha allReported_done (absurd rfl), h.reports.done hl (ht hout)⟩
    · obtain rfl := Option.some.inj hst
      exact ⟨h.phase.of_unmarked [] rfl rfl rfl (by simp [Unmarked]) (.inr ⟨rfl, hout⟩),
        h.reports⟩
  | resume =>
    obtain ⟨hpc, hst⟩ := Option.ite_none_right_eq_some.mp hst
    obtain rfl := Option.some.inj hst
    exact ⟨h.phase.of_unmarked [] rfl rfl rfl (by simp [Unmarked]) (.inl rfl), h.reports⟩
  | status link =>
    obtain ⟨hpc, hst⟩ := Option.ite_none_right_eq_some.mp hst
    obtain rfl := Option.some.inj hst
    have hout : s.pc ≠ .callback := by simp [hpc]
    obtain ⟨events, prevStatus, hevents, heq⟩ := jdWifiProcessStatus_eq link s
    rw [heq]
    exact ⟨h.phase.of_unmarked events rfl rfl rfl hevents (.inr ⟨rfl, hout⟩),
      h.reports.append _ fun table => hevents.notMem trivial⟩

lemma WifiState.inv_initial : WifiState.initial.Inv where
  phase := .idle rfl rfl (by simp [AllReported, WifiState.initial]) fun _ => rfl
  reports := by simp [ReportsScans, WifiState.initial]

/-! ### Runs -/

/-- In every run in which scans are started in an orderly way, each report is that of one scan with
its own results, and a start that fails changes nothing. -/
theorem wifi_scan_contract (fields : WifiFields) (acts : List WifiAct) (s : WifiState)
    (hrun : exec (WifiState.step fields) .initial acts = some s)
    (hord : AllSteps (WifiState.step fields) WifiState.Orderly .initial acts) :
    ScanContract fields acts s where
  refused before ret after t hacts ht hret := by
    subst hacts
    have hstart := (hord.of_append ht).2.1
    rw [jdWifiStartScan_of_refused hstart hret]
    exact ⟨rfl, rfl⟩
  reports := (exec_inv_of_allSteps (fun _ _ _ hs hstep hst => hs.step hstep hst)
    WifiState.inv_initial hord hrun).reports

/-- The fields keep all values. -/
def wideFields : WifiFields := ⟨Int16.toInt, fun channel => channel.toNat⟩

/-- Two scans; a third one is asked for while the first is going on. -/
theorem wifi_scan_contract_two_scans :
    let acts : List WifiAct :=
      [.startScan 0, .result (some (reportOf 1 6)), .startScan 0, .result none, .ended, .process,
        .resume, .status .down, .startScan 0, .result (some (reportOf 2 11)), .ended, .process]
    ∃ s, exec (WifiState.step wideFields) .initial acts = some s ∧
      .done [some (scanEntry wideFields (reportOf 2 11))] ∈ s.log ∧
      ScanContract wideFields acts s :=
  ⟨_, rfl, by decide, wifi_scan_contract _ _ _ rfl (by decide)⟩

/-- If the driver refuses, `in_scan` stays set and the next poll reports a scan. -/
lemma refused_start_reported :
    ∃ s, exec (WifiState.step wideFields) .initial [.startScan (-1), .process] = some s ∧
      s.log = [.done []] ∧ ¬ScanContract wideFields [.startScan (-1), .process] s := by
  refine ⟨_, rfl, rfl, fun h => ?_⟩
  have hsame := (h.refused [] (-1) [.process] .initial rfl rfl (by decide)).1
  exact absurd hsame (by decide)

/-- A scan is started after another has ended and before it is reported. -/
def overlappingScans : List WifiAct :=
  [.startScan 0, .result (some (reportOf 1 6)), .ended, .startScan 0,
    .result (some (reportOf 2 11)), .ended, .process]

/-- Both scans share one report, in which the results of both are. -/
lemma overlappingScans_share_report :
    ∃ s, exec (WifiState.step wideFields) .initial overlappingScans = some s ∧
      s.table.used = [some (scanEntry wideFields (reportOf 1 6)),
        some (scanEntry wideFields (reportOf 2 11))] ∧
      ¬ScanContract wideFields overlappingScans s := by
  refine ⟨_, rfl, by decide, fun h => ?_⟩
  obtain ⟨during, ⟨after, older, hend, hafter, hduring, before, hstart, hbefore⟩, -⟩ :=
    h.reports [] _ _ rfl
  -- the log can be taken apart in one way only, and the first scan is not reported in it
  cases after with
  | cons e after =>
    obtain ⟨rfl, -⟩ := List.cons.inj hend
    exact hafter _ List.mem_cons_self trivial
  | nil =>
    obtain ⟨-, rfl⟩ := List.cons.inj hend
    cases during with
    | nil => exact absurd (List.cons.inj hstart).1 (by simp)
    | cons d during =>
      obtain ⟨-, hrest⟩ := List.cons.inj hstart
      cases during with
      | nil =>
        obtain ⟨table, hmem⟩ := hbefore [_, _] [] (List.cons.inj hrest).2.symm
        exact absurd hmem (by simp)
      | cons d' during =>
        obtain ⟨rfl, -⟩ := List.cons.inj hrest
        exact hduring _ (List.mem_cons_of_mem _ List.mem_cons_self) trivial

/-- The contract is broken in both ways. -/
theorem wifi_scan_contract_broken :
    (∃ s, exec (WifiState.step wideFields) .initial [.startScan (-1), .process] = some s ∧
      ¬ScanContract wideFields [.startScan (-1), .process] s) ∧
    ∃ s, exec (WifiState.step wideFields) .initial overlappingScans = some s ∧
      ¬ScanContract wideFields overlappingScans s := by
  obtain ⟨s, hs, -, hrefused⟩ := refused_start_reported
  obtain ⟨t, ht, -, hshared⟩ := overlappingScans_share_report
  exact ⟨⟨s, hs, hrefused⟩, t, ht, hshared⟩

end JdPico
