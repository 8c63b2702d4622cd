import JdPico.Lib.Changes
import JdPico.Wifi.Model

/-!
# The link goes up and down

`jd_wifi_process` looks at the link status each time it is called, and tells the application when
the link has come up (`jd_wifi_got_ip_cb`) and when it is no longer up (`jd_wifi_lost_ip_cb`).  The
driver has several statuses besides `CYW43_LINK_UP`, and the link may go through any of them in any
order; scans may be started, end and be reported in between.

The calls are the changes of whether the link is up, as far as `jd_wifi_process` has seen them: a
change from one of the other statuses to another is not one, the first status is one only if it is
`CYW43_LINK_UP`, and the two calls alternate.
-/

namespace JdPico

open Machine Changes

variable {fields : WifiFields} {s : WifiState} {acts : List WifiAct}

/-- Whether the link is up, if the step looks at it. -/
def WifiAct.sawUp : WifiAct → Option Bool
  | .status link => some (decide (link = .up))
  | .startScan _ | .result _ | .ended | .process | .resume => none

/-- What the application is told about the link by the event. -/
def WifiEvent.toldUp : WifiEvent → Option Bool
  | .gotIp => some true
  | .lostIp => some false
  | .started | .reported _ | .ended | .done _ => none

/-- What `jd_wifi_process` has seen of the link, oldest first. -/
def seenUp (acts : List WifiAct) : List Bool := acts.filterMap WifiAct.sawUp

/-- What the application was told about the link, oldest first. -/
def WifiState.toldUp (s : WifiState) : List Bool := s.log.reverse.filterMap WifiEvent.toldUp

/-- The link was up when `jd_wifi_process` looked last. -/
def WifiState.linkUp (s : WifiState) : Bool := decide (s.prevStatus = some .up)

/-- Events that are not about the link tell nothing about it. -/
lemma toldUp_of_log {t : WifiState} (events : List WifiEvent) (hlog : t.log = events ++ s.log)
    (hevents : events.reverse.filterMap WifiEvent.toldUp = []) : t.toldUp = s.toldUp := by
  rw [WifiState.toldUp, hlog, List.reverse_append, List.filterMap_append, hevents, List.append_nil,
    WifiState.toldUp]

/-- The look at the link tells of a change, and of nothing else. -/
lemma toldUp_jdWifiProcessStatus (link : LinkStatus) (s : WifiState) :
    (jdWifiProcessStatus link s).toldUp =
      s.toldUp ++ if s.linkUp ≠ decide (link = .up) then [decide (link = .up)] else [] := by
  by_cases hsame : s.prevStatus = some link
  · simp [jdWifiProcessStatus, WifiState.toldUp, WifiState.linkUp, hsame]
  rw [jdWifiProcessStatus, if_neg hsame]
  by_cases hup : link = .up
  · subst hup
    simp [WifiState.toldUp, WifiState.linkUp, hsame, WifiEvent.toldUp]
  by_cases hwas : s.prevStatus = some .up <;>
    simp [WifiState.toldUp, WifiState.linkUp, hup, hwas, WifiEvent.toldUp]

/-- It remembers whether the link is up. -/
lemma linkUp_jdWifiProcessStatus (link : LinkStatus) (s : WifiState) :
    (jdWifiProcessStatus link s).linkUp = decide (link = .up) := by
  unfold jdWifiProcessStatus WifiState.linkUp
  by_cases hsame : s.prevStatus = some link <;> simp [hsame]

/-- The other steps have nothing to do with the link. -/
lemma WifiState.step_link {a : WifiAct} {t : WifiState} (hst : s.step fields a = some t)
    (ha : a.sawUp = none) : t.toldUp = s.toldUp ∧ t.linkUp = s.linkUp := by
  cases a with
  | startScan ret =>
    obtain rfl := Option.some.inj hst
    unfold jdWifiStartScan
    split_ifs
    · exact ⟨rfl, rfl⟩
    · exact ⟨toldUp_of_log [.started] rfl rfl, rfl⟩
    · exact ⟨rfl, rfl⟩
  | result r =>
    rw [WifiState.step, Option.ite_none_right_eq_some, Option.map_eq_some_iff] at hst
    obtain ⟨-, table, -, rfl⟩ := hst
    refine ⟨toldUp_of_log _ rfl ?_, rfl⟩
    cases r <;> rfl
  | ended =>
    rw [WifiState.step, Option.ite_none_right_eq_some] at hst
    obtain ⟨-, hst⟩ := hst
    obtain rfl := Option.some.inj hst
    exact ⟨toldUp_of_log [.ended] rfl rfl, rfl⟩
  | process =>
    rw [WifiState.step, Option.ite_none_right_eq_some] at hst
    obtain ⟨-, hst⟩ := hst
    split_ifs at hst
    · obtain rfl := Option.some.inj hst
      exact ⟨toldUp_of_log [.done s.table.used] rfl rfl, rfl⟩
    · obtain rfl := Option.some.inj hst
      exact ⟨rfl, rfl⟩
  | resume =>
    rw [WifiState.step, Option.ite_none_right_eq_some] at hst
    obtain ⟨-, hst⟩ := hst
    obtain rfl := Option.some.inj hst
    exact ⟨rfl, rfl⟩
  | status link => simp [WifiAct.sawUp] at ha

/-- One step keeps what was told in line with what was seen. -/
lemma WifiState.step_reports {a : WifiAct} {t : WifiState}
    (h : Reports false (seenUp acts) s.toldUp s.linkUp) (hst : s.step fields a = some t) :
    Reports false (seenUp (acts ++ [a])) t.toldUp t.linkUp := by
  have hseen : seenUp (acts ++ [a]) = seenUp acts ++ a.sawUp.toList := by
    simp [seenUp, List.filterMap_append, List.filterMap_cons]
    cases a.sawUp <;> rfl
  rw [hseen]
  cases ha : a.sawUp with
  | none =>
    obtain ⟨htold, hup⟩ := WifiState.step_link hst ha
    rw [htold, hup, Option.toList_none, List.append_nil]
    exact h
  | some up =>
    cases a with
    | status link =>
      rw [WifiState.step, Option.ite_none_right_eq_some] at hst
      obtain ⟨-, hst⟩ := hst
      obtain rfl := Option.some.inj hst
      obtain rfl := Option.some.inj ha
      rw [toldUp_jdWifiProcessStatus, linkUp_jdWifiProcessStatus, Option.toList_some]
      exact h.look _
    | _ => exact absurd ha (by simp [WifiAct.sawUp])

/-- In every run the application is told of each change of the link that `jd_wifi_process` has seen,
in order and of nothing else: the two calls alternate, the first one is `jd_wifi_got_ip_cb`, and the
last one says how the link was when it was looked at last. -/
theorem link_changes_told (hrun : exec (WifiState.step fields) .initial acts = some s) :
    false :: s.toldUp = (seenUp acts).destutter' (· ≠ ·) false ∧
      (false :: s.toldUp).IsChain (· ≠ ·) ∧
      (false :: s.toldUp).getLast? = some s.linkUp ∧
      (false :: seenUp acts).getLast? = some s.linkUp := by
  have hs : Reports false (seenUp []) WifiState.initial.toldUp WifiState.initial.linkUp :=
    Reports.initial false
  have h : Reports false (seenUp acts) s.toldUp s.linkUp :=
    exec_history (P := fun acts (s : WifiState) => Reports false (seenUp acts) s.toldUp s.linkUp)
      (fun _ _ _ _ h hst => WifiState.step_reports h hst) hs hrun
  exact ⟨h.changes, h.isChain, h.lastReported, h.lastSeen⟩

/-- The link comes up while a scan goes on, is lost over two other statuses and comes up again. -/
theorem link_changes_told_twice :
    ∃ s, exec (WifiState.step ⟨fun r => r.toInt, fun c => c.toNat⟩) .initial
        [.process, .status .join, .startScan 0, .process, .status .up, .process, .status .up,
          .ended, .process, .resume, .status .fail, .process, .status .join, .process,
          .status .up] = some s ∧
      s.toldUp = [true, false, true] ∧
      false :: s.toldUp =
        (seenUp [.process, .status .join, .startScan 0, .process, .status .up, .process,
          .status .up, .ended, .process, .resume, .status .fail, .process, .status .join, .process,
          .status .up]).destutter' (· ≠ ·) false := by
  obtain ⟨s, hrun, htold⟩ := Option.map_eq_some_iff.mp
    (show (exec (WifiState.step ⟨fun r => r.toInt, fun c => c.toNat⟩) .initial
        [.process, .status .join, .startScan 0, .process, .status .up, .process, .status .up,
          .ended, .process, .resume, .status .fail, .process, .status .join, .process,
          .status .up]).map
        WifiState.toldUp = some [true, false, true] by decide)
  exact ⟨s, hrun, htold, (link_changes_told hrun).1⟩

end JdPico
