import JdPico.Socket.Trace

/-!
# Reporting failed attempts

Whatever makes an attempt fail, the application should be told once: one error, then the end of the
connection, and `sock_state` is zero again.  Two failures are not reported.  `tcp_client_err`
ignores `ERR_ABRT`, which is how lwIP ends a connection that times out, and `host_found` does not
test the address it is given, so an unresolved name is followed by an attempt to connect to whatever
is found at address zero.  All others are reported, and these are the only exceptions
(`failure_reported_iff`).

The application may make socket calls while it handles the other events.  It makes none when
it is told about the failure itself: a new attempt started there would be the one that
`sock_state` is about.
-/

namespace JdPico

open Machine SockWorld

/-- The application makes no socket calls when it is told about an error or the end of a
connection. -/
def Discreet (calls : ConnEvent → SockWorld → List SockCall) : Prop :=
  ∀ e w, (SockEvent.event e).isReport = true → calls e w = []

/-- Reports are only written to the trace. -/
def SockEnv.Quiet (env : SockEnv) : Prop :=
  ∀ e w, (SockEvent.event e).isReport = true → jdTcpsockOnEvent env e w = w.log (.event e)

lemma Discreet.quiet {calls : ConnEvent → SockWorld → List SockCall} (h : Discreet calls)
    (ip : IpAddr) (depth : ℕ) : (SockEnv.app ip calls depth).Quiet := by
  intro e w he
  cases depth with
  | zero => rfl
  | succ depth => simp [jdTcpsockOnEvent, SockEnv.app, h e _ he]

namespace SockWorld

/-- The application was told about the failure of the latest attempt: one error, then the end. -/
def ReportedOnce (w : SockWorld) : Prop :=
  ∃ msg, reports w.trace = [.event .closed, .event (.error msg)]

/-- The input makes the attempt in progress fail.  The attempt is the one that is in progress, or
the one that `jd_tcpsock_new` starts; its lookup is the one it asked for, its block is the one in
`sock_state.tcp_pcb`. -/
def Fails (w : SockWorld) : SockInput → Prop
  | .new _ port lwip =>
    badPort port = false ∧ lwip.dnsErr ≠ errOk ∧ lwip.dnsErr ≠ errInprogress
  | .write _ lwip =>
    (latestAttempt w.trace).isSome ∧ w.sock.connected = true ∧
      (lwip.writeErr ≠ 0 ∨ lwip.outputErr ≠ 0)
  | .close _ => False
  | .process lwip =>
    (latestAttempt w.trace).isSome ∧ w.sock.hostFoundPending = true ∧
      (lwip.newOk = false ∨ lwip.connectErr ≠ 0)
  | .found k ipaddr lwip =>
    (latestAttempt w.trace).isSome ∧ (w.lookups[k]?).map Lookup.attempt = some w.attempts ∧
      (ipaddr = none ∨ lwip.newOk = false ∨ lwip.connectErr ≠ 0)
  | .connected p err _ =>
    (latestAttempt w.trace).isSome ∧ w.sock.tcpPcb = some p ∧ err ≠ errOk
  | .recv p buf _ => (latestAttempt w.trace).isSome ∧ w.sock.tcpPcb = some p ∧ buf = none
  | .err p _ _ => (latestAttempt w.trace).isSome ∧ w.sock.tcpPcb = some p

/-- The flag `connecting` says whether an attempt is in progress; nothing was reported about an
attempt in progress, and at most one failure about one that ended. -/
structure ReportInv (w : SockWorld) : Prop where
  connecting : w.sock.connecting = (latestAttempt w.trace).isSome
  unreported : w.sock.connecting = true → reports w.trace = []
  once : reports w.trace = [] ∨ w.ReportedOnce

namespace ReportInv

variable {env : SockEnv} {w t : SockWorld}

lemma initial : ReportInv initial := ⟨rfl, fun _ => rfl, .inl rfl⟩

/-- Entries that neither delimit an attempt nor report anything keep the invariant. -/
lemma extend (h : ReportInv w) {m : List SockEvent}
    (hsock : t.sock.connecting = w.sock.connecting) (htrace : t.trace = m ++ w.trace)
    (hm : ∀ e ∈ m, e.delimits = false ∧ e.isReport = false) : ReportInv t where
  connecting := by
    rw [hsock, htrace, latestAttempt_append fun e he => (hm e he).1, h.connecting]
  unreported hc := by rw [htrace, reports_append hm, h.unreported (hsock ▸ hc)]
  once := by rw [ReportedOnce, htrace, reports_append hm]; exact h.once

lemma log (h : ReportInv w) {e : SockEvent} (hdel : e.delimits = false)
    (hrep : e.isReport = false) :
    ReportInv (w.log e) :=
  h.extend (m := [e]) rfl rfl (by simpa using ⟨hdel, hrep⟩)

lemma close (h : ReportInv w) (lwip : Lwip) : ReportInv (jdTcpsockClose lwip w) where
  connecting := by simp [SockState.zero, latestAttempt]
  unreported hc := by simp [SockState.zero] at hc
  once := by rw [ReportedOnce, reports_close]; exact h.once

/-- An error during an attempt is reported once, and the state is zero after it. -/
lemma raiseError_reports (h : ReportInv w) (hc : w.sock.connecting = true) (henv : env.Quiet)
    (lwip : Lwip) (msg : String) :
    reports (raiseError env lwip msg w).trace = [.event .closed, .event (.error msg)] ∧
      (raiseError env lwip msg w).sock = .zero := by
  rw [raiseError_of_connecting hc, henv _ _ rfl, henv _ _ rfl]
  refine ⟨?_, by simp [SockWorld.log]⟩
  have hnone := (reports_close lwip w).trans (h.unreported hc)
  unfold reports at hnone ⊢
  rw [SockWorld.log, SockWorld.log, sinceAttempt_cons rfl, sinceAttempt_cons rfl,
    List.filter_cons_of_pos rfl, List.filter_cons_of_pos rfl, hnone]

lemma raiseError (h : ReportInv w) (henv : env.Quiet) (lwip : Lwip) (msg : String) :
    ReportInv (raiseError env lwip msg w) := by
  cases hc : w.sock.connecting with
  | false => rwa [raiseError_of_not_connecting hc]
  | true =>
    obtain ⟨hreports, hzero⟩ := h.raiseError_reports hc henv lwip msg
    refine ⟨?_, ?_, .inr ⟨msg, hreports⟩⟩
    · rw [hzero, raiseError_of_connecting hc, henv _ _ rfl, henv _ _ rfl]
      rfl
    · intro ht
      rw [hzero] at ht
      exact nomatch ht

lemma allocFailed (h : ReportInv w) (ip : IpAddr) : ReportInv (allocFailed ip w) :=
  h.extend (m := [.tcpNew none]) rfl rfl (by simp [SockEvent.delimits, SockEvent.isReport])

lemma connectStarted (h : ReportInv w) (lwip : Lwip) (ip : IpAddr) :
    ReportInv (connectStarted lwip ip w) := by
  refine h.extend (m := connectCalls ip w) rfl rfl ?_
  intro e he
  simp only [connectCalls, List.mem_cons, List.not_mem_nil, or_false] at he
  rcases he with rfl | rfl | rfl | rfl | rfl <;> exact ⟨rfl, rfl⟩

lemma lookupAnswered (h : ReportInv w) (l : Lookup) (k : ℕ) (ipaddr : Option IpAddr) :
    ReportInv (w.lookupAnswered l k ipaddr) := by
  refine h.extend rfl rfl ?_
  intro e he
  simp only [Option.mem_toList, Option.map_eq_some_iff] at he
  obtain ⟨a, -, rfl⟩ := he
  exact ⟨rfl, rfl⟩

lemma hostFound (h : ReportInv w) (henv : env.Quiet) (lwip : Lwip) (ipaddr : Option IpAddr) :
    ReportInv (hostFound env lwip ipaddr w) := by
  have hstarted := h.connectStarted lwip (ipaddr.getD env.ipAtNull)
  exact hostFound_rule (fun _ msg => (h.allocFailed _).raiseError henv lwip msg)
    (fun _ _ msg => hstarted.raiseError henv lwip msg) fun _ _ => hstarted

lemma attemptStarted (lwip : Lwip) (hostname : String) (port : Int32) (w : SockWorld) :
    ReportInv (attemptStarted lwip hostname port w) :=
  ⟨rfl, fun _ => rfl, .inl rfl⟩

lemma new (h : ReportInv w) (henv : env.Quiet) (lwip : Lwip) (hostname : String) (port : Int32) :
    ReportInv (jdTcpsockNew env lwip hostname port w).2 := by
  have hstarted := attemptStarted lwip hostname port w
  refine jdTcpsockNew_rule (fun _ => h) ?_ ?_ fun _ msg =>
    (hstarted.raiseError henv lwip msg).close lwip
  · intro _
    exact hstarted.extend (m := []) rfl rfl (by simp)
  · intro _
    exact hstarted.extend (m := [.answer hostname lwip.dnsIp]) rfl rfl (by
      simp [SockEvent.delimits, SockEvent.isReport])

lemma write (h : ReportInv w) (henv : env.Quiet) {lwip : Lwip} {buf : List UInt8}
    {r : ℤ × SockWorld} (hr : jdTcpsockWrite env lwip buf w = some r) : ReportInv r.2 :=
  jdTcpsockWrite_rule hr h (fun _ _ _ hw => hw.log rfl rfl) fun _ msg hw =>
    hw.raiseError henv lwip msg

/-- Events other than reports keep the invariant: the calls they are answered with do. -/
lemma onEvent {calls : ConnEvent → SockWorld → List SockCall} (h : ReportInv w)
    (hcalls : Discreet calls) (ip : IpAddr) (depth : ℕ) {e : ConnEvent}
    (he : (SockEvent.event e).isReport = false) :
    ReportInv (jdTcpsockOnEvent (.app ip calls depth) e w) := by
  cases depth with
  | zero => exact h.log rfl he
  | succ depth =>
    have henv := hcalls.quiet ip depth
    refine List.foldlRecOn _ _ (h.log rfl he) fun w hw c _ => ?_
    exact SockCall.apply_rule hw (fun lwip hostname port => hw.new henv lwip hostname port)
      (fun _ _ _ hr => hw.write henv hr) fun lwip => hw.close lwip

lemma recv {calls : ConnEvent → SockWorld → List SockCall} (h : ReportInv w)
    (hcalls : Discreet calls)
    (ip : IpAddr) (depth : ℕ) (lwip : Lwip) (p : Pcb) (buf : Option Pbuf) :
    ReportInv (tcpClientRecv (.app ip calls depth) lwip p buf w) := by
  refine tcpClientRecv_rule h ?_ fun msg => h.raiseError (hcalls.quiet ip depth) lwip msg
  intro segs _
  have hmsgs : ReportInv (messagesHandled (.app ip calls depth) segs w) :=
    List.foldlRecOn _ _ h fun w hw q _ => hw.onEvent hcalls ip depth rfl
  exact hmsgs.log rfl rfl

lemma free (h : ReportInv w) (p : Pcb) : ReportInv (w.free p) :=
  h.extend (m := []) rfl rfl (by simp)

lemma step {calls : ConnEvent → SockWorld → List SockCall} (hcalls : Discreet calls) (ip : IpAddr)
    (depth : ℕ) (w : SockWorld) (i : SockInput) (t : SockWorld) (h : ReportInv w)
    (ht : w.step (.app ip calls depth) i = some t) : ReportInv t := by
  have henv := hcalls.quiet ip depth
  cases sockStep_of_step ht with
  | new hostname port lwip => exact h.new henv lwip hostname port
  | write hr => exact h.write henv hr
  | close lwip => exact h.close lwip
  | process lwip => exact h.hostFound henv lwip _
  | processIdle lwip => exact h
  | found ipaddr lwip => exact (h.lookupAnswered _ _ ipaddr).hostFound henv lwip ipaddr
  | opened lwip =>
    have hset : ReportInv { w with sock := { w.sock with connected := true } } :=
      ⟨h.connecting, h.unreported, h.once⟩
    exact hset.onEvent hcalls ip depth rfl
  | connectFailed lwip => exact h.raiseError henv lwip _
  | recv buf lwip => exact h.recv hcalls ip depth lwip _ buf
  | err lwip => exact (h.free _).raiseError henv lwip _
  | aborted lwip => exact h.free _

/-- The flag `connecting` is set while an attempt is in progress. -/
lemma connecting_of_isSome (h : ReportInv w) (hprog : (latestAttempt w.trace).isSome) :
    w.sock.connecting = true := h.connecting.trans hprog

end ReportInv

/-- The failure is dealt with: reported once, and the state is zero. -/
def Handled (w : SockWorld) : Prop := w.ReportedOnce ∧ w.sock = .zero

variable {env : SockEnv} {w : SockWorld}

/-- Raising an error during an attempt deals with it. -/
lemma ReportInv.handled (h : ReportInv w) (hprog : (latestAttempt w.trace).isSome)
    (henv : env.Quiet) (lwip : Lwip) (msg : String) : Handled (JdPico.raiseError env lwip msg w) :=
  have hraise := h.raiseError_reports (h.connecting_of_isSome hprog) henv lwip msg
  ⟨⟨msg, hraise.1⟩, hraise.2⟩

/-- A socket with a block is not in the zero state. -/
lemma not_handled_of_tcpPcb {p : Pcb} (hp : w.sock.tcpPcb = some p) : ¬Handled w := by
  rintro ⟨-, hzero⟩
  rw [hzero] at hp
  exact nomatch hp

/-- A block that cannot be allocated or connected is dealt with. -/
lemma ReportInv.handled_hostFound (h : ReportInv w) (hprog : (latestAttempt w.trace).isSome)
    (henv : env.Quiet) {lwip : Lwip} (ipaddr : Option IpAddr)
    (hfail : lwip.newOk = false ∨ lwip.connectErr ≠ 0) :
    Handled (JdPico.hostFound env lwip ipaddr w) := by
  cases hnew : lwip.newOk with
  | false =>
    rw [hostFound_of_not_newOk hnew]
    exact (h.allocFailed _).handled hprog henv lwip _
  | true =>
    have herr : lwip.connectErr ≠ 0 := hfail.resolve_left (by simp [hnew])
    rw [hostFound_of_newOk hnew, if_pos herr]
    exact (h.connectStarted lwip _).handled hprog henv lwip _

/-- A block that is allocated and connected leaves a connection in progress. -/
lemma not_handled_hostFound {lwip : Lwip} (ipaddr : Option IpAddr) (w : SockWorld)
    (hnew : lwip.newOk = true) (herr : lwip.connectErr = 0) :
    ¬Handled (JdPico.hostFound env lwip ipaddr w) := by
  rw [hostFound_of_newOk hnew, if_neg (by simpa using herr)]
  exact not_handled_of_tcpPcb (p := w.nextPcb) rfl

/-- A failed write is dealt with. -/
lemma ReportInv.handled_write (h : ReportInv w) (hprog : (latestAttempt w.trace).isSome)
    (hcon : w.sock.connected = true) (henv : env.Quiet) {lwip : Lwip} {buf : List UInt8}
    {r : ℤ × SockWorld} (hfail : lwip.writeErr ≠ 0 ∨ lwip.outputErr ≠ 0)
    (hr : jdTcpsockWrite env lwip buf w = some r) : Handled r.2 := by
  have hwrite : ReportInv (w.tcp (.write buf) w.sock.tcpPcb) := h.log rfl rfl
  have houtput : ReportInv ((w.tcp (.write buf) w.sock.tcpPcb).tcp .output w.sock.tcpPcb) :=
    hwrite.log rfl rfl
  simp only [jdTcpsockWrite, hcon, Bool.not_true, Bool.false_eq_true, if_false] at hr
  split_ifs at hr with hlen hw ho
  · exact Option.some.inj hr ▸ hwrite.handled hprog henv lwip _
  · exact Option.some.inj hr ▸ houtput.handled hprog henv lwip _
  · exact absurd hfail (by simp_all)

end SockWorld

/-- The failures that are not reported: an abort by lwIP, and a name that is not resolved while lwIP
goes along with a connection to the address read instead. -/
def Unreported : SockInput → Prop
  | .err _ err _ => err = errAbrt
  | .found _ ipaddr lwip => ipaddr = none ∧ lwip.newOk = true ∧ lwip.connectErr = 0
  | _ => False

/-- **Reporting of failures.**  In every reachable state, a failure of the attempt is reported to
the application exactly once and leaves the zero state, unless it is an abort by lwIP or a name that
is not resolved. -/
theorem failure_reported_iff (ip : IpAddr) (calls : ConnEvent → SockWorld → List SockCall)
    (hcalls : Discreet calls) (depth : ℕ) (w : SockWorld)
    (hw : Reachable (SockWorld.step (.app ip calls depth)) .initial w) (i : SockInput)
    (hfail : w.Fails i) (t : SockWorld) (ht : w.step (.app ip calls depth) i = some t) :
    t.ReportedOnce ∧ t.sock = .zero ↔ ¬Unreported i := by
  have henv := hcalls.quiet ip depth
  have h : ReportInv w := hw.inv (ReportInv.step hcalls ip depth) ReportInv.initial
  change t.Handled ↔ _
  cases sockStep_of_step ht with
  | new hostname port lwip =>
    obtain ⟨hport, hok, hip⟩ := hfail
    have hraise := (ReportInv.attemptStarted lwip hostname port w).handled rfl henv lwip
      s!"can't resolve '{hostname}': {lwip.dnsErr}"
    rw [jdTcpsockNew_of_failed hport hok hip]
    refine iff_of_true ⟨?_, by simp⟩ id
    rw [ReportedOnce, reports_close]
    exact hraise.1
  | write hr =>
    obtain ⟨hprog, hcon, hfail⟩ := hfail
    exact iff_of_true (h.handled_write hprog hcon henv hfail hr) id
  | close lwip => exact hfail.elim
  | process lwip =>
    obtain ⟨hprog, -, hfail⟩ := hfail
    exact iff_of_true (h.handled_hostFound hprog henv _ hfail) id
  | processIdle lwip hpend =>
    obtain ⟨-, htrue, -⟩ := hfail
    simp [hpend] at htrue
  | @found k l ipaddr lwip hl =>
    obtain ⟨hprog, -, hfail⟩ := hfail
    have hans := h.lookupAnswered l k ipaddr
    have hprog' : (latestAttempt (w.lookupAnswered l k ipaddr).trace).isSome :=
      hans.connecting.symm.trans (h.connecting_of_isSome hprog)
    by_cases hconn : lwip.newOk = false ∨ lwip.connectErr ≠ 0
    · refine iff_of_true (hans.handled_hostFound hprog' henv ipaddr hconn) ?_
      rintro ⟨-, hnew, herr⟩
      exact hconn.elim (by simp [hnew]) (absurd herr)
    · obtain ⟨hnew, herr⟩ : lwip.newOk = true ∧ lwip.connectErr = 0 := by simpa using hconn
      exact iff_of_false (not_handled_hostFound ipaddr _ hnew herr)
        (not_not.mpr ⟨hfail.resolve_right hconn, hnew, herr⟩)
  | opened lwip =>
    obtain ⟨-, -, herr⟩ := hfail
    exact absurd rfl herr
  | connectFailed lwip =>
    obtain ⟨hprog, -, -⟩ := hfail
    exact iff_of_true (h.handled hprog henv lwip _) id
  | recv buf lwip =>
    obtain ⟨hprog, -, rfl⟩ := hfail
    exact iff_of_true (h.handled hprog henv lwip _) id
  | err lwip hp herr =>
    obtain ⟨hprog, -⟩ := hfail
    exact iff_of_true ((h.free _).handled hprog henv lwip _) herr
  | @aborted p lwip =>
    obtain ⟨-, htcp⟩ := hfail
    exact iff_of_false (not_handled_of_tcpPcb (p := p) htcp) (not_not.mpr rfl)

/-- In every reachable state, at most one failure was reported since the latest attempt was
started. -/
theorem reports_once (ip : IpAddr) (calls : ConnEvent → SockWorld → List SockCall)
    (hcalls : Discreet calls) (depth : ℕ) (w : SockWorld)
    (hw : Reachable (SockWorld.step (.app ip calls depth)) .initial w) :
    reports w.trace = [] ∨ w.ReportedOnce :=
  (hw.inv (ReportInv.step hcalls ip depth) ReportInv.initial).once

/-- An application that writes as soon as its connection is open. -/
def greet (e : ConnEvent) (_ : SockWorld) : List SockCall :=
  match e with
  | .opened => [.write [1] {}]
  | _ => []

/-- A connection that is reset by the remote side (`ERR_RST` is -14) is reported. -/
theorem failure_reported_iff_reset :
    ∃ w t, exec (SockWorld.step (.app 0 greet 1)) .initial
        [.new "a" 80 {}, .found 0 (some 7) {}, .connected 0 0 {}] = some w ∧
      w.step (.app 0 greet 1) (.err 0 (-14) {}) = some t ∧ t.ReportedOnce ∧ t.sock = .zero := by
  have hgreet : Discreet greet := by
    intro e w he
    cases e with
    | opened => simp [SockEvent.isReport] at he
    | closed | error msg | message q => rfl
  refine ⟨_, _, rfl, rfl, ?_⟩
  exact (failure_reported_iff 0 greet hgreet 1 _
    ⟨[.new "a" 80 {}, .found 0 (some 7) {}, .connected 0 0 {}], rfl⟩ (.err 0 (-14) {}) ⟨rfl, rfl⟩ _
    rfl).mpr (show ¬(-14 : ℤ) = errAbrt by decide)

/-- A connection that times out and a name that is not resolved: nothing is reported. -/
theorem failure_not_reported :
    (∃ w t, exec (SockWorld.step (.plain 0)) .initial
        [.new "a" 80 {}, .found 0 (some 7) {}, .connected 0 0 {}] = some w ∧
      w.Fails (.err 0 errAbrt {}) ∧ w.step (.plain 0) (.err 0 errAbrt {}) = some t ∧
      reports t.trace = [] ∧ t.sock ≠ .zero) ∧
    ∃ w t, exec (SockWorld.step (.plain 0)) .initial [.new "a" 80 {}] = some w ∧
      w.Fails (.found 0 none {}) ∧ w.step (.plain 0) (.found 0 none {}) = some t ∧
      reports t.trace = [] ∧ t.sock ≠ .zero :=
  ⟨⟨_, _, rfl, ⟨rfl, rfl⟩, rfl, rfl, by decide⟩,
    ⟨_, _, rfl, ⟨rfl, rfl, .inl rfl⟩, rfl, rfl, by decide⟩⟩

end JdPico
