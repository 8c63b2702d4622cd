import JdPico.Socket.Spec

/-!
# Reading the trace of the socket

The properties of whole runs are stated on the trace: which attempt is in progress
(`latestAttempt`), and what happened since the latest attempt was started (`sinceAttempt`).
-/

namespace JdPico

/-- `jd_tcpsock_new` started an attempt. -/
def SockEvent.isAttempt : SockEvent → Bool
  | .attempt _ _ => true
  | _ => false

/-- `tcp_new_ip_type` was called. -/
def SockEvent.isTcpNew : SockEvent → Bool
  | .tcpNew _ => true
  | _ => false

/-- `tcp_connect` was called. -/
def SockEvent.isConnect : SockEvent → Bool
  | .tcp (.connect _ _) _ _ => true
  | _ => false

/-- An error or the end of the connection was reported to the application. -/
def SockEvent.isReport : SockEvent → Bool
  | .event (.error _) => true
  | .event .closed => true
  | _ => false

/-- The host and the port of the attempt that is in progress.  It ends when the socket is closed;
`raise_error` closes it before it reports anything. -/
def latestAttempt : List SockEvent → Option (String × Int32)
  | [] => none
  | .attempt hostname port :: _ => some (hostname, port)
  | .closed _ :: _ => none
  | _ :: l => latestAttempt l

/-- What happened since the latest attempt was started, newest first. -/
def sinceAttempt (l : List SockEvent) : List SockEvent := l.takeWhile (!·.isAttempt)

/-- The number of entries of a kind since the latest attempt was started. -/
def countSince (f : SockEvent → Bool) (l : List SockEvent) : ℕ := (sinceAttempt l).countP f

/-- What was reported since the latest attempt was started, newest first. -/
def reports (l : List SockEvent) : List SockEvent := (sinceAttempt l).filter SockEvent.isReport

/-- The entry starts or ends an attempt. -/
def SockEvent.delimits : SockEvent → Bool
  | .attempt _ _ => true
  | .closed _ => true
  | _ => false

variable {l m : List SockEvent} {e : SockEvent} {f : SockEvent → Bool}

/-- Other entries come on top. -/
lemma sinceAttempt_append (hm : ∀ e ∈ m, e.isAttempt = false) :
    sinceAttempt (m ++ l) = m ++ sinceAttempt l :=
  List.takeWhile_append_of_pos fun e he => by simp [hm e he]

lemma sinceAttempt_cons (he : e.isAttempt = false) :
    sinceAttempt (e :: l) = e :: sinceAttempt l :=
  sinceAttempt_append (m := [e]) (by simpa using he)

/-- The calls of `jd_tcpsock_close` are none of the entries that are looked for. -/
lemma closeCalls_eq_false {lwip : Lwip} {w : SockWorld} (he : e ∈ closeCalls lwip w) :
    e.isAttempt = false ∧ e.isTcpNew = false ∧ e.isConnect = false ∧ e.isReport = false := by
  obtain ⟨fn, hfn, rfl⟩ := exists_of_mem_closeCalls he
  refine ⟨rfl, rfl, ?_, rfl⟩
  cases fn with
  | connect ip port => exact absurd hfn (connect_notMem_closeFns lwip ip port)
  | _ => rfl

/-- Since the latest attempt, `jd_tcpsock_close` adds its calls on the block. -/
lemma sinceAttempt_close (lwip : Lwip) (w : SockWorld) :
    sinceAttempt (jdTcpsockClose lwip w).trace =
      .closed w.lookups.length :: (closeCalls lwip w ++ sinceAttempt w.trace) := by
  rw [jdTcpsockClose_trace, sinceAttempt_cons rfl,
    sinceAttempt_append fun e he => (closeCalls_eq_false he).1]

/-- Other entries keep the attempt in progress. -/
lemma latestAttempt_append (hm : ∀ e ∈ m, e.delimits = false) :
    latestAttempt (m ++ l) = latestAttempt l := by
  induction m with
  | nil => rfl
  | cons e m ih =>
    have he := hm e (by simp)
    rw [List.cons_append, ← ih fun e he => hm e (by simp [he])]
    cases e with
    | attempt hostname port => simp [SockEvent.delimits] at he
    | closed waiting => simp [SockEvent.delimits] at he
    | answer hostname ip | tcpNew pcb | tcp fn pcb freed | event e => rfl

/-- Entries that start no attempt and are no reports report nothing. -/
lemma reports_append (hm : ∀ e ∈ m, e.delimits = false ∧ e.isReport = false) :
    reports (m ++ l) = reports l := by
  have hattempt : ∀ e ∈ m, e.isAttempt = false := by
    intro e he
    cases e with
    | attempt hostname port => simpa [SockEvent.delimits] using (hm _ he).1
    | _ => rfl
  have hnil : m.filter SockEvent.isReport = [] :=
    List.filter_eq_nil_iff.mpr fun e he => by simp [(hm e he).2]
  rw [reports, sinceAttempt_append hattempt, List.filter_append, hnil, List.nil_append, reports]

/-- Closing the socket reports nothing. -/
lemma reports_close (lwip : Lwip) (w : SockWorld) :
    reports (jdTcpsockClose lwip w).trace = reports w.trace := by
  have hnil : (closeCalls lwip w).filter SockEvent.isReport = [] :=
    List.filter_eq_nil_iff.mpr fun e he => by simp [(closeCalls_eq_false he).2.2.2]
  rw [reports, sinceAttempt_close, List.filter_cons_of_neg (by simp [SockEvent.isReport]),
    List.filter_append, hnil, List.nil_append, reports]

/-- Entries of other kinds do not count. -/
lemma countSince_append (hm : ∀ e ∈ m, e.isAttempt = false ∧ f e = false) :
    countSince f (m ++ l) = countSince f l := by
  have hzero : m.countP f = 0 := List.countP_eq_zero.mpr fun e he => by simp [(hm e he).2]
  rw [countSince, sinceAttempt_append fun e he => (hm e he).1, List.countP_append, hzero, zero_add,
    countSince]

/-- An entry counts if it is of the kind, and an attempt starts the count again. -/
lemma countSince_cons :
    countSince f (e :: l) =
      if e.isAttempt then 0 else countSince f l + if f e then 1 else 0 := by
  cases he : e.isAttempt with
  | true => simp [countSince, sinceAttempt, he]
  | false => simp [countSince, sinceAttempt_cons he, List.countP_cons]

/-- Closing the socket allocates no block. -/
lemma countSince_isTcpNew_close (lwip : Lwip) (w : SockWorld) :
    countSince SockEvent.isTcpNew (jdTcpsockClose lwip w).trace =
      countSince SockEvent.isTcpNew w.trace := by
  have hcalls : ∀ e ∈ closeCalls lwip w, e.isAttempt = false ∧ e.isTcpNew = false := by
    intro e he
    exact ⟨(closeCalls_eq_false he).1, (closeCalls_eq_false he).2.1⟩
  simp [countSince_cons, countSince_append hcalls, SockEvent.isAttempt, SockEvent.isTcpNew]

/-- Closing the socket starts no connection. -/
lemma countSince_isConnect_close (lwip : Lwip) (w : SockWorld) :
    countSince SockEvent.isConnect (jdTcpsockClose lwip w).trace =
      countSince SockEvent.isConnect w.trace := by
  have hcalls : ∀ e ∈ closeCalls lwip w, e.isAttempt = false ∧ e.isConnect = false := by
    intro e he
    exact ⟨(closeCalls_eq_false he).1, (closeCalls_eq_false he).2.2.1⟩
  simp [countSince_cons, countSince_append hcalls, SockEvent.isAttempt, SockEvent.isConnect]

end JdPico
