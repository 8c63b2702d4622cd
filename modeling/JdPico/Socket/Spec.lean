import JdPico.Socket.Model

/-!
# What the functions of the socket do

One lemma for each function of the socket that says what it changes.  `jd_tcpsock_close` zeroes
`sock_state`, frees the block and leaves only calls on that block in the trace; `raise_error` is
`jd_tcpsock_close` followed by the two events; `host_found` either fails to allocate a block or
starts a connection on a new one (`hostFound_of_newOk`).

What the application does with an event is only known by what it keeps (`SockEnv.Keeps`).  A
property that the events and the calls of the application keep is kept by every application that
makes such calls, however deep its handlers are nested (`SockEnv.keeps_app`).
-/

namespace JdPico

open SockWorld

/-! ### Closing -/

/-- The functions of lwIP that `jd_tcpsock_close` applies to the block, newest first. -/
def closeFns (lwip : Lwip) : List TcpFn :=
  if lwip.closeErr = errOk then [.close, .err, .recv, .sent, .poll, .arg]
  else [.abort, .close, .err, .recv, .sent, .poll, .arg]

/-- The calls of `jd_tcpsock_close` to lwIP, newest first. -/
def closeCalls (lwip : Lwip) (w : SockWorld) : List SockEvent :=
  match w.sock.tcpPcb with
  | none => []
  | some p => (closeFns lwip).map fun fn => .tcp fn (some p) (w.freed (some p))

/-- The control blocks after `jd_tcpsock_close`. -/
def closedPcbs (w : SockWorld) : Pcb → Option TcpPcb :=
  match w.sock.tcpPcb with
  | none => w.pcbs
  | some p => Function.update w.pcbs p none

/-- If only the block of the socket is allocated, closing leaves none. -/
lemma closedPcbs_eq_none {w : SockWorld} (honly : ∀ p, (w.pcbs p).isSome → w.sock.tcpPcb = some p)
    (p : Pcb) :
    closedPcbs w p = none := by
  have hother : w.sock.tcpPcb ≠ some p → w.pcbs p = none := by
    intro hne
    by_contra hsome
    exact hne (honly p (Option.isSome_iff_ne_none.mpr hsome))
  cases hq : w.sock.tcpPcb with
  | none =>
    simp only [closedPcbs, hq]
    exact hother (by simp [hq])
  | some q =>
    simp only [closedPcbs, hq]
    by_cases hpq : p = q
    · rw [hpq, Function.update_self]
    · rw [Function.update_of_ne hpq]
      refine hother fun hp => hpq ?_
      exact Option.some.inj (hp.symm.trans hq)

/-- `jd_tcpsock_close` zeroes the state, frees the block and calls lwIP on that block only. -/
lemma jdTcpsockClose_eq (lwip : Lwip) (w : SockWorld) :
    jdTcpsockClose lwip w =
      { w with
        sock := .zero
        pcbs := closedPcbs w
        trace := .closed w.lookups.length :: (closeCalls lwip w ++ w.trace) } := by
  unfold jdTcpsockClose closeCalls closedPcbs closeFns
  cases hp : w.sock.tcpPcb with
  | none => rfl
  | some p =>
    by_cases hclose : lwip.closeErr = errOk
    · simp [hclose, tcpArg, tcpRecv, tcpErr, tcpClose, SockWorld.tcp, register, free, log, freed]
    · simp [hclose, tcpArg, tcpRecv, tcpErr, tcpClose, tcpAbort, SockWorld.tcp, register, free, log,
        freed]

@[simp] lemma jdTcpsockClose_sock (lwip : Lwip) (w : SockWorld) :
    (jdTcpsockClose lwip w).sock = .zero := by rw [jdTcpsockClose_eq]

@[simp] lemma jdTcpsockClose_pcbs (lwip : Lwip) (w : SockWorld) :
    (jdTcpsockClose lwip w).pcbs = closedPcbs w := by rw [jdTcpsockClose_eq]

@[simp] lemma jdTcpsockClose_lookups (lwip : Lwip) (w : SockWorld) :
    (jdTcpsockClose lwip w).lookups = w.lookups := by rw [jdTcpsockClose_eq]

@[simp] lemma jdTcpsockClose_attempts (lwip : Lwip) (w : SockWorld) :
    (jdTcpsockClose lwip w).attempts = w.attempts := by rw [jdTcpsockClose_eq]

@[simp] lemma jdTcpsockClose_trace (lwip : Lwip) (w : SockWorld) :
    (jdTcpsockClose lwip w).trace = .closed w.lookups.length :: (closeCalls lwip w ++ w.trace) := by
  rw [jdTcpsockClose_eq]

/-- Every call of `jd_tcpsock_close` is on the block of the socket. -/
lemma exists_of_mem_closeCalls {lwip : Lwip} {w : SockWorld} {e : SockEvent}
    (he : e ∈ closeCalls lwip w) :
    ∃ fn ∈ closeFns lwip, e = .tcp fn w.sock.tcpPcb (w.freed w.sock.tcpPcb) := by
  unfold closeCalls at he
  cases hp : w.sock.tcpPcb with
  | none => simp [hp] at he
  | some p =>
    rw [hp] at he
    obtain ⟨fn, hfn, rfl⟩ := List.mem_map.mp he
    exact ⟨fn, hfn, rfl⟩

/-- `jd_tcpsock_close` does not connect. -/
lemma connect_notMem_closeFns (lwip : Lwip) (ip : IpAddr) (port : UInt16) :
    TcpFn.connect ip port ∉ closeFns lwip := by
  unfold closeFns
  split_ifs <;> simp

/-! ### Events -/

/-- A property that holds before an event holds after the application has handled it. -/
def SockEnv.Keeps (env : SockEnv) (P : SockWorld → Prop) : Prop :=
  ∀ e w, P w → P (jdTcpsockOnEvent env e w)

variable {env : SockEnv} {ip : IpAddr} {lwip : Lwip} {msg : String} {w : SockWorld}
  {P : SockWorld → Prop}

/-- `raise_error` closes the socket and reports the error, then the end of the connection. -/
lemma raiseError_of_connecting (h : w.sock.connecting = true) :
    raiseError env lwip msg w =
      jdTcpsockOnEvent env .closed (jdTcpsockOnEvent env (.error msg) (jdTcpsockClose lwip w)) := by
  simp [raiseError, h]

/-- `raise_error` does nothing while there is no attempt. -/
lemma raiseError_of_not_connecting (h : w.sock.connecting = false) :
    raiseError env lwip msg w = w := by
  simp [raiseError, h]

/-- What the application keeps holds after `raise_error` if it holds after `jd_tcpsock_close`. -/
lemma SockEnv.Keeps.raiseError (henv : env.Keeps P) (hidle : w.sock.connecting = false → P w)
    (hclosed : w.sock.connecting = true → P (jdTcpsockClose lwip w)) :
    P (raiseError env lwip msg w) := by
  cases hc : w.sock.connecting with
  | false =>
    rw [raiseError_of_not_connecting hc]
    exact hidle hc
  | true =>
    rw [raiseError_of_connecting hc]
    exact henv _ _ (henv _ _ (hclosed hc))

/-- The messages of a chain are handed on. -/
def messagesHandled (env : SockEnv) (segs : List (List UInt8)) (w : SockWorld) : SockWorld :=
  segs.foldl (fun w q => jdTcpsockOnEvent env (.message q) w) w

/-- What the application keeps holds after the messages of a chain. -/
lemma SockEnv.Keeps.messagesHandled (henv : env.Keeps P) (segs : List (List UInt8)) (hw : P w) :
    P (messagesHandled env segs w) := by
  induction segs generalizing w with
  | nil => exact hw
  | cons q segs ih => exact ih (henv _ _ hw)

/-! ### Starting a connection -/

/-- The state after `host_found` failed to allocate a block. -/
def allocFailed (ip : IpAddr) (w : SockWorld) : SockWorld :=
  { w with sock := { w.sock with ipaddr := ip, tcpPcb := none }, trace := .tcpNew none :: w.trace }

/-- The calls of `host_found` to lwIP on the new block, newest first. -/
def connectCalls (ip : IpAddr) (w : SockWorld) : List SockEvent :=
  [.tcp (.connect ip w.sock.portNum) (some w.nextPcb) false, .tcp .err (some w.nextPcb) false,
    .tcp .recv (some w.nextPcb) false, .tcp .arg (some w.nextPcb) false, .tcpNew (some w.nextPcb)]

/-- The state after `host_found` called `tcp_connect`. -/
def connectStarted (lwip : Lwip) (ip : IpAddr) (w : SockWorld) : SockWorld :=
  { w with
    sock := { w.sock with ipaddr := ip, tcpPcb := some w.nextPcb }
    pcbs := Function.update w.pcbs w.nextPcb
      (some ⟨true, true, true, lwip.connectErr = errOk⟩)
    nextPcb := w.nextPcb + 1
    trace := connectCalls ip w ++ w.trace }

/-- Without memory for a block, `host_found` raises an error. -/
lemma hostFound_of_not_newOk {ipaddr : Option IpAddr} (h : lwip.newOk = false) :
    hostFound env lwip ipaddr w =
      raiseError env lwip "can't alloc pcb" (allocFailed (ipaddr.getD env.ipAtNull) w) := by
  simp [hostFound, tcpNewIpType, h, allocFailed]

/-- With memory for a block, `host_found` starts a connection on it and raises an error if lwIP
refuses. -/
lemma hostFound_of_newOk {ipaddr : Option IpAddr} (h : lwip.newOk = true) :
    hostFound env lwip ipaddr w =
      if lwip.connectErr ≠ 0 then
        raiseError env lwip s!"can't start connect: {lwip.connectErr}"
          (connectStarted lwip (ipaddr.getD env.ipAtNull) w)
      else connectStarted lwip (ipaddr.getD env.ipAtNull) w := by
  simp [hostFound, tcpNewIpType, h, connectStarted, connectCalls, tcpArg, tcpRecv, tcpErr,
    tcpConnect, SockWorld.tcp, register, log, freed]

/-- `jd_tcpsock_process` leaves the flag set, so it calls `host_found` on the state it finds. -/
lemma jdTcpsockProcess_of_pending (h : w.sock.hostFoundPending = true) :
    jdTcpsockProcess env lwip w = hostFound env lwip (some w.sock.ipaddr) w := by
  have hsame : { w with sock := { w.sock with hostFoundPending := true } } = w := by rw [← h]
  simp only [jdTcpsockProcess, h, if_true, hsame]

/-- `jd_tcpsock_process` does nothing while the flag is clear. -/
lemma jdTcpsockProcess_of_not_pending (h : w.sock.hostFoundPending = false) :
    jdTcpsockProcess env lwip w = w := by
  simp [jdTcpsockProcess, h]

/-! ### Starting an attempt -/

/-- The state of a fresh attempt, before the name is looked up. -/
def attemptStarted (lwip : Lwip) (hostname : String) (port : Int32) (w : SockWorld) : SockWorld :=
  { jdTcpsockClose lwip w with
    sock := { SockState.zero with
      portNum := port.toUInt32.toUInt16, hostname := some hostname, connecting := true }
    attempts := w.attempts + 1
    trace := .attempt hostname port :: (jdTcpsockClose lwip w).trace }

/-- A port that is refused changes nothing. -/
lemma jdTcpsockNew_of_badPort {hostname : String} {port : Int32}
    (h : badPort port = true) : (jdTcpsockNew env lwip hostname port w).2 = w := by
  simp [jdTcpsockNew, h]

/-- A lookup that takes longer is added to those of lwIP. -/
lemma jdTcpsockNew_of_inProgress {hostname : String} {port : Int32}
    (hport : badPort port = false) (hdns : lwip.dnsErr = errInprogress) :
    (jdTcpsockNew env lwip hostname port w).2 =
      { attemptStarted lwip hostname port w with
        lookups := w.lookups ++ [⟨hostname, w.attempts + 1⟩] } := by
  have hok : errInprogress ≠ errOk := by decide
  simp [jdTcpsockNew, hport, hdns, hok, dnsGethostbyname, attemptStarted, log]

/-- An answer at once is kept for `jd_tcpsock_process`. -/
lemma jdTcpsockNew_of_ok {hostname : String} {port : Int32}
    (hport : badPort port = false) (hdns : lwip.dnsErr = errOk) :
    (jdTcpsockNew env lwip hostname port w).2 =
      { attemptStarted lwip hostname port w with
        sock := { (attemptStarted lwip hostname port w).sock with
          ipaddr := lwip.dnsIp, hostFoundPending := true }
        trace := .answer hostname lwip.dnsIp :: (attemptStarted lwip hostname port w).trace } := by
  have hip : errOk ≠ errInprogress := by decide
  simp [jdTcpsockNew, hport, hdns, hip, dnsGethostbyname, attemptStarted, log]

/-- A lookup that fails at once is reported, and the socket is closed twice. -/
lemma jdTcpsockNew_of_failed {hostname : String} {port : Int32} (hport : badPort port = false)
    (hok : lwip.dnsErr ≠ errOk) (hip : lwip.dnsErr ≠ errInprogress) :
    (jdTcpsockNew env lwip hostname port w).2 =
      jdTcpsockClose lwip (raiseError env lwip
        s!"can't resolve '{hostname}': {lwip.dnsErr}" (attemptStarted lwip hostname port w)) := by
  simp [jdTcpsockNew, hport, hok, hip, dnsGethostbyname, attemptStarted, log]

/-! ### Callbacks -/

/-- A callback is only delivered for a block that is allocated. -/
lemma SockWorld.isSome_of_delivers {w : SockWorld} {p : Pcb} {sel : TcpPcb → Bool}
    (h : w.delivers p sel = true) : (w.pcbs p).isSome := by
  cases hp : w.pcbs p with
  | none => simp [delivers, hp] at h
  | some c => rfl

/-- Freeing a block leaves no other block that was not there. -/
lemma SockWorld.isSome_of_free {w : SockWorld} {p q : Pcb} (h : ((w.free p).pcbs q).isSome) :
    (w.pcbs q).isSome := by
  by_cases hqp : q = p
  · simp [free, hqp] at h
  · simpa only [free, Function.update_of_ne hqp] using h

/-! ### Rules

To show that a property holds after a call it is enough to show it for each way the call can end. -/

/-- `host_found` fails to allocate a block, fails to connect it, or starts a connection. -/
lemma hostFound_rule {ipaddr : Option IpAddr}
    (halloc : lwip.newOk = false →
      ∀ msg, P (raiseError env lwip msg (allocFailed (ipaddr.getD env.ipAtNull) w)))
    (hrefused : lwip.newOk = true → lwip.connectErr ≠ 0 →
      ∀ msg, P (raiseError env lwip msg (connectStarted lwip (ipaddr.getD env.ipAtNull) w)))
    (hstarted : lwip.newOk = true → lwip.connectErr = 0 →
      P (connectStarted lwip (ipaddr.getD env.ipAtNull) w)) :
    P (hostFound env lwip ipaddr w) := by
  cases hnew : lwip.newOk with
  | false => exact hostFound_of_not_newOk hnew ▸ halloc hnew _
  | true =>
    rw [hostFound_of_newOk hnew]
    split_ifs with herr
    · exact hrefused hnew herr _
    · exact hstarted hnew (not_not.mp herr)

/-- `jd_tcpsock_new` refuses the port, waits for lwIP or for the main loop, or fails. -/
lemma jdTcpsockNew_rule {hostname : String} {port : Int32} (hbad : badPort port = true → P w)
    (hlater : badPort port = false →
      P { attemptStarted lwip hostname port w with
        lookups := w.lookups ++ [⟨hostname, w.attempts + 1⟩] })
    (hnow : badPort port = false →
      P { attemptStarted lwip hostname port w with
        sock := { (attemptStarted lwip hostname port w).sock with
          ipaddr := lwip.dnsIp, hostFoundPending := true }
        trace := .answer hostname lwip.dnsIp :: (attemptStarted lwip hostname port w).trace })
    (hfailed : badPort port = false →
      ∀ msg, P (jdTcpsockClose lwip (raiseError env lwip msg
        (attemptStarted lwip hostname port w)))) :
    P (jdTcpsockNew env lwip hostname port w).2 := by
  cases hport : badPort port with
  | true => exact jdTcpsockNew_of_badPort hport ▸ hbad hport
  | false =>
    by_cases hip : lwip.dnsErr = errInprogress
    · exact jdTcpsockNew_of_inProgress hport hip ▸ hlater hport
    by_cases hok : lwip.dnsErr = errOk
    · exact jdTcpsockNew_of_ok hport hok ▸ hnow hport
    · exact jdTcpsockNew_of_failed hport hok hip ▸ hfailed hport _

/-- `jd_tcpsock_write` does nothing on a socket that is not connected; otherwise it fails to write,
fails to flush, or does both. -/
lemma jdTcpsockWrite_cases {buf : List UInt8} {r : ℤ × SockWorld}
    (hr : jdTcpsockWrite env lwip buf w = some r) :
    (w.sock.connected = false ∧ r.2 = w) ∨
      (w.sock.connected = true ∧
        ((∃ msg, r.2 = raiseError env lwip msg (w.tcp (.write buf) w.sock.tcpPcb)) ∨
          (∃ msg, r.2 = raiseError env lwip msg
            ((w.tcp (.write buf) w.sock.tcpPcb).tcp .output w.sock.tcpPcb)) ∨
          r.2 = (w.tcp (.write buf) w.sock.tcpPcb).tcp .output w.sock.tcpPcb)) := by
  unfold jdTcpsockWrite at hr
  split_ifs at hr with hcon hlen herr herr'
  all_goals obtain rfl := Option.some.inj hr
  · exact .inl ⟨by simpa using hcon, rfl⟩
  · exact .inr ⟨by simpa using hcon, .inl ⟨_, rfl⟩⟩
  · exact .inr ⟨by simpa using hcon, .inr (.inl ⟨_, rfl⟩)⟩
  · exact .inr ⟨by simpa using hcon, .inr (.inr rfl)⟩

/-- `jd_tcpsock_write` does nothing, or calls lwIP once or twice and may raise an error. -/
lemma jdTcpsockWrite_rule {buf : List UInt8} {r : ℤ × SockWorld}
    (hr : jdTcpsockWrite env lwip buf w = some r) (hw : P w)
    (htcp : ∀ w fn, fn = .write buf ∨ fn = .output → P w → P (w.tcp fn w.sock.tcpPcb))
    (hraise : ∀ w msg, P w → P (raiseError env lwip msg w)) : P r.2 := by
  have hwrite := htcp w (.write buf) (.inl rfl) hw
  have houtput := htcp _ .output (.inr rfl) hwrite
  rcases jdTcpsockWrite_cases hr with ⟨-, hsame⟩ | ⟨-, ⟨msg, hfail⟩ | ⟨msg, hfail⟩ | hdone⟩
  · exact hsame ▸ hw
  · exact hfail ▸ hraise _ msg hwrite
  · exact hfail ▸ hraise _ msg houtput
  · exact hdone ▸ houtput

/-- `tcp_client_recv` raises an error, or hands the messages on and tells lwIP so. -/
lemma tcpClientRecv_rule {p : Pcb} {buf : Option Pbuf} (hw : P w)
    (hmsgs : ∀ segs len, P ((messagesHandled env segs w).tcp (.recved len) (some p)))
    (hraise : ∀ msg, P (raiseError env lwip msg w)) : P (tcpClientRecv env lwip p buf w) := by
  cases buf with
  | none => exact hraise _
  | some buf =>
    simp only [tcpClientRecv]
    split_ifs
    · exact hmsgs buf.segs buf.totLen
    · exact hw

/-- A call from a handler is one of three. -/
lemma SockCall.apply_rule {c : SockCall} (hw : P w)
    (hnew : ∀ lwip hostname port, P (jdTcpsockNew env lwip hostname port w).2)
    (hwrite : ∀ lwip buf r, jdTcpsockWrite env lwip buf w = some r → P r.2)
    (hclose : ∀ lwip, P (jdTcpsockClose lwip w)) : P (SockCall.apply env w c) := by
  cases c with
  | new hostname port lwip => exact hnew lwip hostname port
  | write buf lwip =>
    cases hr : jdTcpsockWrite env lwip buf w with
    | none => simpa [SockCall.apply, hr] using hw
    | some r => simpa [SockCall.apply, hr] using hwrite lwip buf r hr
  | close lwip => exact hclose lwip

/-- A property that events and the calls of the application keep is kept by every application. -/
lemma SockEnv.keeps_app (hlog : ∀ e w, P w → P (w.log (.event e)))
    (hnew : ∀ (env : SockEnv) lwip hostname port w, env.Keeps P → P w →
      P (jdTcpsockNew env lwip hostname port w).2)
    (hwrite : ∀ (env : SockEnv) lwip buf w r, env.Keeps P → P w →
      jdTcpsockWrite env lwip buf w = some r → P r.2)
    (hclose : ∀ lwip w, P w → P (jdTcpsockClose lwip w)) (ip : IpAddr)
    (calls : ConnEvent → SockWorld → List SockCall) (depth : ℕ) :
    (SockEnv.app ip calls depth).Keeps P := by
  induction depth with
  | zero => exact fun e w hw => hlog e w hw
  | succ depth ih =>
    intro e w hw
    refine List.foldlRecOn _ _ (hlog e w hw) fun w hw c _ => ?_
    exact SockCall.apply_rule hw (fun lwip hostname port => hnew _ lwip hostname port w ih hw)
      (fun lwip buf r hr => hwrite _ lwip buf w r ih hw hr) fun lwip => hclose lwip w hw

/-! ### The trace grows -/

section Trace

variable {e : SockEvent} (henv : env.Keeps fun w => e ∈ w.trace)

lemma mem_trace_close (h : e ∈ w.trace) : e ∈ (jdTcpsockClose lwip w).trace := by
  simp [h]

include henv

lemma mem_trace_raiseError (h : e ∈ w.trace) : e ∈ (raiseError env lwip msg w).trace :=
  henv.raiseError (fun _ => h) fun _ => mem_trace_close h

lemma mem_trace_hostFound {ipaddr : Option IpAddr} (h : e ∈ w.trace) :
    e ∈ (hostFound env lwip ipaddr w).trace := by
  have hstarted : e ∈ (connectStarted lwip (ipaddr.getD env.ipAtNull) w).trace :=
    List.mem_append_right _ h
  exact hostFound_rule (P := fun w => e ∈ w.trace)
    (fun _ _ => mem_trace_raiseError henv (List.mem_cons_of_mem _ h))
    (fun _ _ _ => mem_trace_raiseError henv hstarted) fun _ _ => hstarted

lemma mem_trace_new {hostname : String} {port : Int32} (h : e ∈ w.trace) :
    e ∈ (jdTcpsockNew env lwip hostname port w).2.trace := by
  have hstarted : e ∈ (attemptStarted lwip hostname port w).trace :=
    List.mem_cons_of_mem _ (mem_trace_close h)
  exact jdTcpsockNew_rule (P := fun w => e ∈ w.trace) (fun _ => h) (fun _ => hstarted)
    (fun _ => List.mem_cons_of_mem _ hstarted)
    fun _ _ => mem_trace_close (mem_trace_raiseError henv hstarted)

lemma mem_trace_write {buf : List UInt8} {r : ℤ × SockWorld}
    (hr : jdTcpsockWrite env lwip buf w = some r) (h : e ∈ w.trace) : e ∈ r.2.trace :=
  jdTcpsockWrite_rule (P := fun w => e ∈ w.trace) hr h (fun _ _ _ hw => List.mem_cons_of_mem _ hw)
    fun _ _ hw => mem_trace_raiseError henv hw

lemma mem_trace_recv {p : Pcb} {buf : Option Pbuf} (h : e ∈ w.trace) :
    e ∈ (tcpClientRecv env lwip p buf w).trace :=
  tcpClientRecv_rule (P := fun w => e ∈ w.trace) h
    (fun segs _ => List.mem_cons_of_mem _ (henv.messagesHandled segs h))
    fun _ => mem_trace_raiseError henv h

omit henv

/-- Every application keeps the entries of the trace. -/
lemma SockEnv.keeps_mem_trace (ip : IpAddr) (calls : ConnEvent → SockWorld → List SockCall)
    (depth : ℕ) (e : SockEvent) : (SockEnv.app ip calls depth).Keeps fun w => e ∈ w.trace := by
  refine keeps_app ?_ ?_ ?_ ?_ ip calls depth
  · exact fun _ _ hw => List.mem_cons_of_mem _ hw
  · exact fun _ _ _ _ _ henv hw => mem_trace_new henv hw
  · exact fun _ _ _ _ _ henv hw hr => mem_trace_write henv hr hw
  · exact fun _ _ hw => mem_trace_close hw

end Trace

/-! ### Steps -/

/-- What the step of each input can do. -/
inductive SockStep (env : SockEnv) (w : SockWorld) : SockInput → SockWorld → Prop
  | new (hostname : String) (port : Int32) (lwip : Lwip) :
    SockStep env w (.new hostname port lwip) (jdTcpsockNew env lwip hostname port w).2
  | write {buf : List UInt8} {lwip : Lwip} {r : ℤ × SockWorld}
    (hr : jdTcpsockWrite env lwip buf w = some r) : SockStep env w (.write buf lwip) r.2
  | close (lwip : Lwip) : SockStep env w (.close lwip) (jdTcpsockClose lwip w)
  | process (lwip : Lwip) (hpend : w.sock.hostFoundPending = true) :
    SockStep env w (.process lwip) (hostFound env lwip (some w.sock.ipaddr) w)
  | processIdle (lwip : Lwip) (hpend : w.sock.hostFoundPending = false) :
    SockStep env w (.process lwip) w
  | found {k : ℕ} {l : Lookup} (ipaddr : Option IpAddr) (lwip : Lwip)
    (hl : w.lookups[k]? = some l) :
    SockStep env w (.found k ipaddr lwip)
      (hostFound env lwip ipaddr (w.lookupAnswered l k ipaddr))
  | opened {p : Pcb} (lwip : Lwip) (hp : (w.pcbs p).isSome) :
    SockStep env w (.connected p errOk lwip)
      (jdTcpsockOnEvent env .opened { w with sock := { w.sock with connected := true } })
  | connectFailed {p : Pcb} {err : ℤ} (lwip : Lwip) (hp : (w.pcbs p).isSome) (herr : err ≠ errOk) :
    SockStep env w (.connected p err lwip)
      (raiseError env lwip s!"connect failed: {err}" w)
  | recv {p : Pcb} (buf : Option Pbuf) (lwip : Lwip) (hp : (w.pcbs p).isSome) :
    SockStep env w (.recv p buf lwip) (tcpClientRecv env lwip p buf w)
  | err {p : Pcb} {err : ℤ} (lwip : Lwip) (hp : (w.pcbs p).isSome) (herr : err ≠ errAbrt) :
    SockStep env w (.err p err lwip) (raiseError env lwip s!"sock error: {err}" (w.free p))
  | aborted {p : Pcb} (lwip : Lwip) (hp : (w.pcbs p).isSome) :
    SockStep env w (.err p errAbrt lwip) (w.free p)

/-- Every step is one of these. -/
lemma sockStep_of_step {i : SockInput} {t : SockWorld} (ht : w.step env i = some t) :
    SockStep env w i t := by
  cases i with
  | new hostname port lwip => exact Option.some.inj ht ▸ .new hostname port lwip
  | write buf lwip =>
    obtain ⟨r, hr, rfl⟩ := Option.map_eq_some_iff.mp ht
    exact .write hr
  | close lwip => exact Option.some.inj ht ▸ .close lwip
  | process lwip =>
    obtain rfl := Option.some.inj ht
    cases hpend : w.sock.hostFoundPending with
    | true =>
      rw [jdTcpsockProcess_of_pending hpend]
      exact .process lwip hpend
    | false =>
      rw [jdTcpsockProcess_of_not_pending hpend]
      exact .processIdle lwip hpend
  | found k ipaddr lwip =>
    simp only [SockWorld.step] at ht
    split at ht
    · exact nomatch ht
    · rename_i l hl
      exact Option.some.inj ht ▸ .found ipaddr lwip hl
  | connected p err lwip =>
    simp only [SockWorld.step] at ht
    split_ifs at ht with hp
    obtain rfl := Option.some.inj ht
    unfold tcpClientConnected
    split_ifs with herr
    · exact .connectFailed lwip (isSome_of_delivers hp) herr
    · obtain rfl := not_not.mp herr
      exact .opened lwip (isSome_of_delivers hp)
  | recv p buf lwip =>
    simp only [SockWorld.step] at ht
    split_ifs at ht with hp
    exact Option.some.inj ht ▸ .recv buf lwip (isSome_of_delivers hp)
  | err p err lwip =>
    simp only [SockWorld.step] at ht
    split_ifs at ht with hp
    obtain rfl := Option.some.inj ht
    unfold tcpClientErr
    split_ifs with herr
    · exact .err lwip (isSome_of_delivers hp) herr
    · obtain rfl := not_not.mp herr
      exact .aborted lwip (isSome_of_delivers hp)

/-- The entries of the trace stay. -/
lemma mem_trace_step {e : SockEvent} (henv : env.Keeps fun w => e ∈ w.trace) {i : SockInput}
    {t : SockWorld} (ht : w.step env i = some t) (h : e ∈ w.trace) : e ∈ t.trace := by
  cases sockStep_of_step ht with
  | new hostname port lwip => exact mem_trace_new henv h
  | write hr => exact mem_trace_write henv hr h
  | close lwip => exact mem_trace_close h
  | process lwip => exact mem_trace_hostFound henv h
  | processIdle lwip => exact h
  | found ipaddr lwip => exact mem_trace_hostFound henv (List.mem_append_right _ h)
  | opened lwip => exact henv _ _ h
  | connectFailed lwip => exact mem_trace_raiseError henv h
  | recv buf lwip => exact mem_trace_recv henv h
  | err lwip => exact mem_trace_raiseError henv h
  | aborted lwip => exact h

end JdPico
