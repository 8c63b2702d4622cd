import JdPico.Socket.Contract

/-!
# The bytes that are received

lwIP hands over what has arrived in chains of buffers, and holds back the sender until it is told
through `tcp_recved` how much was taken.  `tcp_client_recv` gives the application one message for
each buffer of a chain, and the handler of a message may call the socket: it may write, close the
connection or start another one while the rest of the chain is still to come.

Whatever the handlers do, the rest of the chain is still handed over and acknowledged, also after
the connection was closed.  So in every run, with any application and with the callbacks of lwIP in
any order, the two agree with what arrived: the bytes handed over are those of the chains, in order
and each one once, and as many are acknowledged.
-/

namespace JdPico

open Machine SockWorld

variable {env : SockEnv} {lwip : Lwip} {w t : SockWorld}

/-- The bytes given to the application, and the number of those acknowledged. -/
def SockWorld.taken (w : SockWorld) : List UInt8 × ℕ := (payloads w.trace, acknowledged w.trace)

/-- The entry neither gives bytes to the application nor acknowledges any. -/
def SockEvent.TakesNothing (e : SockEvent) : Prop := e.payload = [] ∧ e.acks = 0

/-- The application takes nothing while it handles an event. -/
def SockEnv.TakesNothing (env : SockEnv) : Prop := ∀ e w, (env.onEvent e w).taken = w.taken

/-! ### Functions that take nothing -/

/-- Entries that take nothing are added to the trace. -/
lemma taken_of_trace {m : List SockEvent} (htrace : t.trace = m ++ w.trace)
    (hm : ∀ e ∈ m, e.TakesNothing) : t.taken = w.taken := by
  have hnone : payloads m = [] ∧ acknowledged m = 0 := by
    clear htrace
    induction m with
    | nil => exact ⟨rfl, rfl⟩
    | cons e m ih =>
      obtain ⟨hpayload, hacks⟩ := hm e List.mem_cons_self
      obtain ⟨hpayloads, hsum⟩ := ih fun e he => hm e (List.mem_cons_of_mem _ he)
      rw [payloads_cons, acknowledged_cons, hpayload, hacks, hpayloads, hsum]
      exact ⟨rfl, rfl⟩
  rw [SockWorld.taken, htrace, payloads_append, acknowledged_append, hnone.1, hnone.2,
    List.append_nil, Nat.zero_add, SockWorld.taken]

/-- One entry that takes nothing is added. -/
lemma taken_of_trace_cons {e : SockEvent} (htrace : t.trace = e :: w.trace)
    (he : e.TakesNothing) : t.taken = w.taken :=
  taken_of_trace (m := [e]) htrace (by simpa using he)

/-- Closing takes nothing. -/
lemma taken_close : (jdTcpsockClose lwip w).taken = w.taken := by
  refine taken_of_trace (m := .closed w.lookups.length :: closeCalls lwip w)
    (jdTcpsockClose_trace lwip w) fun e he => ?_
  rcases List.mem_cons.mp he with rfl | hcall
  · exact ⟨rfl, rfl⟩
  · obtain ⟨fn, hfn, rfl⟩ := exists_of_mem_closeCalls hcall
    have hrecved : ∀ len, TcpFn.recved len ∉ closeFns lwip := by
      unfold closeFns
      split_ifs <;> simp
    cases fn with
    | recved len => exact absurd hfn (hrecved len)
    | _ => exact ⟨rfl, rfl⟩

/-- An event that is not a message takes nothing. -/
lemma SockEnv.TakesNothing.onEvent (henv : env.TakesNothing) {e : ConnEvent}
    (he : SockEvent.TakesNothing (.event e)) : (jdTcpsockOnEvent env e w).taken = w.taken := by
  rw [jdTcpsockOnEvent, henv]
  exact taken_of_trace_cons rfl he

/-- Neither does an error. -/
lemma SockEnv.TakesNothing.raiseError (henv : env.TakesNothing) {msg : String} :
    (raiseError env lwip msg w).taken = w.taken := by
  cases hc : w.sock.connecting with
  | false => rw [raiseError_of_not_connecting hc]
  | true =>
    rw [raiseError_of_connecting hc, henv.onEvent ⟨rfl, rfl⟩, henv.onEvent ⟨rfl, rfl⟩, taken_close]

/-- Starting a connection takes nothing. -/
lemma SockEnv.TakesNothing.hostFound (henv : env.TakesNothing) {ipaddr : Option IpAddr} :
    (hostFound env lwip ipaddr w).taken = w.taken := by
  have hstarted : (connectStarted lwip (ipaddr.getD env.ipAtNull) w).taken = w.taken := by
    refine taken_of_trace (m := connectCalls (ipaddr.getD env.ipAtNull) w) rfl fun e he => ?_
    simp only [connectCalls, List.mem_cons, List.not_mem_nil, or_false] at he
    rcases he with rfl | rfl | rfl | rfl | rfl <;> exact ⟨rfl, rfl⟩
  have hfailed : (allocFailed (ipaddr.getD env.ipAtNull) w).taken = w.taken :=
    taken_of_trace_cons (e := .tcpNew none) rfl ⟨rfl, rfl⟩
  refine hostFound_rule (P := fun t => t.taken = w.taken) ?_ ?_ ?_
  · exact fun _ msg => henv.raiseError.trans hfailed
  · exact fun _ _ msg => henv.raiseError.trans hstarted
  · exact fun _ _ => hstarted

/-- Starting an attempt takes nothing. -/
lemma SockEnv.TakesNothing.new (henv : env.TakesNothing) {hostname : String} {port : Int32} :
    (jdTcpsockNew env lwip hostname port w).2.taken = w.taken := by
  have hattempt : (attemptStarted lwip hostname port w).taken = w.taken := by
    have hclose : (jdTcpsockClose lwip w).taken = w.taken := taken_close
    rw [← hclose]
    exact taken_of_trace_cons (e := .attempt hostname port) rfl ⟨rfl, rfl⟩
  refine jdTcpsockNew_rule (P := fun t => t.taken = w.taken) ?_ ?_ ?_ ?_
  · exact fun _ => rfl
  · exact fun _ => hattempt
  · intro _
    exact (taken_of_trace_cons (e := .answer hostname lwip.dnsIp) rfl ⟨rfl, rfl⟩).trans hattempt
  · exact fun _ msg => taken_close.trans (henv.raiseError.trans hattempt)

/-- Writing takes nothing. -/
lemma SockEnv.TakesNothing.write (henv : env.TakesNothing) {buf : List UInt8}
    {r : ℤ × SockWorld} (hr : jdTcpsockWrite env lwip buf w = some r) : r.2.taken = w.taken := by
  refine jdTcpsockWrite_rule (P := fun t => t.taken = w.taken) hr rfl ?_ ?_
  · intro u fn hfn hu
    refine (taken_of_trace_cons (e := .tcp fn u.sock.tcpPcb (u.freed u.sock.tcpPcb)) rfl ?_).trans
      hu
    rcases hfn with rfl | rfl
    · exact ⟨rfl, rfl⟩
    · exact ⟨rfl, rfl⟩
  · exact fun u msg hu => henv.raiseError.trans hu

/-- No application takes anything while it handles an event, whatever calls it makes. -/
lemma SockEnv.takesNothing_app (ip : IpAddr) (calls : ConnEvent → SockWorld → List SockCall)
    (depth : ℕ) : (SockEnv.app ip calls depth).TakesNothing := by
  induction depth with
  | zero => exact fun e w => rfl
  | succ depth ih =>
    intro e w
    refine List.foldlRecOn (motive := fun (t : SockWorld) => t.taken = w.taken) _ _ rfl
      fun u hu c _ => ?_
    refine SockCall.apply_rule (P := fun t => t.taken = w.taken) hu ?_ ?_ ?_
    · exact fun lwip hostname port => ih.new.trans hu
    · exact fun lwip buf r hr => (ih.write hr).trans hu
    · exact fun lwip => taken_close.trans hu

/-! ### Runs -/

/-- The messages of a chain give their bytes to the application. -/
lemma SockEnv.TakesNothing.messagesHandled (henv : env.TakesNothing) (segs : List (List UInt8))
    (w : SockWorld) :
    (messagesHandled env segs w).taken = (w.taken.1 ++ segs.flatten, w.taken.2) := by
  induction segs generalizing w with
  | nil => simp [JdPico.messagesHandled]
  | cons q segs ih =>
    have hmessage : (jdTcpsockOnEvent env (.message q) w).taken = (w.taken.1 ++ q, w.taken.2) := by
      rw [jdTcpsockOnEvent, henv]
      simp [SockWorld.taken, SockWorld.log, payloads_cons, acknowledged_cons, SockEvent.payload,
        SockEvent.acks]
    have hrest := ih (jdTcpsockOnEvent env (.message q) w)
    rw [hmessage] at hrest
    rw [List.flatten_cons, ← List.append_assoc]
    exact hrest

/-- A chain that arrives is given to the application and acknowledged. -/
lemma SockEnv.TakesNothing.recv (henv : env.TakesNothing) (p : Pcb) (buf : Option Pbuf) :
    (tcpClientRecv env lwip p buf w).taken =
      (w.taken.1 ++ SockRun.arrives (.recv p buf lwip),
        w.taken.2 + (SockRun.arrives (.recv p buf lwip)).length) := by
  cases buf with
  | none =>
    rw [tcpClientRecv, henv.raiseError]
    simp [SockRun.arrives]
  | some buf =>
    have hlen : buf.segs.flatten.length = buf.totLen := by
      rw [buf.totLen_eq, List.length_flatten]
    simp only [tcpClientRecv, SockRun.arrives, hlen]
    by_cases hpos : 0 < buf.totLen
    · rw [if_pos hpos]
      have hmsgs := henv.messagesHandled buf.segs w
      have hack : ∀ u : SockWorld, (u.tcp (.recved buf.totLen) (some p)).taken =
          (u.taken.1, u.taken.2 + buf.totLen) := by
        intro u
        simp [SockWorld.taken, SockWorld.tcp, SockWorld.log, payloads_cons, acknowledged_cons,
          SockEvent.payload, SockEvent.acks, Nat.add_comm]
      rw [hack]
      unfold JdPico.messagesHandled at hmsgs
      rw [hmsgs]
    · rw [if_neg hpos]
      have hnil : buf.segs.flatten = [] := List.length_eq_zero_iff.mp (by omega)
      rw [hnil, List.append_nil, show buf.totLen = 0 by omega, Nat.add_zero]

/-- A step takes what arrives. -/
lemma SockEnv.TakesNothing.step (henv : env.TakesNothing) {i : SockInput}
    (ht : w.step env i = some t) :
    t.taken = (w.taken.1 ++ SockRun.arrives i, w.taken.2 + (SockRun.arrives i).length) := by
  have hnothing : t.taken = w.taken → SockRun.arrives i = [] →
      t.taken = (w.taken.1 ++ SockRun.arrives i, w.taken.2 + (SockRun.arrives i).length) := by
    intro htaken hnil
    simp [htaken, hnil]
  cases sockStep_of_step ht with
  | new hostname port lwip => exact hnothing henv.new rfl
  | write hr => exact hnothing (henv.write hr) rfl
  | close lwip => exact hnothing taken_close rfl
  | process lwip => exact hnothing henv.hostFound rfl
  | processIdle lwip => exact hnothing rfl rfl
  | @found k l ipaddr lwip hl =>
    refine hnothing (henv.hostFound.trans (taken_of_trace rfl fun e he => ?_)) rfl
    cases ipaddr with
    | none => exact absurd he (by simp)
    | some a =>
      obtain rfl : e = .answer l.hostname a := by simpa using he
      exact ⟨rfl, rfl⟩
  | opened lwip => exact hnothing (henv.onEvent ⟨rfl, rfl⟩) rfl
  | connectFailed lwip => exact hnothing henv.raiseError rfl
  | recv buf lwip => exact henv.recv _ buf
  | err lwip => exact hnothing henv.raiseError rfl
  | aborted lwip => exact hnothing rfl rfl

/-- **What arrives is taken.**  In every run, with any application that calls the socket from its
handlers and with the callbacks of lwIP in any order, the bytes given to the application are those
of the chains that arrived, in order, and the number acknowledged is theirs. -/
theorem received_stream (ip : IpAddr) (calls : ConnEvent → SockWorld → List SockCall) (depth : ℕ)
    (is : List SockInput) (w : SockWorld)
    (hrun : exec (SockWorld.step (.app ip calls depth)) .initial is = some w) :
    payloads w.trace = (is.map SockRun.arrives).flatten ∧
      acknowledged w.trace = (payloads w.trace).length := by
  have henv := SockEnv.takesNothing_app ip calls depth
  have h : w.taken = ((is.map SockRun.arrives).flatten,
      (is.map SockRun.arrives).flatten.length) := by
    refine exec_history (P := fun is (w : SockWorld) => w.taken =
      ((is.map SockRun.arrives).flatten, (is.map SockRun.arrives).flatten.length)) ?_ ?_ hrun
    · intro is w i t hw hst
      rw [henv.step hst, hw]
      simp
    · rfl
  have hpayloads := congrArg Prod.fst h
  have hacknowledged := congrArg Prod.snd h
  dsimp only [SockWorld.taken] at hpayloads hacknowledged
  exact ⟨hpayloads, hpayloads ▸ hacknowledged⟩

/-- An application that closes the socket when it gets a message. -/
def closeOnMessage (e : ConnEvent) (_ : SockWorld) : List SockCall :=
  match e with
  | .message _ => [.close {}]
  | _ => []

/-- A chain of two buffers arrives, and the connection is closed at the first one. -/
theorem received_stream_closed :
    ∃ w, exec (SockWorld.step (.app 0 closeOnMessage 1)) .initial
        [.new "a" 80 {}, .found 0 (some 1) {}, .connected 0 0 {},
          .recv 0 (some ⟨3, [[1, 2], [3]], rfl⟩) {}] = some w ∧
      w.sock = .zero ∧ payloads w.trace = [1, 2, 3] ∧ acknowledged w.trace = 3 := by
  refine ⟨_, rfl, rfl, ?_⟩
  obtain ⟨hpayloads, hacknowledged⟩ := received_stream 0 closeOnMessage 1
    [.new "a" 80 {}, .found 0 (some 1) {}, .connected 0 0 {},
      .recv 0 (some ⟨3, [[1, 2], [3]], rfl⟩) {}] _ rfl
  exact ⟨hpayloads, hacknowledged.trans (congrArg List.length hpayloads)⟩

end JdPico
