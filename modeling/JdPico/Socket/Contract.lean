import JdPico.Socket.Grammar

/-!
# The contract of a connection

An application that makes no socket calls from its handler expects a connection to be opened, to
bring messages, and to end with an error and the end of the connection, in this order; it expects
the messages to hold the bytes that were received, all of them to be acknowledged, and its own
writes to reach a connection that is there.  `SocketContract` says so on the trace.

lwIP keeps its side: a name is looked up asynchronously and found before the application starts or
closes another attempt, or it is refused at once; a block connects at most once and receives data
only after that (`SockRun.Permitted`).  Then the events, the bytes and the acknowledgements are
right in every run.  A write can come too late: lwIP ends a connection with `ERR_ABRT`,
`tcp_client_err` leaves the state as it is on this one error, and `jd_tcpsock_write` goes on to
write to the freed block.  In every run without that callback the whole contract holds
(`socketContract_of_not_aborted`).
-/

namespace JdPico

open Machine SockWorld

/-! ### Runs -/

/-- A run of the socket: its state, the blocks that connected, and the bytes of the chains that
arrived. -/
structure SockRun where
  world : SockWorld
  connectedPcbs : List Pcb
  received : List UInt8

namespace SockRun

/-- The state at start-up. -/
def initial : SockRun := ⟨.initial, [], []⟩

/-- What lwIP and the application keep to. -/
def Permitted (r : SockRun) : SockInput → Prop
  | .new _ port lwip => badPort port = false → r.world.lookups = [] ∧ lwip.dnsErr ≠ errOk
  | .close _ => r.world.lookups = []
  | .found _ ipaddr _ => ipaddr.isSome
  | .connected p _ _ => p ∉ r.connectedPcbs
  | .recv p (some _) _ => p ∈ r.connectedPcbs
  | _ => True

instance (r : SockRun) : ∀ i, Decidable (r.Permitted i)
  | .new _ port lwip => inferInstanceAs (Decidable
      (badPort port = false → r.world.lookups = [] ∧ lwip.dnsErr ≠ errOk))
  | .close _ => inferInstanceAs (Decidable (r.world.lookups = []))
  | .found _ ipaddr _ => inferInstanceAs (Decidable (ipaddr.isSome = true))
  | .connected p _ _ => inferInstanceAs (Decidable (p ∉ r.connectedPcbs))
  | .recv p (some _) _ => inferInstanceAs (Decidable (p ∈ r.connectedPcbs))
  | .recv _ none _ | .write _ _ | .process _ | .err _ _ _ => .isTrue trivial

/-- The block of a connected callback. -/
def connects : SockInput → List Pcb
  | .connected p _ _ => [p]
  | _ => []

/-- The bytes of a chain that arrives. -/
def arrives : SockInput → List UInt8
  | .recv _ (some buf) _ => buf.segs.flatten
  | _ => []

/-- One call or callback, for an application that makes no socket calls from its handler. -/
def step (ip : IpAddr) (r : SockRun) (i : SockInput) : Option SockRun :=
  if r.Permitted i then
    (r.world.step (.plain ip) i).map fun w =>
      ⟨w, connects i ++ r.connectedPcbs, r.received ++ arrives i⟩
  else none

end SockRun

/-- What the application relies on. -/
structure SocketContract (r : SockRun) : Prop where
  /-- The events between two attempts. -/
  past : ∀ newer older hostname port, r.world.trace = newer ++ .attempt hostname port :: older →
    EventWord (eventsSince older)
  /-- The events since the latest attempt. -/
  word : EventWord (eventsSince r.world.trace)
  payloads_eq : payloads r.world.trace = r.received
  acknowledged_eq : acknowledged r.world.trace = (payloads r.world.trace).length
  /-- A write reaches lwIP only on an open connection whose block has not been freed. -/
  writes : ∀ newer older buf pcb freed,
    r.world.trace = newer ++ .tcp (.write buf) pcb freed :: older →
    OpenAt older ∧ pcb.isSome ∧ freed = false

/-! ### The socket -/

/-- What holds of a run in every state it reaches. -/
structure ConnInv (conn : List Pcb) (received : List UInt8) (w : SockWorld) : Prop where
  log : SockLogInv received w.trace
  word : EventWord (eventsSince w.trace)
  /-- The flags say which events were reported. -/
  opened : w.sock.connected = true → OpenWord (eventsSince w.trace)
  unopened : w.sock.connecting = true → w.sock.connected = false → eventsSince w.trace = []
  inProgress : (latestAttempt w.trace).isSome = w.sock.connecting
  /-- Without an attempt there is no block and no name to look up. -/
  idle : w.sock.connecting = false → w.sock.tcpPcb = none ∧ w.lookups = []
  notPending : w.sock.hostFoundPending = false
  /-- The name was found before there is a block. -/
  found : w.sock.tcpPcb.isSome → w.lookups = []
  one : w.lookups.length ≤ 1
  /-- The block of the socket is the only one that can be allocated. -/
  only : ∀ p, (w.pcbs p).isSome → w.sock.tcpPcb = some p
  old : ∀ p, p ∈ conn ∨ w.sock.tcpPcb = some p → p < w.nextPcb
  /-- The socket is connected once its block is. -/
  connected_iff : w.sock.connected = true ↔ ∃ p, w.sock.tcpPcb = some p ∧ p ∈ conn

namespace ConnInv

variable {conn : List Pcb} {received : List UInt8} {w : SockWorld}

lemma initial : ConnInv [] [] .initial where
  log :=
    { past := by simp [SockWorld.initial]
      payloads_eq := rfl
      acknowledged_eq := rfl
      writes := by simp [SockWorld.initial] }
  word := .nil
  opened := by simp [SockWorld.initial, SockState.zero]
  unopened := by simp [SockWorld.initial, SockState.zero]
  inProgress := rfl
  idle _ := ⟨rfl, rfl⟩
  notPending := rfl
  found _ := rfl
  one := Nat.zero_le _
  only := by simp [SockWorld.initial]
  old := by simp [SockWorld.initial, SockState.zero]
  connected_iff := by simp [SockWorld.initial, SockState.zero]

/-- A block has an attempt. -/
lemma connecting_of_tcpPcb (h : ConnInv conn received w) {p : Pcb} (hp : w.sock.tcpPcb = some p) :
    w.sock.connecting = true := by
  cases hc : w.sock.connecting with
  | true => rfl
  | false => simp [(h.idle hc).1] at hp

/-- A connection that can fail: it has brought nothing, or it is open. -/
lemma events_of_connecting (h : ConnInv conn received w) (hc : w.sock.connecting = true) :
    eventsSince w.trace = [] ∨ OpenWord (eventsSince w.trace) := by
  cases hcon : w.sock.connected with
  | false => exact .inl (h.unopened hc hcon)
  | true => exact .inr (h.opened hcon)

end ConnInv

/-- What closing a connection needs. -/
structure Closable (conn : List Pcb) (received : List UInt8) (w : SockWorld) : Prop where
  log : SockLogInv received w.trace
  lookups : w.lookups = []
  only : ∀ p, (w.pcbs p).isSome → w.sock.tcpPcb = some p
  old : ∀ p ∈ conn, p < w.nextPcb

namespace Closable

variable {conn : List Pcb} {received : List UInt8} {w t : SockWorld} {ip : IpAddr}

/-- The zero state without blocks and lookups, after entries that carry nothing. -/
lemma zeroed (h : Closable conn received w) {m : List SockEvent} (htrace : t.trace = m ++ w.trace)
    (hm : ∀ e ∈ m, e.carries = false) (hsock : t.sock = .zero) (hpcbs : ∀ p, t.pcbs p = none)
    (hlookups : t.lookups = w.lookups) (hnext : t.nextPcb = w.nextPcb)
    (hword : EventWord (eventsSince t.trace)) (hended : latestAttempt t.trace = none) :
    ConnInv conn received t where
  log := htrace ▸ h.log.extend hm
  word := hword
  opened := by simp [hsock, SockState.zero]
  unopened := by simp [hsock, SockState.zero]
  inProgress := by rw [hended, hsock]; rfl
  idle _ := ⟨by rw [hsock]; rfl, hlookups.trans h.lookups⟩
  notPending := by rw [hsock]; rfl
  found _ := hlookups.trans h.lookups
  one := by rw [hlookups, h.lookups]; exact Nat.zero_le _
  only := by simp [hpcbs]
  old := by
    rintro p (hp | hp)
    · exact hnext ▸ h.old p hp
    · simp [hsock, SockState.zero] at hp
  connected_iff := by simp [hsock, SockState.zero]

lemma closeCalls_not_carries (lwip : Lwip) (w : SockWorld) :
    ∀ e ∈ SockEvent.closed w.lookups.length :: closeCalls lwip w, e.carries = false := by
  intro e he
  rcases List.mem_cons.mp he with rfl | hcall
  · rfl
  · obtain ⟨fn, hfn, rfl⟩ := exists_of_mem_closeCalls hcall
    unfold closeFns at hfn
    split_ifs at hfn <;> fin_cases hfn <;> rfl

/-- Closing leaves the events as they are. -/
lemma close (h : Closable conn received w) (hword : EventWord (eventsSince w.trace)) (lwip : Lwip) :
    ConnInv conn received (jdTcpsockClose lwip w) :=
  h.zeroed (by simp) (closeCalls_not_carries lwip w) (by simp)
    (by simp [closedPcbs_eq_none h.only]) (by simp)
    (by rw [jdTcpsockClose_eq]) (by rwa [eventsSince_close]) (by simp [latestAttempt])

/-- An error ends the connection. -/
lemma raiseError (h : Closable conn received w) (hc : w.sock.connecting = true)
    (hevents : eventsSince w.trace = [] ∨ OpenWord (eventsSince w.trace)) (lwip : Lwip)
    (msg : String) :
    ConnInv conn received (raiseError (.plain ip) lwip msg w) := by
  rw [raiseError_of_connecting hc]
  refine h.zeroed (m := .event .closed :: .event (.error msg) :: .closed w.lookups.length ::
    closeCalls lwip w) ?_ ?_ ?_ ?_ ?_ ?_ ?_ ?_
  · simp [jdTcpsockOnEvent, SockEnv.plain, SockWorld.log]
  · intro e he
    obtain rfl | rfl | he := by simpa only [List.mem_cons] using he
    · rfl
    · rfl
    · exact closeCalls_not_carries lwip w e (List.mem_cons.mpr he)
  · simp [jdTcpsockOnEvent, SockEnv.plain, SockWorld.log]
  · simp [jdTcpsockOnEvent, SockEnv.plain, SockWorld.log, closedPcbs_eq_none h.only]
  · simp [jdTcpsockOnEvent, SockEnv.plain, SockWorld.log]
  · simp [jdTcpsockOnEvent, SockEnv.plain, SockWorld.log, jdTcpsockClose_eq]
  · simp only [jdTcpsockOnEvent, SockEnv.plain, SockWorld.log, eventsSince_event, eventsSince_close,
      List.append_assoc]
    exact .ended hevents msg
  · simp [jdTcpsockOnEvent, SockEnv.plain, SockWorld.log, latestAttempt]

end Closable

namespace ConnInv

variable {conn : List Pcb} {received : List UInt8} {w t : SockWorld} {ip : IpAddr}

lemma closable (h : ConnInv conn received w) (hlookups : w.lookups = []) :
    Closable conn received w :=
  ⟨h.log, hlookups, h.only, fun p hp => h.old p (.inl hp)⟩

lemma close (h : ConnInv conn received w) (hlookups : w.lookups = []) (lwip : Lwip) :
    ConnInv conn received (jdTcpsockClose lwip w) :=
  (h.closable hlookups).close h.word lwip

/-- An error on the block of the socket. -/
lemma raiseError (h : ConnInv conn received w) {p : Pcb} (hp : w.sock.tcpPcb = some p) (lwip : Lwip)
    (msg : String) : ConnInv conn received (raiseError (.plain ip) lwip msg w) :=
  have hc := h.connecting_of_tcpPcb hp
  (h.closable (h.found (by simp [hp]))).raiseError hc (h.events_of_connecting hc) lwip msg

/-- A fresh attempt. -/
lemma attemptStarted (h : ConnInv conn received w) (hlookups : w.lookups = []) (lwip : Lwip)
    (hostname : String) (port : Int32) :
    Closable conn received (attemptStarted lwip hostname port w) := by
  have hclosed := h.close hlookups lwip
  refine ⟨hclosed.log.attempt hclosed.word hostname port, ?_, ?_, ?_⟩
  · simp [JdPico.attemptStarted, hlookups]
  · simp [JdPico.attemptStarted, closedPcbs_eq_none h.only]
  · intro p hp
    exact hclosed.old p (.inl hp)

lemma new (h : ConnInv conn received w) {lwip : Lwip} {hostname : String} {port : Int32}
    (hpermit : badPort port = false → w.lookups = [] ∧ lwip.dnsErr ≠ errOk) :
    ConnInv conn received (jdTcpsockNew (.plain ip) lwip hostname port w).2 := by
  cases hport : badPort port with
  | true => rwa [jdTcpsockNew_of_badPort hport]
  | false =>
    obtain ⟨hlookups, hok⟩ := hpermit hport
    have hstarted := h.attemptStarted hlookups lwip hostname port
    by_cases hip : lwip.dnsErr = errInprogress
    · rw [jdTcpsockNew_of_inProgress hport hip]
      exact
        { log := hstarted.log
          word := .nil
          opened := by simp [JdPico.attemptStarted, SockState.zero]
          unopened := fun _ _ => rfl
          inProgress := rfl
          idle := by simp [JdPico.attemptStarted]
          notPending := rfl
          found := by simp [JdPico.attemptStarted, SockState.zero]
          one := by simp [hlookups]
          only := hstarted.only
          old := by
            rintro p (hp | hp)
            · exact hstarted.old p hp
            · simp [JdPico.attemptStarted, SockState.zero] at hp
          connected_iff := by simp [JdPico.attemptStarted, SockState.zero] }
    · rw [jdTcpsockNew_of_failed hport hok hip]
      have hraised : ConnInv conn received (JdPico.raiseError (.plain ip) lwip
          s!"can't resolve '{hostname}': {lwip.dnsErr}"
            (JdPico.attemptStarted lwip hostname port w)) :=
        hstarted.raiseError rfl (.inl rfl) lwip _
      refine hraised.close ?_ lwip
      rw [raiseError_of_connecting rfl]
      simpa [jdTcpsockOnEvent, SockEnv.plain, SockWorld.log] using hstarted.lookups

end ConnInv

/-- An attempt whose name was found and that has no block yet. -/
structure Resolved (conn : List Pcb) (received : List UInt8) (w : SockWorld) : Prop where
  log : SockLogInv received w.trace
  unopened : eventsSince w.trace = []
  inProgress : (latestAttempt w.trace).isSome = true
  connecting : w.sock.connecting = true
  notConnected : w.sock.connected = false
  notPending : w.sock.hostFoundPending = false
  lookups : w.lookups = []
  pcbs : ∀ p, w.pcbs p = none
  old : ∀ p ∈ conn, p < w.nextPcb

namespace Resolved

variable {conn : List Pcb} {received : List UInt8} {w : SockWorld} {ip a : IpAddr} {lwip : Lwip}

lemma allocFailed (h : Resolved conn received w) (msg : String) :
    ConnInv conn received (raiseError (.plain ip) lwip msg (allocFailed a w)) := by
  have hquiet : ∀ e ∈ [SockEvent.tcpNew none], e.isQuiet = true := by simp [SockEvent.isQuiet]
  have hclosable : Closable conn received (JdPico.allocFailed a w) := by
    refine ⟨h.log.quiet hquiet, h.lookups, ?_, h.old⟩
    simp [JdPico.allocFailed, h.pcbs]
  exact hclosable.raiseError h.connecting
    (.inl ((eventsSince_quiet hquiet).trans h.unopened)) lwip msg

lemma connectCalls_quiet : ∀ e ∈ connectCalls a w, e.isQuiet = true := by
  simp [connectCalls, SockEvent.isQuiet]

lemma connectStarted_events (h : Resolved conn received w) :
    eventsSince (connectStarted lwip a w).trace = [] :=
  (eventsSince_quiet connectCalls_quiet).trans h.unopened

lemma connectStarted_closable (h : Resolved conn received w) :
    Closable conn received (connectStarted lwip a w) := by
  refine ⟨h.log.quiet connectCalls_quiet, h.lookups, ?_, ?_⟩
  · intro p hp
    by_cases hpn : p = w.nextPcb
    · exact congrArg some hpn.symm
    · simp [connectStarted, Function.update_of_ne hpn, h.pcbs] at hp
  · intro p hp
    exact Nat.lt_succ_of_lt (h.old p hp)

lemma connectStarted (h : Resolved conn received w) :
    ConnInv conn received (connectStarted lwip a w) where
  log := h.connectStarted_closable.log
  word := by
    rw [h.connectStarted_events]
    exact .nil
  opened := by simp [JdPico.connectStarted, h.notConnected]
  unopened _ _ := h.connectStarted_events
  inProgress := by
    have hattempt : latestAttempt (JdPico.connectStarted lwip a w).trace = latestAttempt w.trace :=
      latestAttempt_quiet connectCalls_quiet
    rw [hattempt, h.inProgress]
    exact h.connecting.symm
  idle := by simp [JdPico.connectStarted, h.connecting]
  notPending := h.notPending
  found _ := h.lookups
  one := by simp [JdPico.connectStarted, h.lookups]
  only := h.connectStarted_closable.only
  old := by
    rintro p (hp | hp)
    · exact h.connectStarted_closable.old p hp
    · obtain rfl : w.nextPcb = p := Option.some.inj hp
      exact Nat.lt_succ_self _
  connected_iff := by
    constructor
    · intro hcon
      exact absurd (h.notConnected.symm.trans hcon) (by simp)
    · rintro ⟨p, hp, hmem⟩
      obtain rfl : w.nextPcb = p := Option.some.inj hp
      exact absurd (h.old _ hmem) (lt_irrefl _)

/-- The attempt gets its block, or fails. -/
lemma hostFound (h : Resolved conn received w) :
    ConnInv conn received (hostFound (.plain ip) lwip (some a) w) := by
  refine hostFound_rule (P := ConnInv conn received) ?_ ?_ ?_
  · intro _ msg
    exact h.allocFailed msg
  · intro _ _ msg
    exact h.connectStarted_closable.raiseError h.connecting (.inl h.connectStarted_events) lwip msg
  · intro _ _
    exact h.connectStarted

end Resolved

namespace ConnInv

variable {conn : List Pcb} {received : List UInt8} {w : SockWorld} {ip : IpAddr}

/-- The name of the attempt is found. -/
lemma lookupAnswered (h : ConnInv conn received w) {k : ℕ} {l : Lookup}
    (hl : w.lookups[k]? = some l)
    (a : IpAddr) : Resolved conn received (w.lookupAnswered l k (some a)) := by
  have hne : w.lookups ≠ [] := by
    intro hnil
    simp [hnil] at hl
  have hc : w.sock.connecting = true := by
    by_contra hc
    exact hne (h.idle (by simpa using hc)).2
  have hpcb : w.sock.tcpPcb = none := by
    by_contra hp
    exact hne (h.found (Option.isSome_iff_ne_none.mpr hp))
  have hcon : w.sock.connected = false := by
    by_contra hcon
    obtain ⟨p, hp, -⟩ := h.connected_iff.mp (by simpa using hcon)
    simp [hpcb] at hp
  have hquiet : ∀ e ∈ [SockEvent.answer l.hostname a], e.isQuiet = true := by
    simp [SockEvent.isQuiet]
  refine ⟨h.log.quiet hquiet, (eventsSince_quiet hquiet).trans (h.unopened hc hcon), ?_, hc, hcon,
    h.notPending, ?_, ?_, fun p hp => h.old p (.inl hp)⟩
  · exact (congrArg Option.isSome (latestAttempt_quiet hquiet)).trans (h.inProgress.trans hc)
  · -- there is one lookup, and it is the one that is answered
    obtain ⟨x, hx⟩ := List.length_eq_one_iff.mp
      (Nat.le_antisymm h.one (List.length_pos_iff.mpr hne))
    obtain rfl : k = 0 := by
      by_contra hk
      simp [hx, hk] at hl
    simp [SockWorld.lookupAnswered, hx]
  · intro p
    by_contra hsome
    have hp := h.only p (Option.isSome_iff_ne_none.mpr hsome)
    simp [hpcb] at hp

/-- The block of the socket connects. -/
lemma connected (h : ConnInv conn received w) {p : Pcb} (hp : w.sock.tcpPcb = some p)
    (hnew : p ∉ conn) :
    ConnInv (p :: conn) received
      (jdTcpsockOnEvent (.plain ip) .opened
        { w with sock := { w.sock with connected := true } }) := by
  have hcon : w.sock.connected = false := by
    by_contra hcon
    obtain ⟨q, hq, hmem⟩ := h.connected_iff.mp (by simpa using hcon)
    obtain rfl : p = q := Option.some.inj (hp.symm.trans hq)
    exact hnew hmem
  have hc := h.connecting_of_tcpPcb hp
  have hevents : eventsSince (.event .opened :: w.trace) = [.opened] := by
    rw [eventsSince_event, h.unopened hc hcon, List.nil_append]
  have hopen : OpenWord (eventsSince (.event .opened :: w.trace)) := ⟨[], hevents⟩
  exact
    { log := h.log.extend (m := [.event .opened]) (by simp [SockEvent.carries])
      word := hopen.eventWord
      opened := fun _ => hopen
      unopened := by simp [jdTcpsockOnEvent, SockEnv.plain, SockWorld.log]
      inProgress := h.inProgress
      idle := h.idle
      notPending := h.notPending
      found := h.found
      one := h.one
      only := h.only
      old := by
        rintro q (hq | hq)
        · rcases List.mem_cons.mp hq with rfl | hq
          · exact h.old q (.inr hp)
          · exact h.old q (.inl hq)
        · exact h.old q (.inr hq)
      connected_iff := iff_of_true rfl ⟨p, hp, List.mem_cons_self⟩ }

/-- Another block that connected belongs to no attempt in progress. -/
lemma connect_of_tcpPcb_none (h : ConnInv conn received w) (hnone : w.sock.tcpPcb = none) {p : Pcb}
    (hp : p < w.nextPcb) : ConnInv (p :: conn) received w :=
  { h with
    old := by
      rintro q (hq | hq)
      · rcases List.mem_cons.mp hq with rfl | hq
        · exact hp
        · exact h.old q (.inl hq)
      · exact h.old q (.inr hq)
    connected_iff := by
      rw [h.connected_iff]
      simp [hnone] }

/-- A connection that is refused ends. -/
lemma connectFailed (h : ConnInv conn received w) {p : Pcb} (hp : w.sock.tcpPcb = some p)
    (lwip : Lwip)
    (msg : String) : ConnInv (p :: conn) received (JdPico.raiseError (.plain ip) lwip msg w) := by
  have hzero : (JdPico.raiseError (.plain ip) lwip msg w).sock.tcpPcb = none ∧
      (JdPico.raiseError (.plain ip) lwip msg w).nextPcb = w.nextPcb := by
    rw [raiseError_of_connecting (h.connecting_of_tcpPcb hp)]
    simp [jdTcpsockOnEvent, SockEnv.plain, SockWorld.log, jdTcpsockClose_eq, SockState.zero]
  refine (h.raiseError hp lwip msg).connect_of_tcpPcb_none hzero.1 ?_
  rw [hzero.2]
  exact h.old p (.inr hp)

/-- lwIP frees the block. -/
lemma free (h : ConnInv conn received w) (p : Pcb) : ConnInv conn received (w.free p) :=
  { h with
    only := fun q hq => h.only q (isSome_of_free hq) }

end ConnInv

/-- The messages of a chain are reported one by one. -/
lemma filterMap_reported_messages (segs : List (List UInt8)) :
    (segs.map fun q => SockEvent.event (.message q)).filterMap SockEvent.reported =
      segs.map .message := by
  induction segs with
  | nil => rfl
  | cons q segs ih => exact congrArg (ConnEvent.message q :: ·) ih

/-- An application without socket calls of its own leaves the messages in the trace. -/
lemma messagesHandled_plain (ip : IpAddr) (segs : List (List UInt8)) (w : SockWorld) :
    messagesHandled (.plain ip) segs w =
      { w with trace := (segs.map fun q => .event (.message q)).reverse ++ w.trace } := by
  induction segs generalizing w with
  | nil => rfl
  | cons q segs ih =>
    have hrest := ih (w.log (.event (.message q)))
    simp only [SockWorld.log] at hrest
    change messagesHandled (.plain ip) segs (w.log (.event (.message q))) = _
    rw [SockWorld.log, hrest]
    simp

namespace ConnInv

variable {conn : List Pcb} {received : List UInt8} {w : SockWorld} {ip : IpAddr}

/-- A chain arrives on a connection that is open. -/
lemma chain (h : ConnInv conn received w) {p : Pcb} (hp : w.sock.tcpPcb = some p) (hconn : p ∈ conn)
    (lwip : Lwip) (buf : Pbuf) :
    ConnInv conn (received ++ buf.segs.flatten)
      (tcpClientRecv (.plain ip) lwip p (some buf) w) := by
  have hcon : w.sock.connected = true := h.connected_iff.mpr ⟨p, hp, hconn⟩
  by_cases hlen : 0 < buf.totLen
  · rw [show tcpClientRecv (.plain ip) lwip p (some buf) w =
      (messagesHandled (.plain ip) buf.segs w).tcp (.recved buf.totLen) (some p) from if_pos hlen,
      messagesHandled_plain]
    set m : List SockEvent := .tcp (.recved buf.totLen) (some p) (w.freed (some p)) ::
      (buf.segs.map fun q => .event (.message q)).reverse with hm
    have hattempt : latestAttempt (m ++ w.trace) = latestAttempt w.trace := by
      refine latestAttempt_append ?_
      simp [hm, SockEvent.delimits]
    have hevents : eventsSince (m ++ w.trace) = eventsSince w.trace ++ buf.segs.map .message := by
      rw [eventsSince_append (by simp [hm, SockEvent.isAttempt]), hm, List.filterMap_cons_none rfl,
        List.filterMap_reverse, List.reverse_reverse, filterMap_reported_messages]
    have hopen : OpenWord (eventsSince (m ++ w.trace)) :=
      hevents ▸ (h.opened hcon).messages buf.segs
    exact
      { h with
        log := h.log.chain buf (some p) (w.freed (some p))
        word := hopen.eventWord
        opened := fun _ => hopen
        unopened := fun _ hfalse => absurd (hcon.symm.trans hfalse) (by simp)
        inProgress := (congrArg Option.isSome hattempt).trans h.inProgress }
  · rw [show tcpClientRecv (.plain ip) lwip p (some buf) w = w from if_neg hlen]
    have hnil : buf.segs.flatten = [] := by
      have hzero : buf.segs.flatten.length = 0 := by
        rw [List.length_flatten, ← buf.totLen_eq]
        omega
      exact List.length_eq_zero_iff.mp hzero
    rwa [hnil, List.append_nil]

/-- A socket that is connected has an open connection and a block. -/
lemma openAt (h : ConnInv conn received w) (hcon : w.sock.connected = true) : OpenAt w.trace := by
  obtain ⟨p, hp, -⟩ := h.connected_iff.mp hcon
  exact ⟨h.opened hcon, h.inProgress.trans (h.connecting_of_tcpPcb hp)⟩

/-- Entries of the trace that report nothing keep what holds, if what the trace says is right. -/
lemma retrace (h : ConnInv conn received w) {l : List SockEvent} (hlog : SockLogInv received l)
    (hevents : eventsSince l = eventsSince w.trace)
    (hattempt : latestAttempt l = latestAttempt w.trace) :
    ConnInv conn received { w with trace := l } :=
  { h with
    log := hlog
    word := hevents.symm ▸ h.word
    opened := fun hcon => hevents.symm ▸ h.opened hcon
    unopened := fun hc hcon => hevents.trans (h.unopened hc hcon)
    inProgress := (congrArg Option.isSome hattempt).trans h.inProgress }

lemma tcpWrite (h : ConnInv conn received w) (hcon : w.sock.connected = true) (buf : List UInt8)
    (pcb : Option Pcb) : ConnInv conn received (w.tcp (.write buf) pcb) := by
  have hsilent : ∀ e ∈ [SockEvent.tcp (.write buf) pcb (w.freed pcb)],
      e.isAttempt = false ∧ e.reported = none := by
    simp [SockEvent.isAttempt, SockEvent.reported]
  exact h.retrace (h.log.write (h.openAt hcon) buf pcb (w.freed pcb))
    (eventsSince_append_of_silent hsilent) rfl

lemma tcpOutput (h : ConnInv conn received w) (pcb : Option Pcb) :
    ConnInv conn received (w.tcp .output pcb) := by
  have hquiet : ∀ e ∈ [SockEvent.tcp .output pcb (w.freed pcb)], e.isQuiet = true := by
    simp [SockEvent.isQuiet]
  exact h.retrace (h.log.quiet hquiet) (eventsSince_quiet hquiet) rfl

/-- A write reaches lwIP on an open connection, and may end it. -/
lemma write (h : ConnInv conn received w) {lwip : Lwip} {buf : List UInt8} {x : ℤ × SockWorld}
    (hx : jdTcpsockWrite (.plain ip) lwip buf w = some x) : ConnInv conn received x.2 := by
  rcases jdTcpsockWrite_cases hx with ⟨-, hsame⟩ | ⟨hcon, hreached⟩
  · exact hsame ▸ h
  · obtain ⟨p, hp, -⟩ := h.connected_iff.mp hcon
    have hwritten := h.tcpWrite hcon buf w.sock.tcpPcb
    have hflushed := hwritten.tcpOutput w.sock.tcpPcb
    rcases hreached with ⟨msg, hfail⟩ | ⟨msg, hfail⟩ | hdone
    · exact hfail ▸ hwritten.raiseError hp lwip msg
    · exact hfail ▸ hflushed.raiseError hp lwip msg
    · exact hdone ▸ hflushed

end ConnInv

/-- One step of a run keeps what holds of it. -/
lemma SockRun.connInv_step {ip : IpAddr} {r t : SockRun} {i : SockInput}
    (h : ConnInv r.connectedPcbs r.received r.world) (hst : r.step ip i = some t) :
    ConnInv t.connectedPcbs t.received t.world := by
  unfold SockRun.step at hst
  split_ifs at hst with hpermit
  obtain ⟨w, hw, rfl⟩ := Option.map_eq_some_iff.mp hst
  cases sockStep_of_step hw with
  | new hostname port lwip => simpa [connects, arrives] using h.new hpermit
  | write hr => simpa [connects, arrives] using h.write hr
  | close lwip => simpa [connects, arrives] using h.close hpermit lwip
  | process lwip hpend => simp [h.notPending] at hpend
  | processIdle lwip => simpa [connects, arrives] using h
  | found ipaddr lwip hl =>
    obtain ⟨a, rfl⟩ := Option.isSome_iff_exists.mp hpermit
    simpa [connects, arrives] using (h.lookupAnswered hl a).hostFound
  | opened lwip hp => simpa [connects, arrives] using h.connected (h.only _ hp) hpermit
  | connectFailed lwip hp herr =>
    simpa [connects, arrives] using h.connectFailed (h.only _ hp) lwip _
  | recv buf lwip hp =>
    cases buf with
    | none => simpa [connects, arrives, tcpClientRecv] using h.raiseError (h.only _ hp) lwip _
    | some buf => simpa [connects, arrives] using h.chain (h.only _ hp) hpermit lwip buf
  | err lwip hp herr => simpa [connects, arrives] using (h.free _).raiseError (h.only _ hp) lwip _
  | aborted lwip hp => simpa [connects, arrives] using h.free _

/-! ### Writes -/

/-- The entry is a write without a block, or to one that was freed. -/
def SockEvent.isStrayWrite : SockEvent → Bool
  | .tcp (.write _) pcb freed => pcb.isNone || freed
  | _ => false

/-- The callback by which lwIP gives a connection up. -/
def SockInput.Aborts : SockInput → Prop
  | .err _ code _ => code = errAbrt
  | _ => False

instance : DecidablePred SockInput.Aborts
  | .err _ code _ => inferInstanceAs (Decidable (code = errAbrt))
  | .new _ _ _ | .write _ _ | .close _ | .process _ | .found _ _ _ | .connected _ _ _
  | .recv _ _ _ => .isFalse id

/-- The block of the socket is allocated, and every write reached such a block. -/
structure LiveInv (w : SockWorld) : Prop where
  live : ∀ p, w.sock.tcpPcb = some p → (w.pcbs p).isSome
  writes : ∀ e ∈ w.trace, e.isStrayWrite = false

namespace LiveInv

variable {w t : SockWorld} {ip : IpAddr}

lemma closeCalls_isStrayWrite (lwip : Lwip) (w : SockWorld) :
    ∀ e ∈ SockEvent.closed w.lookups.length :: closeCalls lwip w, e.isStrayWrite = false := by
  intro e he
  have hcarries := Closable.closeCalls_not_carries lwip w e he
  unfold SockEvent.carries at hcarries
  unfold SockEvent.isStrayWrite
  split <;> simp_all

lemma close (h : ∀ e ∈ w.trace, e.isStrayWrite = false) (lwip : Lwip) :
    LiveInv (jdTcpsockClose lwip w) where
  live := by simp [SockState.zero]
  writes := by
    intro e he
    rw [jdTcpsockClose_trace, ← List.cons_append] at he
    rcases List.mem_append.mp he with hcall | he
    · exact closeCalls_isStrayWrite lwip w e hcall
    · exact h e he

/-- What keeps the block of the socket and adds no write keeps the writes right. -/
lemma extend (h : LiveInv w) {m : List SockEvent} (hsock : t.sock.tcpPcb = w.sock.tcpPcb)
    (hpcbs : t.pcbs = w.pcbs) (htrace : t.trace = m ++ w.trace)
    (hm : ∀ e ∈ m, e.isStrayWrite = false) : LiveInv t where
  live := by
    rw [hsock, hpcbs]
    exact h.live
  writes := by
    intro e he
    rw [htrace] at he
    rcases List.mem_append.mp he with he | he
    · exact hm e he
    · exact h.writes e he

lemma event (h : LiveInv w) (e : ConnEvent) : LiveInv (w.log (.event e)) :=
  h.extend (m := [.event e]) rfl rfl rfl (by simp [SockEvent.isStrayWrite])

/-- An error closes the socket, whatever became of its block. -/
lemma raiseError (h : ∀ e ∈ w.trace, e.isStrayWrite = false) (hc : w.sock.connecting = true)
    (lwip : Lwip) (msg : String) : LiveInv (raiseError (.plain ip) lwip msg w) := by
  rw [raiseError_of_connecting hc]
  exact ((close h lwip).event _).event _

lemma connectStarted (h : LiveInv w) (lwip : Lwip) (a : IpAddr) :
    LiveInv (connectStarted lwip a w) where
  live := by
    intro p hp
    obtain rfl : w.nextPcb = p := Option.some.inj hp
    simp [JdPico.connectStarted]
  writes := by
    intro e he
    rcases List.mem_append.mp he with he | he
    · simp only [connectCalls, List.mem_cons, List.not_mem_nil, or_false] at he
      rcases he with rfl | rfl | rfl | rfl | rfl <;> rfl
    · exact h.writes e he

lemma hostFound (h : LiveInv w) (hc : w.sock.connecting = true) (lwip : Lwip)
    (ipaddr : Option IpAddr) :
    LiveInv (hostFound (.plain ip) lwip ipaddr w) := by
  have hstarted := h.connectStarted lwip (ipaddr.getD (SockEnv.plain ip).ipAtNull)
  refine hostFound_rule ?_ ?_ fun _ _ => hstarted
  · intro _ msg
    have hwrites : ∀ e ∈ (allocFailed (ipaddr.getD (SockEnv.plain ip).ipAtNull) w).trace,
        e.isStrayWrite = false := by
      simpa [allocFailed, SockEvent.isStrayWrite] using h.writes
    exact raiseError hwrites hc lwip msg
  · intro _ _ msg
    exact raiseError hstarted.writes hc lwip msg

lemma new (h : LiveInv w) (lwip : Lwip) (hostname : String) (port : Int32) :
    LiveInv (jdTcpsockNew (.plain ip) lwip hostname port w).2 := by
  have hstarted : LiveInv (attemptStarted lwip hostname port w) := by
    refine ⟨by simp [attemptStarted, SockState.zero], ?_⟩
    simpa [attemptStarted, SockEvent.isStrayWrite] using (close h.writes lwip).writes
  refine jdTcpsockNew_rule (fun _ => h) ?_ ?_ ?_
  · intro _
    exact hstarted.extend (m := []) rfl rfl rfl (by simp)
  · intro _
    exact hstarted.extend (m := [.answer hostname lwip.dnsIp]) rfl rfl rfl
      (by simp [SockEvent.isStrayWrite])
  · intro _ msg
    exact close (raiseError hstarted.writes rfl lwip msg).writes lwip

/-- A write on a socket that is connected reaches its block. -/
lemma write (h : LiveInv w) (hblock : w.sock.connected = true → ∃ p, w.sock.tcpPcb = some p)
    (hc : w.sock.connected = true → w.sock.connecting = true) {lwip : Lwip} {buf : List UInt8}
    {x : ℤ × SockWorld} (hx : jdTcpsockWrite (.plain ip) lwip buf w = some x) : LiveInv x.2 := by
  rcases jdTcpsockWrite_cases hx with ⟨-, hsame⟩ | ⟨hcon, hreached⟩
  · exact hsame ▸ h
  · obtain ⟨p, hp⟩ := hblock hcon
    have hfreed : w.freed w.sock.tcpPcb = false := by
      simpa [freed, hp, Option.isNone_eq_false_iff] using h.live p hp
    have hwritten : LiveInv (w.tcp (.write buf) w.sock.tcpPcb) := by
      refine h.extend (m := [.tcp (.write buf) w.sock.tcpPcb (w.freed w.sock.tcpPcb)])
        rfl rfl rfl ?_
      intro e he
      rw [List.mem_singleton.mp he, hfreed, hp]
      rfl
    have hflushed : LiveInv ((w.tcp (.write buf) w.sock.tcpPcb).tcp .output w.sock.tcpPcb) := by
      refine hwritten.extend (m := [.tcp .output w.sock.tcpPcb _]) rfl rfl rfl ?_
      simp [SockEvent.isStrayWrite]
    rcases hreached with ⟨msg, hfail⟩ | ⟨msg, hfail⟩ | hdone
    · exact hfail ▸ raiseError hwritten.writes (hc hcon) lwip msg
    · exact hfail ▸ raiseError hflushed.writes (hc hcon) lwip msg
    · exact hdone ▸ hflushed

lemma recv (h : LiveInv w) (hc : w.sock.connecting = true) (lwip : Lwip) (p : Pcb)
    (buf : Option Pbuf) :
    LiveInv (tcpClientRecv (.plain ip) lwip p buf w) := by
  refine tcpClientRecv_rule h ?_ fun msg => raiseError h.writes hc lwip msg
  intro segs len
  rw [messagesHandled_plain]
  refine h.extend (m := .tcp (.recved len) (some p) _ ::
    (segs.map fun q => SockEvent.event (.message q)).reverse) rfl rfl rfl ?_
  simp [SockEvent.isStrayWrite]

end LiveInv

/-- One step that is not the abort of a connection keeps the writes right. -/
lemma SockRun.liveInv_step {ip : IpAddr} {r t : SockRun} {i : SockInput}
    (hconn : ConnInv r.connectedPcbs r.received r.world) (h : LiveInv r.world) (hi : ¬i.Aborts)
    (hst : r.step ip i = some t) : LiveInv t.world := by
  unfold SockRun.step at hst
  split_ifs at hst with hpermit
  obtain ⟨w, hw, rfl⟩ := Option.map_eq_some_iff.mp hst
  have hblock : r.world.sock.connected = true → ∃ p, r.world.sock.tcpPcb = some p := by
    intro hcon
    obtain ⟨p, hp, -⟩ := hconn.connected_iff.mp hcon
    exact ⟨p, hp⟩
  have hc : ∀ {p}, (r.world.pcbs p).isSome → r.world.sock.connecting = true := by
    intro p hp
    exact hconn.connecting_of_tcpPcb (hconn.only p hp)
  change LiveInv w
  cases sockStep_of_step hw with
  | new hostname port lwip => exact h.new lwip hostname port
  | write hr =>
    refine h.write hblock (fun hcon => ?_) hr
    obtain ⟨p, hp⟩ := hblock hcon
    exact hconn.connecting_of_tcpPcb hp
  | close lwip => exact .close h.writes lwip
  | process lwip hpend => simp [hconn.notPending] at hpend
  | processIdle lwip => exact h
  | @found k l ipaddr lwip hl =>
    have hans : LiveInv (r.world.lookupAnswered l k ipaddr) := by
      refine h.extend rfl rfl rfl ?_
      cases ipaddr <;> simp [SockEvent.isStrayWrite]
    obtain ⟨a, rfl⟩ := Option.isSome_iff_exists.mp hpermit
    exact hans.hostFound (hconn.lookupAnswered hl a).connecting lwip _
  | opened lwip hp =>
    exact (h.extend (t := { r.world with sock := { r.world.sock with connected := true } })
      (m := []) rfl rfl rfl (by simp)).event _
  | connectFailed lwip hp herr => exact .raiseError h.writes (hc hp) lwip _
  | recv buf lwip hp => exact h.recv (hc hp) lwip _ buf
  | err lwip hp herr => exact .raiseError (w := r.world.free _) h.writes (hc hp) lwip _
  | aborted lwip hp => exact absurd rfl hi

/-- **The contract of the socket.**  In every run in which lwIP aborts no connection, the events of
every attempt form a word of the grammar, the messages hold exactly the bytes received and as many
are acknowledged, and writes only reach connections that are open. -/
theorem socketContract_of_not_aborted (ip : IpAddr) (is : List SockInput) (r : SockRun)
    (hrun : exec (SockRun.step ip) .initial is = some r)
    (hcond : AllSteps (SockRun.step ip) (fun _ i => ¬i.Aborts) .initial is) : SocketContract r := by
  obtain ⟨hconn, hlive⟩ : ConnInv r.connectedPcbs r.received r.world ∧ LiveInv r.world := by
    refine exec_inv_of_allSteps
      (P := fun r => ConnInv r.connectedPcbs r.received r.world ∧ LiveInv r.world) ?_ ?_ hcond hrun
    · rintro s i t ⟨hconn, hlive⟩ hi hst
      exact ⟨SockRun.connInv_step hconn hst, SockRun.liveInv_step hconn hlive hi hst⟩
    · exact ⟨ConnInv.initial, by simp [SockRun.initial, SockWorld.initial, SockState.zero],
        by simp [SockRun.initial, SockWorld.initial]⟩
  refine ⟨hconn.log.past, hconn.word, hconn.log.payloads_eq, hconn.log.acknowledged_eq, ?_⟩
  intro newer older buf pcb freed hsplit
  have hstray := hlive.writes (.tcp (.write buf) pcb freed) (by simp [hsplit])
  obtain ⟨hpcb, hfreed⟩ : pcb.isNone = false ∧ freed = false := by
    simpa [SockEvent.isStrayWrite] using hstray
  exact ⟨hconn.log.writes newer older buf pcb freed hsplit,
    Option.isNone_eq_false_iff.mp hpcb, hfreed⟩

/-- A connection that brings a chain of two segments and ends, then a name that is refused. -/
def servedThenRefused : List SockInput :=
  [.new "a" 80 {}, .found 0 (some 7) {}, .connected 0 errOk {},
    .recv 0 (some ⟨4, [[1, 2, 3], [4]], rfl⟩) {}, .write [9] {}, .recv 0 none {},
    .new "b" 81 { dnsErr := -6 }]

theorem socketContract_of_servedThenRefused :
    ∃ r, exec (SockRun.step 0) .initial servedThenRefused = some r ∧
      payloads r.world.trace = [1, 2, 3, 4] ∧
      SocketContract r := by
  refine ⟨_, rfl, by decide, ?_⟩
  exact socketContract_of_not_aborted 0 servedThenRefused _ rfl (.of_forall_mem (by decide))

/-- A connection that lwIP aborts after it was opened, and a write. -/
def abortedThenWritten : List SockInput :=
  [.new "a" 80 {}, .found 0 (some 7) {}, .connected 0 errOk {}, .err 0 errAbrt {}, .write [1] {}]

/-- The write reaches the block that lwIP has freed. -/
theorem not_socketContract_of_aborted :
    ∃ r, exec (SockRun.step 0) .initial abortedThenWritten = some r ∧ ¬SocketContract r := by
  refine ⟨_, rfl, ?_⟩
  intro h
  obtain ⟨-, -, hfreed⟩ := h.writes [.tcp .output (some 0) true] _ [1] (some 0) true rfl
  exact absurd hfreed (by decide)

end JdPico
