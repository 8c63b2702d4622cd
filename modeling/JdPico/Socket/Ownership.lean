import JdPico.Socket.Spec

/-!
# Who frees the control block

`sock_state.tcp_pcb` should be null or point to a block that is allocated, and no function of lwIP
should be applied to a block that has been freed.  The error callback breaks this: lwIP has freed
the block when it runs, and `tcp_client_err` either leaves the pointer as it is or closes the block
once more.  So does an application that closes the socket while it handles a message:
`tcp_client_recv` then goes on to acknowledge the data on the freed block.  We show that a run keeps
both properties exactly when no error callback is delivered for the block in `sock_state.tcp_pcb`
and no handler of a message frees the block the message came on (`tcpPcb_safe_iff`), whatever else
the handlers do.
-/

namespace JdPico

open Machine SockWorld

/-- A function of lwIP was applied to a block that had been freed. -/
def SockEvent.usesFreed : SockEvent → Bool
  | .tcp _ _ freed => freed
  | _ => false

/-- The pointer is null or to a block that is allocated, and no freed block was used. -/
structure SockWorld.Safe (w : SockWorld) : Prop where
  live : ∀ p, w.sock.tcpPcb = some p → (w.pcbs p).isSome
  unused : ∀ e ∈ w.trace, e.usesFreed = false

/-- The step is not an error callback for the block in `sock_state.tcp_pcb`, and if it is the
arrival of data, the application has not freed the block when its messages are handled. -/
def SockWorld.Undisturbed (env : SockEnv) (w : SockWorld) : SockInput → Prop
  | .err p _ _ => w.sock.tcpPcb ≠ some p
  | .recv p (some buf) _ => 0 < buf.totLen → ((messagesHandled env buf.segs w).pcbs p).isSome
  | _ => True

instance (env : SockEnv) (w : SockWorld) : ∀ i, Decidable (w.Undisturbed env i)
  | .err p _ _ => inferInstanceAs (Decidable (w.sock.tcpPcb ≠ some p))
  | .recv p (some buf) _ => inferInstanceAs (Decidable
      (0 < buf.totLen → ((messagesHandled env buf.segs w).pcbs p).isSome = true))
  | .recv _ none _ | .new _ _ _ | .write _ _ | .close _ | .process _ | .found _ _ _
  | .connected _ _ _ => .isTrue trivial

namespace SockWorld.Safe

variable {env : SockEnv} {w t : SockWorld}

lemma initial : Safe initial := ⟨by simp [SockWorld.initial, SockState.zero], by
  simp [SockWorld.initial]⟩

/-- What keeps the pointer and the blocks, and writes no use of a freed block, keeps a
state safe. -/
lemma extend (h : Safe w) {l : List SockEvent} (hp : t.sock.tcpPcb = w.sock.tcpPcb)
    (hpcbs : t.pcbs = w.pcbs) (htrace : t.trace = l ++ w.trace)
    (hl : ∀ e ∈ l, e.usesFreed = false) : Safe t := by
  refine ⟨fun p ht => by rw [hpcbs]; exact h.live p (hp ▸ ht), ?_⟩
  intro e he
  rw [htrace] at he
  rcases List.mem_append.mp he with he | he
  · exact hl e he
  · exact h.unused e he

lemma frame (h : Safe w) (hp : t.sock.tcpPcb = w.sock.tcpPcb) (hpcbs : t.pcbs = w.pcbs)
    (htrace : t.trace = w.trace) : Safe t :=
  h.extend hp hpcbs (l := []) htrace (by simp)

lemma log (h : Safe w) {e : SockEvent} (he : e.usesFreed = false) : Safe (w.log e) :=
  h.extend rfl rfl (l := [e]) rfl (by simpa using he)

/-- The block of a safe state is not freed. -/
lemma freed_tcpPcb (h : Safe w) : w.freed w.sock.tcpPcb = false := by
  cases hp : w.sock.tcpPcb with
  | none => rfl
  | some p => simpa [freed, Option.isNone_eq_false_iff] using h.live p hp

/-- A call on the block of the socket is safe. -/
lemma tcp (h : Safe w) (fn : TcpFn) : Safe (w.tcp fn w.sock.tcpPcb) :=
  h.log h.freed_tcpPcb

lemma close (h : Safe w) (lwip : Lwip) : Safe (jdTcpsockClose lwip w) := by
  refine ⟨by simp [SockState.zero], ?_⟩
  intro e he
  simp only [jdTcpsockClose_trace, List.mem_cons, List.mem_append] at he
  rcases he with rfl | he | he
  · rfl
  · obtain ⟨fn, -, rfl⟩ := exists_of_mem_closeCalls he
    exact h.freed_tcpPcb
  · exact h.unused e he

lemma raiseError (h : Safe w) (henv : env.Keeps Safe) (lwip : Lwip) (msg : String) :
    Safe (raiseError env lwip msg w) :=
  henv.raiseError (fun _ => h) fun _ => h.close lwip

lemma connectStarted (h : Safe w) (lwip : Lwip) (ip : IpAddr) :
    Safe (connectStarted lwip ip w) := by
  constructor
  · intro p hp
    obtain rfl : w.nextPcb = p := Option.some.inj hp
    simp [JdPico.connectStarted]
  · intro e he
    rcases List.mem_append.mp he with he | he
    · simp only [connectCalls, List.mem_cons, List.not_mem_nil, or_false] at he
      rcases he with rfl | rfl | rfl | rfl | rfl <;> rfl
    · exact h.unused e he

lemma lookupAnswered (h : Safe w) (l : Lookup) (k : ℕ) (ipaddr : Option IpAddr) :
    Safe (w.lookupAnswered l k ipaddr) := by
  refine h.extend rfl rfl rfl ?_
  intro e he
  simp only [Option.mem_toList, Option.map_eq_some_iff] at he
  obtain ⟨a, -, rfl⟩ := he
  rfl

lemma hostFound (h : Safe w) (henv : env.Keeps Safe) (lwip : Lwip) (ipaddr : Option IpAddr) :
    Safe (hostFound env lwip ipaddr w) := by
  have halloc : Safe (allocFailed (ipaddr.getD env.ipAtNull) w) :=
    ⟨by simp [allocFailed], by simpa [allocFailed, SockEvent.usesFreed] using h.unused⟩
  have hstarted := h.connectStarted lwip (ipaddr.getD env.ipAtNull)
  exact hostFound_rule (fun _ msg => halloc.raiseError henv lwip msg)
    (fun _ _ msg => hstarted.raiseError henv lwip msg) fun _ _ => hstarted

lemma new (h : Safe w) (henv : env.Keeps Safe) (lwip : Lwip) (hostname : String) (port : Int32) :
    Safe (jdTcpsockNew env lwip hostname port w).2 := by
  have hstarted : Safe (attemptStarted lwip hostname port w) := by
    refine ⟨by simp [attemptStarted, SockState.zero], ?_⟩
    intro e he
    rcases List.mem_cons.mp he with rfl | he
    · rfl
    · exact (h.close lwip).unused e he
  refine jdTcpsockNew_rule (fun _ => h) (fun _ => hstarted.frame rfl rfl rfl) ?_
    fun _ msg => (hstarted.raiseError henv lwip msg).close lwip
  intro _
  exact (hstarted.log (e := .answer hostname lwip.dnsIp) rfl).frame rfl rfl rfl

lemma write (h : Safe w) (henv : env.Keeps Safe) {lwip : Lwip} {buf : List UInt8}
    {r : ℤ × SockWorld} (hr : jdTcpsockWrite env lwip buf w = some r) : Safe r.2 :=
  jdTcpsockWrite_rule hr h (fun _ fn _ hw => hw.tcp fn) fun _ msg hw => hw.raiseError henv lwip msg

/-- Every application keeps a state safe while it handles an event. -/
lemma keeps_app (ip : IpAddr) (calls : ConnEvent → SockWorld → List SockCall) (depth : ℕ) :
    (SockEnv.app ip calls depth).Keeps Safe := by
  refine SockEnv.keeps_app ?_ ?_ ?_ ?_ ip calls depth
  · exact fun _ _ hw => hw.log rfl
  · exact fun _ lwip hostname port _ henv hw => hw.new henv lwip hostname port
  · exact fun _ _ _ _ _ henv hw hr => hw.write henv hr
  · exact fun lwip _ hw => hw.close lwip

/-- Data that arrives is acknowledged safely exactly when its block is still allocated. -/
lemma recv_iff (h : Safe w) (henv : env.Keeps Safe) (lwip : Lwip) (p : Pcb) (buf : Option Pbuf) :
    Safe (tcpClientRecv env lwip p buf w) ↔ w.Undisturbed env (.recv p buf lwip) := by
  cases buf with
  | none => exact iff_of_true (h.raiseError henv lwip _) trivial
  | some buf =>
    by_cases hlen : 0 < buf.totLen
    · have hmsgs : Safe (messagesHandled env buf.segs w) := henv.messagesHandled buf.segs h
      rw [show tcpClientRecv env lwip p (some buf) w =
        (messagesHandled env buf.segs w).tcp (.recved buf.totLen) (some p) from if_pos hlen]
      constructor
      · intro hsafe _
        simpa [SockEvent.usesFreed, freed, Option.isNone_eq_false_iff] using
          hsafe.unused (.tcp (.recved buf.totLen) (some p) _) List.mem_cons_self
      · intro hlive
        refine hmsgs.log ?_
        simpa [SockEvent.usesFreed, freed, Option.isNone_eq_false_iff] using hlive hlen
    · rw [show tcpClientRecv env lwip p (some buf) w = w from if_neg hlen]
      exact iff_of_true h fun hpos => absurd hpos hlen

/-- Freeing another block keeps a state safe. -/
lemma free (h : Safe w) {p : Pcb} (hp : w.sock.tcpPcb ≠ some p) : Safe (w.free p) := by
  refine ⟨?_, h.unused⟩
  intro q hq
  have hne : q ≠ p := fun hqp => hp (hqp ▸ hq)
  simpa [SockWorld.free, hne] using h.live q hq

end SockWorld.Safe

variable {env : SockEnv} {w : SockWorld} {p : Pcb}

/-- Once lwIP has freed the block of the socket, the pointer dangles. -/
lemma SockWorld.not_safe_free (hp : w.sock.tcpPcb = some p) : ¬(w.free p).Safe := by
  intro h
  simpa [SockWorld.free] using h.live p hp

/-- An error raised then closes the freed block, or leaves the pointer as it is. -/
lemma SockWorld.not_safe_raiseError_free (henv : ∀ e, env.Keeps fun w => e ∈ w.trace)
    (hp : w.sock.tcpPcb = some p) (lwip : Lwip) (msg : String) :
    ¬(raiseError env lwip msg (w.free p)).Safe := by
  intro h
  cases hc : (w.free p).sock.connecting with
  | false => exact not_safe_free hp (raiseError_of_not_connecting hc ▸ h)
  | true =>
    have hused : SockEvent.tcp .arg (some p) true ∈ closeCalls lwip (w.free p) := by
      have hp' : (w.free p).sock.tcpPcb = some p := hp
      have hfreed : (w.free p).freed (some p) = true := by simp [SockWorld.free, freed]
      rw [closeCalls, hp']
      simp only [hfreed, List.mem_map]
      exact ⟨.arg, by unfold closeFns; split_ifs <;> simp, rfl⟩
    have hmem : SockEvent.tcp .arg (some p) true ∈ (raiseError env lwip msg (w.free p)).trace := by
      refine (henv _).raiseError (fun hfalse => by simp [hc] at hfalse) fun _ => ?_
      simp [hused]
    have hunused := h.unused _ hmem
    simp [SockEvent.usesFreed] at hunused

/-- A step keeps a state safe exactly when neither lwIP nor the application disturbs it. -/
lemma SockWorld.step_safe_iff (henv : env.Keeps Safe) (hgrow : ∀ e, env.Keeps fun w => e ∈ w.trace)
    (w : SockWorld) (i : SockInput) (t : SockWorld) (h : w.Safe) (ht : w.step env i = some t) :
    t.Safe ↔ w.Undisturbed env i := by
  cases sockStep_of_step ht with
  | new hostname port lwip => exact iff_of_true (h.new henv lwip hostname port) trivial
  | write hr => exact iff_of_true (h.write henv hr) trivial
  | close lwip => exact iff_of_true (h.close lwip) trivial
  | process lwip => exact iff_of_true (h.hostFound henv lwip _) trivial
  | processIdle lwip => exact iff_of_true h trivial
  | found ipaddr lwip =>
    exact iff_of_true ((h.lookupAnswered _ _ ipaddr).hostFound henv lwip ipaddr) trivial
  | opened lwip =>
    have hset : Safe { w with sock := { w.sock with connected := true } } := h.frame rfl rfl rfl
    exact iff_of_true (henv _ _ hset) trivial
  | connectFailed lwip => exact iff_of_true (h.raiseError henv lwip _) trivial
  | recv buf lwip => exact h.recv_iff henv lwip _ buf
  | @err p err lwip =>
    by_cases hp : w.sock.tcpPcb = some p
    · exact iff_of_false (not_safe_raiseError_free hgrow hp lwip _) (not_not.mpr hp)
    · exact iff_of_true ((h.free hp).raiseError henv lwip _) hp
  | @aborted p lwip =>
    by_cases hp : w.sock.tcpPcb = some p
    · exact iff_of_false (not_safe_free hp) (not_not.mpr hp)
    · exact iff_of_true (h.free hp) hp

/-- **Ownership of the control block.**  Whatever socket calls the application makes, also while it
handles events, the states of a run are all safe exactly when no error callback is delivered for the
block in `sock_state.tcp_pcb` and no handler of a message frees the block the message came on. -/
theorem tcpPcb_safe_iff (ip : IpAddr) (calls : ConnEvent → SockWorld → List SockCall) (depth : ℕ)
    (is : List SockInput) (w : SockWorld)
    (hrun : exec (SockWorld.step (.app ip calls depth)) .initial is = some w) :
    AllStates (SockWorld.step (.app ip calls depth)) Safe .initial is ↔
      AllSteps (SockWorld.step (.app ip calls depth))
        (Undisturbed (.app ip calls depth)) .initial is :=
  allStates_iff_allSteps (SockWorld.step_safe_iff (Safe.keeps_app ip calls depth)
    (SockEnv.keeps_mem_trace ip calls depth)) Safe.initial hrun

/-- A connection that is opened, used and closed by the remote side, and the next one, are safe. -/
theorem tcpPcb_safe_iff_remote_close :
    AllStates (SockWorld.step (.app 0 reconnect 1)) Safe .initial
      [.new "a" 80 {}, .found 0 (some 7) {}, .connected 0 0 {}, .write [1, 2] {},
        .recv 0 (some ⟨2, [[3], [4]], rfl⟩) {}, .recv 0 none {}, .found 0 (some 9) {}] := by
  obtain ⟨w, hw⟩ := Option.isSome_iff_exists.mp (show (exec (SockWorld.step (.app 0 reconnect 1))
    .initial [.new "a" 80 {}, .found 0 (some 7) {}, .connected 0 0 {}, .write [1, 2] {},
      .recv 0 (some ⟨2, [[3], [4]], rfl⟩) {}, .recv 0 none {},
      .found 0 (some 9) {}]).isSome = true by rfl)
  exact (tcpPcb_safe_iff 0 reconnect 1 _ w hw).mpr (by decide)

/-- An application that closes the socket at the first message. -/
def hangUp (e : ConnEvent) (_ : SockWorld) : List SockCall :=
  match e with
  | .message _ => [.close {}]
  | _ => []

/-- A connection that lwIP gives up: `ERR_ABRT` leaves a dangling pointer, which the next
`jd_tcpsock_close` hands to lwIP.  And a message whose handler closes the socket: it is acknowledged
on the freed block. -/
theorem tcpPcb_used_after_free :
    (∃ w, exec (SockWorld.step (.plain 0)) .initial
        [.new "a" 80 {}, .found 0 (some 7) {}, .connected 0 0 {}, .err 0 errAbrt {}] = some w ∧
      w.sock.tcpPcb = some 0 ∧ w.pcbs 0 = none ∧
      SockEvent.tcp .close (some 0) true ∈ (jdTcpsockClose {} w).trace) ∧
    ∃ w, exec (SockWorld.step (.app 0 hangUp 1)) .initial
        [.new "a" 80 {}, .found 0 (some 7) {}, .connected 0 0 {},
          .recv 0 (some ⟨1, [[3]], rfl⟩) {}] = some w ∧
      SockEvent.tcp (.recved 1) (some 0) true ∈ w.trace := by
  refine ⟨⟨_, rfl, rfl, rfl, ?_⟩, ⟨_, rfl, ?_⟩⟩
  · decide
  · decide

end JdPico
