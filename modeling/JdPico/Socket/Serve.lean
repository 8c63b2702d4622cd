import JdPico.Socket.Trace

/-!
# Answers serve the attempt that asked

lwIP keeps a lookup until it is answered, and the argument of its callback is the one `sock_state`.
So `host_found` cannot tell whether an answer is for the attempt in progress, for an earlier one, or
for none because the socket was closed.  Every `tcp_connect` should use an address that was found
for the host of the attempt in progress, and its port, and there should be no `tcp_connect` without
an attempt in progress.  We show that this holds in every run in which each answer that gets a
control block is an address for the host of the attempt in progress, whatever socket calls the
application makes while it handles events (`connects_served`).
-/

namespace JdPico

open Machine SockWorld

/-- Every `tcp_connect` was made while an attempt was in progress, with its port and with an address
that was found for its host. -/
def Served : List SockEvent → Prop
  | [] => True
  | .tcp (.connect ip port) _ _ :: l =>
    (∃ hostname q, latestAttempt l = some (hostname, q) ∧ (port.toNat : ℤ) = q.toInt ∧
      .answer hostname ip ∈ l) ∧ Served l
  | _ :: l => Served l

/-- Entries other than connects keep the property. -/
lemma served_append {l m : List SockEvent} (hm : ∀ e ∈ m, e.isConnect = false) :
    Served (m ++ l) ↔ Served l := by
  induction m with
  | nil => rfl
  | cons e m ih =>
    have he := hm e (by simp)
    rw [List.cons_append, ← ih fun e he => hm e (by simp [he])]
    cases e with
    | tcp fn pcb freed =>
      cases fn with
      | connect ip port => simp [SockEvent.isConnect] at he
      | _ => rfl
    | _ => rfl

/-- The port of an attempt is stored as it is. -/
lemma toInt_of_not_badPort {port : Int32} (h : badPort port = false) :
    (port.toUInt32.toUInt16.toNat : ℤ) = port.toInt := by
  have hle : port.toUInt32.toNat ≤ 0xffff := by
    simp only [badPort, Bool.or_eq_false_iff, decide_eq_false_iff_not] at h
    exact UInt32.le_iff_toNat_le.mp (UInt32.not_lt.mp h.2)
  have hnat : port.toUInt32.toNat = port.toBitVec.toNat := rfl
  have hint : port.toInt = port.toBitVec.toInt := rfl
  rw [UInt32.toNat_toUInt16, hint, BitVec.toInt_eq_toNat_of_lt (by omega), ← hnat]
  congr 1
  omega

namespace SockWorld

/-- An answer that gets a control block is an address for the host of the attempt in progress. -/
def OwnAnswer (w : SockWorld) : SockInput → Prop
  | .found k ipaddr lwip =>
    lwip.newOk = true → ipaddr ≠ none ∧
      ∀ l ∈ w.lookups[k]?, (latestAttempt w.trace).map Prod.fst = some l.hostname
  | _ => True

instance (w : SockWorld) : ∀ i, Decidable (w.OwnAnswer i)
  | .found k ipaddr lwip => inferInstanceAs (Decidable (lwip.newOk = true → ipaddr ≠ none ∧
      ∀ l ∈ w.lookups[k]?, (latestAttempt w.trace).map Prod.fst = some l.hostname))
  | .new _ _ _ | .write _ _ | .close _ | .process _ | .connected _ _ _ | .recv _ _ _
  | .err _ _ _ => .isTrue trivial

/-- The address is one that was found for the host of the attempt in progress. -/
def Resolved (w : SockWorld) (ip : IpAddr) : Prop :=
  ∃ hostname q, latestAttempt w.trace = some (hostname, q) ∧ .answer hostname ip ∈ w.trace

/-- The state has the port of the attempt in progress, and an address that waits for the main loop
was found for its host. -/
structure ServeInv (w : SockWorld) : Prop where
  served : Served w.trace
  port : ∀ hostname q, latestAttempt w.trace = some (hostname, q) →
    (w.sock.portNum.toNat : ℤ) = q.toInt
  pending : w.sock.hostFoundPending = true → w.sock.connecting = true ∧ w.Resolved w.sock.ipaddr

namespace ServeInv

variable {env : SockEnv} {w t : SockWorld}

lemma initial : ServeInv initial := ⟨trivial, fun _ _ h => (nomatch h), fun h => (nomatch h)⟩

/-- Entries that delimit no attempt and do not connect keep the invariant. -/
lemma extend (h : ServeInv w) {m : List SockEvent} (hport : t.sock.portNum = w.sock.portNum)
    (hpend : t.sock.hostFoundPending = true → w.sock.hostFoundPending = true ∧
      t.sock.connecting = w.sock.connecting ∧ t.sock.ipaddr = w.sock.ipaddr)
    (htrace : t.trace = m ++ w.trace)
    (hm : ∀ e ∈ m, e.delimits = false ∧ e.isConnect = false) : ServeInv t := by
  have hlatest : latestAttempt t.trace = latestAttempt w.trace := by
    rw [htrace, latestAttempt_append fun e he => (hm e he).1]
  constructor
  · rw [htrace, served_append fun e he => (hm e he).2]
    exact h.served
  · intro hostname q hq
    rw [hport]
    exact h.port hostname q (hlatest ▸ hq)
  · intro hp
    obtain ⟨hpw, hc, hip⟩ := hpend hp
    obtain ⟨hcw, hostname, q, hq, hans⟩ := h.pending hpw
    refine ⟨hc.trans hcw, hostname, q, hlatest.trans hq, ?_⟩
    rw [hip, htrace]
    exact List.mem_append_right m hans

lemma log (h : ServeInv w) {e : SockEvent} (hdel : e.delimits = false) (he : e.isConnect = false) :
    ServeInv (w.log e) :=
  h.extend (m := [e]) rfl (fun hp => ⟨hp, rfl, rfl⟩) rfl (by simpa using ⟨hdel, he⟩)

/-- A closed socket has no attempt in progress. -/
lemma close (h : Served w.trace) (lwip : Lwip) : ServeInv (jdTcpsockClose lwip w) := by
  constructor
  · rw [jdTcpsockClose_trace]
    exact (served_append fun e he => (closeCalls_eq_false he).2.2.1).mpr h
  · intro hostname q hq
    simp [latestAttempt] at hq
  · intro hp
    simp [SockState.zero] at hp

/-- An error during an attempt closes the socket, whatever its state was. -/
lemma raiseError_of_connecting (h : Served w.trace) (hc : w.sock.connecting = true)
    (henv : env.Keeps ServeInv) (lwip : Lwip) (msg : String) :
    ServeInv (raiseError env lwip msg w) :=
  henv.raiseError (fun hidle => by simp [hc] at hidle) fun _ => close h lwip

lemma raiseError (h : ServeInv w) (henv : env.Keeps ServeInv) (lwip : Lwip) (msg : String) :
    ServeInv (raiseError env lwip msg w) :=
  henv.raiseError (fun _ => h) fun _ => close h.served lwip

/-- Without a control block the address is not used: it is dropped with the attempt. -/
lemma raiseError_allocFailed (h : ServeInv w) (henv : env.Keeps ServeInv) (a : IpAddr) (lwip : Lwip)
    (msg : String) : ServeInv (JdPico.raiseError env lwip msg (allocFailed a w)) := by
  cases hp : w.sock.hostFoundPending with
  | true =>
    exact raiseError_of_connecting (w := allocFailed a w) h.served (h.pending hp).1 henv lwip msg
  | false =>
    have halloc : ServeInv (allocFailed a w) :=
      h.extend (m := [.tcpNew none]) rfl (fun hp' => by simp [allocFailed, hp] at hp') rfl
        (by simp [SockEvent.delimits, SockEvent.isConnect])
    exact halloc.raiseError henv lwip msg

/-- A connection to an address of the attempt in progress. -/
lemma connectStarted (h : ServeInv w) (lwip : Lwip) {a : IpAddr} (ha : w.Resolved a) :
    ServeInv (connectStarted lwip a w) := by
  obtain ⟨hostname, q, hq, hans⟩ := ha
  refine ⟨⟨⟨hostname, q, hq, h.port hostname q hq, ?_⟩, h.served⟩, h.port, ?_⟩
  · simp [hans]
  · intro hp
    exact ⟨(h.pending hp).1, hostname, q, hq, List.mem_append_right _ hans⟩

lemma hostFound (h : ServeInv w) (henv : env.Keeps ServeInv) (lwip : Lwip) (ipaddr : Option IpAddr)
    (hres : lwip.newOk = true → w.Resolved (ipaddr.getD env.ipAtNull)) :
    ServeInv (hostFound env lwip ipaddr w) :=
  hostFound_rule (fun _ msg => h.raiseError_allocFailed henv _ lwip msg)
    (fun hnew _ msg => (h.connectStarted lwip (hres hnew)).raiseError henv lwip msg)
    fun hnew _ => h.connectStarted lwip (hres hnew)

lemma lookupAnswered (h : ServeInv w) (l : Lookup) (k : ℕ) (ipaddr : Option IpAddr) :
    ServeInv (w.lookupAnswered l k ipaddr) := by
  refine h.extend rfl (fun hp => ⟨hp, rfl, rfl⟩) rfl ?_
  intro e he
  simp only [Option.mem_toList, Option.map_eq_some_iff] at he
  obtain ⟨a, -, rfl⟩ := he
  exact ⟨rfl, rfl⟩

/-- An answer for the host of the attempt in progress is an address for it. -/
lemma resolved_lookupAnswered {l : Lookup} (k : ℕ) (a : IpAddr)
    (hown : (latestAttempt w.trace).map Prod.fst = some l.hostname) :
    (w.lookupAnswered l k (some a)).Resolved a := by
  obtain ⟨⟨hostname, q⟩, hq, rfl⟩ := Option.map_eq_some_iff.mp hown
  exact ⟨l.hostname, q, hq, by simp [SockWorld.lookupAnswered]⟩

lemma attemptStarted (h : ServeInv w) (lwip : Lwip) (hostname : String) {port : Int32}
    (hport : badPort port = false) : ServeInv (attemptStarted lwip hostname port w) := by
  refine ⟨(close h.served lwip).served, ?_, fun hp => nomatch hp⟩
  intro h' q hq
  obtain rfl : port = q := congrArg Prod.snd (Option.some.inj hq)
  exact toInt_of_not_badPort hport

lemma new (h : ServeInv w) (henv : env.Keeps ServeInv) (lwip : Lwip) (hostname : String)
    (port : Int32) : ServeInv (jdTcpsockNew env lwip hostname port w).2 := by
  refine jdTcpsockNew_rule (fun _ => h) ?_ ?_ ?_
  · intro hport
    have hstarted := h.attemptStarted lwip hostname hport
    exact ⟨hstarted.served, hstarted.port, fun hp => nomatch hp⟩
  · intro hport
    have hstarted := h.attemptStarted lwip hostname hport
    exact ⟨hstarted.served, hstarted.port, fun _ => ⟨rfl, hostname, port, rfl, by simp⟩⟩
  · intro hport msg
    have hstarted := h.attemptStarted lwip hostname hport
    exact close (hstarted.raiseError henv lwip msg).served lwip

lemma write (h : ServeInv w) (henv : env.Keeps ServeInv) {lwip : Lwip} {buf : List UInt8}
    {r : ℤ × SockWorld} (hr : jdTcpsockWrite env lwip buf w = some r) : ServeInv r.2 := by
  refine jdTcpsockWrite_rule hr h (fun w fn hfn hw => hw.log rfl ?_) fun _ msg hw =>
    hw.raiseError henv lwip msg
  rcases hfn with rfl | rfl <;> rfl

lemma recv (h : ServeInv w) (henv : env.Keeps ServeInv) (lwip : Lwip) (p : Pcb)
    (buf : Option Pbuf) :
    ServeInv (tcpClientRecv env lwip p buf w) :=
  tcpClientRecv_rule h (fun segs _ => (henv.messagesHandled segs h).log rfl rfl)
    fun msg => h.raiseError henv lwip msg

/-- Every application keeps the invariant while it handles an event. -/
lemma keeps_app (ip : IpAddr) (calls : ConnEvent → SockWorld → List SockCall) (depth : ℕ) :
    (SockEnv.app ip calls depth).Keeps ServeInv := by
  refine SockEnv.keeps_app ?_ ?_ ?_ ?_ ip calls depth
  · exact fun _ _ hw => hw.log rfl rfl
  · exact fun _ lwip hostname port _ henv hw => hw.new henv lwip hostname port
  · exact fun _ _ _ _ _ henv hw hr => hw.write henv hr
  · exact fun lwip _ hw => close hw.served lwip

lemma free (h : ServeInv w) (p : Pcb) : ServeInv (w.free p) :=
  h.extend (m := []) rfl (fun hp => ⟨hp, rfl, rfl⟩) rfl (by simp)

/-- A step whose answer is for the attempt in progress keeps the invariant. -/
lemma step (henv : env.Keeps ServeInv) (w : SockWorld) (i : SockInput) (t : SockWorld)
    (h : ServeInv w) (hown : w.OwnAnswer i) (ht : w.step env i = some t) : ServeInv t := by
  cases sockStep_of_step ht with
  | new hostname port lwip => exact h.new henv lwip hostname port
  | write hr => exact h.write henv hr
  | close lwip => exact close h.served lwip
  | process lwip hpend => exact h.hostFound henv lwip _ fun _ => (h.pending hpend).2
  | processIdle lwip => exact h
  | @found k l ipaddr lwip hl =>
    refine (h.lookupAnswered l k ipaddr).hostFound henv lwip ipaddr ?_
    intro hnew
    obtain ⟨hsome, hhost⟩ := hown hnew
    obtain ⟨a, rfl⟩ := Option.ne_none_iff_exists'.mp hsome
    exact resolved_lookupAnswered k a (hhost l hl)
  | opened lwip =>
    have hset : ServeInv { w with sock := { w.sock with connected := true } } :=
      ⟨h.served, h.port, h.pending⟩
    exact henv _ _ hset
  | connectFailed lwip => exact h.raiseError henv lwip _
  | recv buf lwip => exact h.recv henv lwip _ buf
  | err lwip => exact (h.free _).raiseError henv lwip _
  | aborted lwip => exact h.free _

end ServeInv

end SockWorld

/-- **Answers serve the attempt that asked.**  In every run whose answers that get a control block
are addresses for the host of the attempt in progress, every `tcp_connect` is made for the attempt
in progress, with its port and an address of its host. -/
theorem connects_served (ip : IpAddr) (calls : ConnEvent → SockWorld → List SockCall) (depth : ℕ)
    (is : List SockInput) (w : SockWorld)
    (hrun : exec (SockWorld.step (.app ip calls depth)) .initial is = some w)
    (hown : AllSteps (SockWorld.step (.app ip calls depth)) OwnAnswer .initial is) :
    Served w.trace :=
  (exec_inv_of_allSteps (ServeInv.step (ServeInv.keeps_app ip calls depth)) ServeInv.initial hown
    hrun).served

/-- Two attempts, the second started by the handler of the end of the first, each answered while it
is in progress. -/
theorem connects_served_two_attempts :
    ∃ w, exec (SockWorld.step (.app 0 reconnect 1)) .initial
        [.new "a" 80 {}, .found 0 (some 7) {}, .recv 0 none {}, .found 0 (some 9) {}] = some w ∧
      Served w.trace :=
  ⟨_, rfl, connects_served 0 reconnect 1 [.new "a" 80 {}, .found 0 (some 7) {}, .recv 0 none {},
    .found 0 (some 9) {}] _ rfl (by decide)⟩

/-- The answer for the host of an abandoned attempt is used for the next one, and an answer after
`jd_tcpsock_close` opens a connection. -/
theorem connects_not_served :
    (∃ w, exec (SockWorld.step (.plain 0)) .initial
        [.new "a" 80 {}, .new "b" 81 {}, .found 0 (some 7) {}] = some w ∧ ¬Served w.trace) ∧
    ∃ w, exec (SockWorld.step (.plain 0)) .initial
        [.new "a" 80 {}, .close {}, .found 0 (some 7) {}] = some w ∧ ¬Served w.trace := by
  refine ⟨⟨_, rfl, ?_⟩, ⟨_, rfl, ?_⟩⟩
  · rintro ⟨⟨hostname, q, hq, -, hans⟩, -⟩
    obtain ⟨rfl, rfl⟩ : "b" = hostname ∧ 81 = q := Prod.mk.inj (Option.some.inj hq)
    revert hans
    decide
  · rintro ⟨⟨hostname, q, hq, -⟩, -⟩
    exact nomatch hq

end JdPico
