import JdPico.Socket.Trace

/-!
# One control block for each attempt

Each attempt should allocate one control block and connect it once, and the blocks that are
allocated should be no more than the one in `sock_state.tcp_pcb`.  When the name is resolved at
once, `jd_tcpsock_process` calls `host_found`, but it sets `host_found_pending` again instead of
clearing it, so every further turn of the main loop allocates and connects one more block.  We show
that the properties hold in every run in which `jd_tcpsock_process` is not called again while the
flag is still set and lwIP does not abort the connection, which leaves the freed block in
`sock_state.tcp_pcb` (`tcpPcb_single`).

The runs are those in which no lookup is open when the socket is closed; the trace has an entry for
each `jd_tcpsock_close`, also for the one `jd_tcpsock_new` starts with and for those the application
makes while it handles an event.  An attempt then waits for its address, either from lwIP or from
the main loop (`Waiting`), until `host_found` is called; in all other states no lookup is open
(`Settled`).
-/

namespace JdPico

open Machine SockWorld

/-- `jd_tcpsock_close` was executed while a lookup was open. -/
def SockEvent.abandons : SockEvent → Bool
  | .closed waiting => waiting ≠ 0
  | _ => false

/-- The entry starts no attempt, allocates no block and connects none. -/
def SockEvent.neutral (e : SockEvent) : Bool := !(e.isAttempt || e.isTcpNew || e.isConnect)

namespace SockWorld

/-- At most one block was allocated and connected since the attempt was started, and the blocks that
are allocated are the one in `sock_state.tcp_pcb`. -/
structure OneBlock (w : SockWorld) : Prop where
  tcpNew_le : countSince SockEvent.isTcpNew w.trace ≤ 1
  connect_le : countSince SockEvent.isConnect w.trace ≤ 1
  owned : ∀ p, (w.pcbs p).isSome ↔ w.sock.tcpPcb = some p

/-- Every lookup was answered before the next `jd_tcpsock_new` or `jd_tcpsock_close`. -/
def Answered (w : SockWorld) : Prop := ∀ e ∈ w.trace, e.abandons = false

/-- `jd_tcpsock_process` is not called while the flag is set and a block is there already, and lwIP
does not abort a connection. -/
def ProcessedOnce (w : SockWorld) : SockInput → Prop
  | .process _ => w.sock.hostFoundPending = true → w.sock.tcpPcb = none
  | .err _ err _ => err ≠ errAbrt
  | _ => True

instance (w : SockWorld) : Decidable w.Answered :=
  inferInstanceAs (Decidable (∀ e ∈ w.trace, e.abandons = false))

instance (w : SockWorld) : ∀ i, Decidable (w.ProcessedOnce i)
  | .process _ =>
    inferInstanceAs (Decidable (w.sock.hostFoundPending = true → w.sock.tcpPcb = none))
  | .err _ err _ => inferInstanceAs (Decidable (err ≠ errAbrt))
  | .new _ _ _ | .write _ _ | .close _ | .found _ _ _ | .connected _ _ _ | .recv _ _ _ =>
    .isTrue trivial

/-! ### The phases of an attempt -/

/-- No lookup is open; a block belongs to an attempt in progress. -/
structure Settled (w : SockWorld) : Prop extends OneBlock w where
  lookups : w.lookups = []
  connecting : w.sock.tcpPcb ≠ none → w.sock.connecting = true
  connected : w.sock.connected = true → w.sock.tcpPcb ≠ none
  pending : w.sock.hostFoundPending = true → w.sock.tcpPcb ≠ none

/-- An attempt that has not called `host_found` yet. -/
structure Waiting (w : SockWorld) : Prop where
  tcpNew_eq : countSince SockEvent.isTcpNew w.trace = 0
  connect_eq : countSince SockEvent.isConnect w.trace = 0
  pcbs : ∀ p, w.pcbs p = none
  tcpPcb : w.sock.tcpPcb = none
  connecting : w.sock.connecting = true
  connected : w.sock.connected = false

/-- A state in which the socket may be closed: no other block is allocated, no lookup is open. -/
structure Covered (w : SockWorld) : Prop where
  tcpNew_le : countSince SockEvent.isTcpNew w.trace ≤ 1
  connect_le : countSince SockEvent.isConnect w.trace ≤ 1
  covered : ∀ p, (w.pcbs p).isSome → w.sock.tcpPcb = some p
  lookups : w.lookups = []

/-- Settled, waiting for lwIP, or waiting for the main loop. -/
def Tidy (w : SockWorld) : Prop :=
  w.Settled ∨ w.Waiting ∧
    ((∃ l, w.lookups = [l]) ∧ w.sock.hostFoundPending = false ∨
      w.lookups = [] ∧ w.sock.hostFoundPending = true)

/-- The invariant of all runs: the socket is tidy as long as no lookup was abandoned. -/
def BlockInv (w : SockWorld) : Prop := w.Answered → w.Tidy

variable {env : SockEnv} {w t : SockWorld} {m : List SockEvent}

lemma Settled.covered (h : Settled w) : Covered w :=
  ⟨h.tcpNew_le, h.connect_le, fun p => (h.owned p).mp, h.lookups⟩

lemma Waiting.covered (h : Waiting w) (hl : w.lookups = []) : Covered w :=
  ⟨h.tcpNew_eq.trans_le zero_le_one, h.connect_eq.trans_le zero_le_one, by simp [h.pcbs], hl⟩

lemma Tidy.covered (h : Tidy w) (hl : w.lookups = []) : Covered w := by
  rcases h with h | ⟨h, -⟩
  · exact h.covered
  · exact h.covered hl

/-- Only a settled socket has a block. -/
lemma Tidy.settled_of_isSome (h : Tidy w) {p : Pcb} (hp : (w.pcbs p).isSome) : Settled w := by
  rcases h with h | ⟨h, -⟩
  · exact h
  · simp [h.pcbs] at hp

/-- An attempt with the flag set and no block waits for the main loop. -/
lemma Tidy.waiting_of_pending (h : Tidy w) (hpend : w.sock.hostFoundPending = true)
    (hnone : w.sock.tcpPcb = none) : Waiting w ∧ w.lookups = [] := by
  rcases h with h | ⟨h, ⟨-, hfalse⟩ | ⟨hl, -⟩⟩
  · exact absurd hnone (h.pending hpend)
  · simp [hpend] at hfalse
  · exact ⟨h, hl⟩

/-- A lookup that is open is the only one, and the attempt waits for it. -/
lemma Tidy.waiting_of_lookup (h : Tidy w) {k : ℕ} {l : Lookup} (hl : w.lookups[k]? = some l) :
    Waiting w ∧ w.lookups.eraseIdx k = [] := by
  rcases h with h | ⟨h, ⟨⟨l', hl'⟩, -⟩ | ⟨hnil, -⟩⟩
  · simp [h.lookups] at hl
  · obtain rfl : k = 0 := by
      by_contra hk
      obtain ⟨k, rfl⟩ := Nat.exists_eq_succ_of_ne_zero hk
      simp [hl'] at hl
    exact ⟨h, by simp [hl']⟩
  · simp [hnil] at hl

/-- Entries that are neutral do not count. -/
lemma countSince_neutral (hm : ∀ e ∈ m, e.neutral = true) (l : List SockEvent) :
    countSince SockEvent.isTcpNew (m ++ l) = countSince SockEvent.isTcpNew l ∧
      countSince SockEvent.isConnect (m ++ l) = countSince SockEvent.isConnect l := by
  have hfalse : ∀ e ∈ m, e.isAttempt = false ∧ e.isTcpNew = false ∧ e.isConnect = false := by
    intro e he
    simpa [SockEvent.neutral, and_assoc] using hm e he
  exact ⟨countSince_append fun e he => ⟨(hfalse e he).1, (hfalse e he).2.1⟩,
    countSince_append fun e he => ⟨(hfalse e he).1, (hfalse e he).2.2⟩⟩

lemma Settled.extend (h : Settled w) (hsock : t.sock = w.sock) (hpcbs : t.pcbs = w.pcbs)
    (hl : t.lookups = w.lookups) (htrace : t.trace = m ++ w.trace)
    (hm : ∀ e ∈ m, e.neutral = true) : Settled t := by
  obtain ⟨htcpNew, hconnect⟩ := countSince_neutral hm w.trace
  refine ⟨⟨?_, ?_, ?_⟩, ?_, ?_, ?_, ?_⟩
  · rw [htrace, htcpNew]
    exact h.tcpNew_le
  · rw [htrace, hconnect]
    exact h.connect_le
  · rw [hsock, hpcbs]
    exact h.owned
  · rw [hl]
    exact h.lookups
  · rw [hsock]
    exact h.connecting
  · rw [hsock]
    exact h.connected
  · rw [hsock]
    exact h.pending

lemma Waiting.extend (h : Waiting w) (hsock : t.sock = w.sock) (hpcbs : t.pcbs = w.pcbs)
    (htrace : t.trace = m ++ w.trace) (hm : ∀ e ∈ m, e.neutral = true) : Waiting t := by
  obtain ⟨htcpNew, hconnect⟩ := countSince_neutral hm w.trace
  refine ⟨?_, ?_, ?_, ?_, ?_, ?_⟩
  · rw [htrace, htcpNew]
    exact h.tcpNew_eq
  · rw [htrace, hconnect]
    exact h.connect_eq
  · rw [hpcbs]
    exact h.pcbs
  · rw [hsock]
    exact h.tcpPcb
  · rw [hsock]
    exact h.connecting
  · rw [hsock]
    exact h.connected

/-- Neutral entries keep a socket tidy. -/
lemma Tidy.log (h : Tidy w) {e : SockEvent} (he : e.neutral = true) : Tidy (w.log e) := by
  have hm : ∀ e' ∈ [e], e'.neutral = true := by simpa using he
  rcases h with h | ⟨h, hwait⟩
  · exact .inl (h.extend rfl rfl rfl rfl hm)
  · exact .inr ⟨h.extend rfl rfl rfl hm, hwait⟩

/-- A closed socket is settled, and no block is left. -/
lemma Covered.close (h : Covered w) (lwip : Lwip) : Settled (jdTcpsockClose lwip w) where
  tcpNew_le := by rw [countSince_isTcpNew_close]; exact h.tcpNew_le
  connect_le := by rw [countSince_isConnect_close]; exact h.connect_le
  owned p := by
    have hnone : closedPcbs w p = none := by
      cases hp : w.sock.tcpPcb with
      | none =>
        have hdead : ¬(w.pcbs p).isSome := fun hs => by simpa [hp] using h.covered p hs
        simpa [closedPcbs, hp] using hdead
      | some q =>
        by_cases hpq : p = q
        · simp [closedPcbs, hp, hpq]
        · have hdead : ¬(w.pcbs p).isSome := fun hs =>
            hpq (Option.some.inj (hp.symm.trans (h.covered p hs))).symm
          simpa [closedPcbs, hp, hpq] using hdead
    simp [hnone, SockState.zero]
  lookups := by simp [h.lookups]
  connecting := by simp [SockState.zero]
  connected := by simp [SockState.zero]
  pending := by simp [SockState.zero]

/-- A waiting attempt that could not allocate its block may be closed. -/
lemma Waiting.allocFailed (h : Waiting w) (hl : w.lookups = []) (ip : IpAddr) :
    Covered (allocFailed ip w) where
  tcpNew_le := by
    simp [JdPico.allocFailed, countSince_cons, SockEvent.isAttempt, SockEvent.isTcpNew, h.tcpNew_eq]
  connect_le := by
    simp [JdPico.allocFailed, countSince_cons, SockEvent.isAttempt, SockEvent.isConnect,
      h.connect_eq]
  covered p hp := by simp [JdPico.allocFailed, h.pcbs] at hp
  lookups := hl

/-- The first block of a waiting attempt is its only one. -/
lemma Waiting.connectStarted (h : Waiting w) (hl : w.lookups = []) (lwip : Lwip) (ip : IpAddr) :
    Settled (connectStarted lwip ip w) where
  tcpNew_le := by
    simp [JdPico.connectStarted, connectCalls, countSince_cons, SockEvent.isAttempt,
      SockEvent.isTcpNew, h.tcpNew_eq]
  connect_le := by
    simp [JdPico.connectStarted, connectCalls, countSince_cons, SockEvent.isAttempt,
      SockEvent.isConnect, h.connect_eq]
  owned p := by
    by_cases hp : p = w.nextPcb
    · simp [JdPico.connectStarted, hp]
    · simp [JdPico.connectStarted, hp, Ne.symm hp, h.pcbs]
  lookups := hl
  connecting _ := h.connecting
  connected _ := by simp [JdPico.connectStarted]
  pending _ := by simp [JdPico.connectStarted]

/-- The connection of a settled state is established. -/
lemma Settled.opened (h : Settled w) {p : Pcb} (hp : (w.pcbs p).isSome) :
    Settled { w with sock := { w.sock with connected := true } } :=
  ⟨⟨h.tcpNew_le, h.connect_le, h.owned⟩, h.lookups, h.connecting,
    fun _ => by simp [(h.owned p).mp hp], h.pending⟩

/-- Once lwIP has freed the block of a settled state, the socket may be closed. -/
lemma Settled.free (h : Settled w) (p : Pcb) : Covered (w.free p) := by
  refine ⟨h.tcpNew_le, h.connect_le, ?_, h.lookups⟩
  intro q hq
  apply (h.owned q).mp
  by_cases hqp : q = p
  · simp [SockWorld.free, hqp] at hq
  · simpa [SockWorld.free, hqp] using hq

/-- A lookup that is answered leaves a waiting attempt. -/
lemma Waiting.lookupAnswered (h : Waiting w) (l : Lookup) (k : ℕ) (ipaddr : Option IpAddr) :
    Waiting (w.lookupAnswered l k ipaddr) := by
  refine h.extend rfl rfl rfl ?_
  intro e he
  simp only [Option.mem_toList, Option.map_eq_some_iff] at he
  obtain ⟨a, -, rfl⟩ := he
  rfl

/-! ### The invariant -/

lemma Answered.of_subset (h : t.Answered) (hsub : w.trace ⊆ t.trace) : w.Answered :=
  fun e he => h e (hsub he)

/-- The socket is only closed while no lookup is open. -/
lemma Answered.of_close {lwip : Lwip} (h : (jdTcpsockClose lwip w).Answered) :
    w.Answered ∧ w.lookups = [] := by
  refine ⟨h.of_subset fun e he => mem_trace_close he, ?_⟩
  simpa [SockEvent.abandons] using h (.closed w.lookups.length) (by simp)

lemma blockInv_close (h : w.Answered → w.lookups = [] → w.Covered) (lwip : Lwip) :
    BlockInv (jdTcpsockClose lwip w) := by
  intro hans
  obtain ⟨hw, hl⟩ := hans.of_close
  exact .inl ((h hw hl).close lwip)

lemma blockInv_raiseError (henv : env.Keeps BlockInv)
    (hidle : w.sock.connecting = false → w.BlockInv)
    (h : w.Answered → w.lookups = [] → w.Covered) (lwip : Lwip) (msg : String) :
    BlockInv (raiseError env lwip msg w) :=
  henv.raiseError hidle fun _ => blockInv_close h lwip

/-- `host_found` settles a waiting attempt. -/
lemma Waiting.hostFound (h : Waiting w) (hl : w.lookups = []) (henv : env.Keeps BlockInv)
    (lwip : Lwip) (ipaddr : Option IpAddr) : BlockInv (hostFound env lwip ipaddr w) := by
  have halloc := h.allocFailed hl (ipaddr.getD env.ipAtNull)
  have hstarted := h.connectStarted hl lwip (ipaddr.getD env.ipAtNull)
  have hinv : BlockInv (JdPico.connectStarted lwip (ipaddr.getD env.ipAtNull) w) :=
    fun _ => .inl hstarted
  refine hostFound_rule ?_ ?_ fun _ _ => hinv
  · intro _ msg
    refine blockInv_raiseError henv ?_ (fun _ _ => halloc) lwip msg
    intro hidle
    simp [JdPico.allocFailed, h.connecting] at hidle
  · intro _ _ msg
    exact blockInv_raiseError henv (fun _ => hinv) (fun _ _ => hstarted.covered) lwip msg

namespace BlockInv

lemma log (h : BlockInv w) {e : SockEvent} (he : e.neutral = true) : BlockInv (w.log e) :=
  fun hans => (h (hans.of_subset (List.subset_cons_self _ _))).log he

lemma close (h : BlockInv w) (lwip : Lwip) : BlockInv (jdTcpsockClose lwip w) :=
  blockInv_close (fun hans hl => (h hans).covered hl) lwip

lemma raiseError (h : BlockInv w) (henv : env.Keeps BlockInv) (lwip : Lwip) (msg : String) :
    BlockInv (raiseError env lwip msg w) :=
  blockInv_raiseError henv (fun _ => h) (fun hans hl => (h hans).covered hl) lwip msg

/-- An attempt that is started waits for its address. -/
lemma attemptStarted (h : BlockInv w) (lwip : Lwip) (hostname : String) (port : Int32)
    (hans : (attemptStarted lwip hostname port w).Answered) :
    Waiting (attemptStarted lwip hostname port w) ∧ w.lookups = [] := by
  have hclosed : (jdTcpsockClose lwip w).Answered := hans.of_subset (List.subset_cons_self _ _)
  obtain ⟨hw, hl⟩ := hclosed.of_close
  have hnone : ∀ p, closedPcbs w p = none := fun p => by
    simpa [SockState.zero] using (((h hw).covered hl).close lwip).owned p
  exact ⟨⟨rfl, rfl, by simp [JdPico.attemptStarted, hnone], rfl, rfl, rfl⟩, hl⟩

lemma new (h : BlockInv w) (henv : env.Keeps BlockInv) (lwip : Lwip) (hostname : String)
    (port : Int32) : BlockInv (jdTcpsockNew env lwip hostname port w).2 := by
  refine jdTcpsockNew_rule (fun _ => h) ?_ ?_ ?_
  · intro _ hans
    obtain ⟨hwait, hl⟩ := h.attemptStarted lwip hostname port hans
    exact .inr ⟨⟨rfl, rfl, hwait.pcbs, rfl, rfl, rfl⟩,
      .inl ⟨⟨⟨hostname, _⟩, by simp [hl]; rfl⟩, rfl⟩⟩
  · intro _ hans
    obtain ⟨hwait, hl⟩ := h.attemptStarted lwip hostname port
      (hans.of_subset (List.subset_cons_self _ _))
    refine .inr ⟨⟨rfl, rfl, hwait.pcbs, rfl, rfl, rfl⟩, .inr ⟨?_, rfl⟩⟩
    simp [JdPico.attemptStarted, hl]
  · intro _ msg
    have hraised : BlockInv (JdPico.raiseError env lwip msg
        (JdPico.attemptStarted lwip hostname port w)) :=
      blockInv_raiseError henv (fun hidle => by simp [JdPico.attemptStarted] at hidle)
        (fun hans hl => (h.attemptStarted lwip hostname port hans).1.covered hl) lwip msg
    exact hraised.close lwip

lemma write (h : BlockInv w) (henv : env.Keeps BlockInv) {lwip : Lwip} {buf : List UInt8}
    {r : ℤ × SockWorld} (hr : jdTcpsockWrite env lwip buf w = some r) : BlockInv r.2 := by
  refine jdTcpsockWrite_rule hr h (fun w fn hfn hw => hw.log ?_) fun _ msg hw =>
    hw.raiseError henv lwip msg
  rcases hfn with rfl | rfl <;> rfl

lemma recv (h : BlockInv w) (henv : env.Keeps BlockInv) (lwip : Lwip) (p : Pcb)
    (buf : Option Pbuf) : BlockInv (tcpClientRecv env lwip p buf w) :=
  tcpClientRecv_rule h (fun segs _ => (henv.messagesHandled segs h).log rfl)
    fun msg => h.raiseError henv lwip msg

/-- Every application keeps the invariant while it handles an event. -/
lemma keeps_app (ip : IpAddr) (calls : ConnEvent → SockWorld → List SockCall) (depth : ℕ) :
    (SockEnv.app ip calls depth).Keeps BlockInv := by
  refine SockEnv.keeps_app ?_ ?_ ?_ ?_ ip calls depth
  · exact fun _ _ hw => hw.log rfl
  · exact fun _ lwip hostname port _ henv hw => hw.new henv lwip hostname port
  · exact fun _ _ _ _ _ henv hw hr => hw.write henv hr
  · exact fun lwip _ hw => hw.close lwip

/-- A step that meets the condition keeps the invariant. -/
lemma step (henv : env.Keeps BlockInv) (hgrow : ∀ e, env.Keeps fun w => e ∈ w.trace)
    (w : SockWorld) (i : SockInput) (t : SockWorld) (h : BlockInv w) (honce : w.ProcessedOnce i)
    (ht : w.step env i = some t) : BlockInv t := by
  intro hans
  have htidy : Tidy w := h (hans.of_subset fun e he => mem_trace_step (hgrow e) ht he)
  cases sockStep_of_step ht with
  | new hostname port lwip => exact h.new henv lwip hostname port hans
  | write hr => exact h.write henv hr hans
  | close lwip => exact h.close lwip hans
  | process lwip hpend =>
    obtain ⟨hwait, hl⟩ := htidy.waiting_of_pending hpend (honce hpend)
    exact hwait.hostFound hl henv lwip _ hans
  | processIdle lwip => exact htidy
  | @found k l ipaddr lwip hl =>
    obtain ⟨hwait, hlast⟩ := htidy.waiting_of_lookup hl
    exact (hwait.lookupAnswered l k ipaddr).hostFound hlast henv lwip ipaddr hans
  | opened lwip hp =>
    exact henv _ _ (fun _ => .inl ((htidy.settled_of_isSome hp).opened hp)) hans
  | connectFailed lwip => exact h.raiseError henv lwip _ hans
  | recv buf lwip => exact h.recv henv lwip _ buf hans
  | @err p err lwip hp =>
    have hset := htidy.settled_of_isSome hp
    have hconn : (w.free p).sock.connecting = true :=
      hset.connecting (by simp [(hset.owned p).mp hp])
    exact blockInv_raiseError henv (fun hidle => by simp [hconn] at hidle)
      (fun _ _ => hset.free p) lwip _ hans
  | aborted lwip => exact absurd rfl honce

/-- At start-up there is no attempt. -/
lemma initial : BlockInv initial := by
  refine fun _ => .inl ⟨⟨zero_le_one, zero_le_one, ?_⟩, rfl, ?_, ?_, ?_⟩ <;>
    simp [SockWorld.initial, SockState.zero]

end BlockInv

end SockWorld

/-- **One control block for each attempt.**  If every lookup is answered before the next
`jd_tcpsock_new` or `jd_tcpsock_close`, `jd_tcpsock_process` is not called again with the flag set
and lwIP does not abort a connection, then each attempt allocates and connects at most one block,
and no block is leaked. -/
theorem tcpPcb_single (ip : IpAddr) (calls : ConnEvent → SockWorld → List SockCall) (depth : ℕ)
    (is : List SockInput) (w : SockWorld)
    (hrun : exec (SockWorld.step (.app ip calls depth)) .initial is = some w) (hans : w.Answered)
    (honce : AllSteps (SockWorld.step (.app ip calls depth)) ProcessedOnce .initial is) :
    w.OneBlock := by
  have hinv : BlockInv w := exec_inv_of_allSteps (BlockInv.step (BlockInv.keeps_app ip calls depth)
    (SockEnv.keeps_mem_trace ip calls depth)) BlockInv.initial honce hrun
  rcases hinv hans with h | ⟨h, -⟩
  · exact h.toOneBlock
  · exact ⟨h.tcpNew_eq.trans_le zero_le_one, h.connect_eq.trans_le zero_le_one,
      fun p => by simp [h.pcbs, h.tcpPcb]⟩

/-- Two attempts, the first with a literal address and the second, started by the handler of the end
of the first, with a lookup: one block each. -/
theorem tcpPcb_single_two_attempts :
    ∃ w, exec (SockWorld.step (.app 0 reconnect 1)) .initial
        [.new "10.0.0.7" 80 { dnsErr := errOk, dnsIp := 7 }, .process {}, .connected 0 0 {},
          .recv 0 none {}, .found 0 (some 9) {}, .process {}] = some w ∧
      w.OneBlock ∧ w.sock.tcpPcb = some 1 := by
  refine ⟨_, rfl, tcpPcb_single 0 reconnect 1 [.new "10.0.0.7" 80 { dnsErr := errOk, dnsIp := 7 },
    .process {}, .connected 0 0 {}, .recv 0 none {}, .found 0 (some 9) {}, .process {}] _ rfl
    (by decide) (by decide), rfl⟩

/-- A literal address and two turns of the main loop: two blocks are allocated and connected, and
the first one is leaked. -/
theorem tcpPcb_leaked_by_process :
    ∃ w, exec (SockWorld.step (.plain 0)) .initial
        [.new "10.0.0.7" 80 { dnsErr := errOk, dnsIp := 7 }, .process {}, .process {}] = some w ∧
      w.Answered ∧ countSince SockEvent.isTcpNew w.trace = 2 ∧
      countSince SockEvent.isConnect w.trace = 2 ∧ (w.pcbs 0).isSome ∧ w.sock.tcpPcb = some 1 :=
  ⟨_, rfl, by decide, rfl, rfl, rfl, rfl⟩

end JdPico
