import JdPico.Lib.Log
import JdPico.Socket.Reentry

/-!
# Closing from inside a handler

Once the application has closed a connection, by `jd_tcpsock_close` or by starting another attempt,
it expects no more events of it and no acknowledgement on its block, and it expects the attempt it
starts from a handler to be there when the handler has returned.  Three functions do not look again
at the state after an event.  `tcp_client_recv` goes on to report the segments that are left and to
acknowledge them all; `raise_error` goes on to report the end of the connection; and
`jd_tcpsock_new`, when its lookup is refused, closes the socket once more, with whatever attempt was
started meanwhile.  Two more events come late without any handler: a lookup that is answered after
its attempt was closed still gets a block, and so does every further call of `jd_tcpsock_process`
after a lookup that was answered at once.

In every run without these steps (`SockTask.Orderly`) closing takes effect at once
(`closesAtOnce_of_orderly`).  The reason is that then the only block that is allocated is the one of
the attempt in progress, and that what is suspended works for an attempt that is not closed.
-/

namespace JdPico

open Machine SockWorld

/-- The attempt was not closed by the application. -/
def OpenAttempt (deeds : List SockDeed) (attempt : ℕ) : Prop :=
    ∀ m, .closing m ∈ deeds → m < attempt

/-- No event of an attempt and no acknowledgement comes after the application closed it, and no
attempt is closed by the function that was suspended when it was started. -/
structure ClosesAtOnce (deeds : List SockDeed) : Prop where
  events : ∀ newer older attempt e, deeds = newer ++ .event attempt e :: older →
    OpenAttempt older attempt
  recved : ∀ newer older attempt, deeds = newer ++ .recved attempt :: older →
    OpenAttempt older attempt
  kept : ∀ attempt, .tornDown attempt ∉ deeds

/-- The function goes on to report or to acknowledge something. -/
def SockFrame.reportsLater : SockFrame → Bool
  | .error _ _ => true
  | .message _ _ _ _ => true
  | _ => false

/-- The function goes on to close the socket. -/
def SockFrame.closesLater : SockFrame → Bool
  | .closed (some _) => true
  | _ => false

/-- The application does not close a connection from the handler of a message or of an error, and
starts none from a handler that `jd_tcpsock_new` waits for; `host_found` runs for the attempt in
progress, and once. -/
def SockTask.Orderly (s : SockTask) : TaskAct → Prop
  | .input (.new _ port _) =>
    badPort port = false → ∀ f ∈ s.frames, f.reportsLater = false ∧ f.closesLater = false
  | .input (.close _) => ∀ f ∈ s.frames, f.reportsLater = false
  | .input (.found k _ _) => ∀ l, s.world.lookups[k]? = some l →
    l.attempt = s.world.attempts ∧ s.world.sock.connecting = true ∧ s.world.sock.tcpPcb = none
  | .input (.process _) => s.world.sock.hostFoundPending = true → s.world.sock.tcpPcb = none
  | _ => True

instance (s : SockTask) : ∀ a, Decidable (s.Orderly a)
  | .input (.new _ port _) => inferInstanceAs (Decidable
      (badPort port = false → ∀ f ∈ s.frames, f.reportsLater = false ∧ f.closesLater = false))
  | .input (.close _) => inferInstanceAs (Decidable (∀ f ∈ s.frames, f.reportsLater = false))
  | .input (.found k _ _) =>
    match hl : s.world.lookups[k]? with
    | none => .isTrue fun l hsome => absurd (hl.symm.trans hsome) (by simp)
    | some l => decidable_of_iff
        (l.attempt = s.world.attempts ∧ s.world.sock.connecting = true ∧ s.world.sock.tcpPcb = none)
        (by simp [SockTask.Orderly, hl])
  | .input (.process _) => inferInstanceAs (Decidable
      (s.world.sock.hostFoundPending = true → s.world.sock.tcpPcb = none))
  | .input (.write _ _) | .input (.connected _ _ _) | .input (.recv _ _ _) | .input (.err _ _ _)
  | .resume => .isTrue trivial

/-! ### The deeds -/

namespace ClosesAtOnce

variable {deeds : List SockDeed} {attempt : ℕ}

lemma nil : ClosesAtOnce [] := ⟨by simp, by simp, by simp⟩

/-- A deed for an attempt that is not closed. -/
lemma cons (h : ClosesAtOnce deeds) {d : SockDeed}
    (hevent : ∀ attempt e, d = .event attempt e → OpenAttempt deeds attempt)
    (hrecved : ∀ attempt, d = .recved attempt → OpenAttempt deeds attempt)
    (hkept : ∀ attempt, d ≠ .tornDown attempt) : ClosesAtOnce (d :: deeds) where
  events := by
    intro newer older attempt e hsplit
    rcases Log.split_cons hsplit with ⟨hd, rfl⟩ | ⟨newer', hrest⟩
    · exact hevent attempt e hd
    · exact h.events newer' older attempt e hrest
  recved := by
    intro newer older attempt hsplit
    rcases Log.split_cons hsplit with ⟨hd, rfl⟩ | ⟨newer', hrest⟩
    · exact hrecved attempt hd
    · exact h.recved newer' older attempt hrest
  kept := by
    intro attempt hmem
    rcases List.mem_cons.mp hmem with hd | hmem
    · exact hkept attempt hd.symm
    · exact h.kept attempt hmem

lemma event (h : ClosesAtOnce deeds) (hopen : OpenAttempt deeds attempt) (e : ConnEvent) :
    ClosesAtOnce (.event attempt e :: deeds) :=
  h.cons (fun _ _ hd => (SockDeed.event.inj hd).1 ▸ hopen) (by simp) (by simp)

lemma acknowledge (h : ClosesAtOnce deeds) (hopen : OpenAttempt deeds attempt) :
    ClosesAtOnce (.recved attempt :: deeds) :=
  h.cons (by simp) (fun _ hd => SockDeed.recved.inj hd ▸ hopen) (by simp)

lemma closing (h : ClosesAtOnce deeds) (m : ℕ) : ClosesAtOnce (.closing m :: deeds) :=
  h.cons (by simp) (by simp) (by simp)

end ClosesAtOnce

lemma openAttempt_event {deeds : List SockDeed} {n attempt : ℕ} {e : ConnEvent} :
    OpenAttempt (.event attempt e :: deeds) n ↔ OpenAttempt deeds n := by
  simp [OpenAttempt]

lemma openAttempt_recved {deeds : List SockDeed} {n attempt : ℕ} :
    OpenAttempt (.recved attempt :: deeds) n ↔ OpenAttempt deeds n := by
  simp [OpenAttempt]

lemma openAttempt_closing {deeds : List SockDeed} {n m : ℕ} :
    OpenAttempt (.closing m :: deeds) n ↔ m < n ∧ OpenAttempt deeds n := by
  simp [OpenAttempt]

/-! ### The socket and what is suspended -/

/-- What holds of a function that is suspended. -/
def FrameInv (deeds : List SockDeed) (connecting : Bool) : SockFrame → Prop
  | .opened => True
  | .error attempt again => OpenAttempt deeds attempt ∧ (again.isSome → connecting = false)
  | .closed again => again.isSome → connecting = false
  | .message attempt _ _ _ => OpenAttempt deeds attempt

lemma FrameInv.mono {deeds deeds' : List SockDeed} {c c' : Bool} {f : SockFrame}
    (h : FrameInv deeds c f)
    (hdeeds : ∀ n, OpenAttempt deeds n → OpenAttempt deeds' n) (hc : c = false → c' = false) :
    FrameInv deeds' c' f := by
  cases f with
  | opened => trivial
  | error attempt again => exact ⟨hdeeds _ h.1, fun hsome => hc (h.2 hsome)⟩
  | closed again => exact fun hsome => hc (h hsome)
  | message attempt p rest len => exact hdeeds _ h

/-- What holds in every state of a run. -/
structure TaskInv (s : SockTask) : Prop where
  once : ClosesAtOnce s.deeds
  closing_le : OpenAttempt s.deeds (s.world.attempts + 1)
  /-- The attempt in progress was not closed. -/
  inProgress : s.world.sock.connecting = true → OpenAttempt s.deeds s.world.attempts
  /-- The block of the socket is the one of the attempt in progress. -/
  block : ∀ p, s.world.sock.tcpPcb = some p →
    s.world.sock.connecting = true ∧ s.owner p = s.world.attempts
  only : ∀ p, (s.world.pcbs p).isSome → s.world.sock.tcpPcb = some p
  pending : s.world.sock.hostFoundPending = true → s.world.sock.connecting = true
  frames : ∀ f ∈ s.frames, FrameInv s.deeds s.world.sock.connecting f

namespace TaskInv

variable {s t : SockTask} {lwip : Lwip} {attempt : ℕ}

lemma initial : TaskInv .initial where
  once := .nil
  closing_le := by simp [SockTask.initial, OpenAttempt]
  inProgress := by simp [SockTask.initial, SockWorld.initial, SockState.zero]
  block := by simp [SockTask.initial, SockWorld.initial, SockState.zero]
  only := by simp [SockTask.initial, SockWorld.initial]
  pending := by simp [SockTask.initial, SockWorld.initial, SockState.zero]
  frames := by simp [SockTask.initial]

/-- Other parts of the world do not matter. -/
lemma frame (h : TaskInv s) {w : SockWorld} (hc : w.sock.connecting = s.world.sock.connecting)
    (hp : w.sock.tcpPcb = s.world.sock.tcpPcb)
    (hpend : w.sock.hostFoundPending = s.world.sock.hostFoundPending)
    (hpcbs : w.pcbs = s.world.pcbs) (hatt : w.attempts = s.world.attempts) :
    TaskInv { s with world := w } where
  once := h.once
  closing_le := by
    rw [hatt]
    exact h.closing_le
  inProgress := by
    rw [hc, hatt]
    exact h.inProgress
  block := by
    rw [hp, hc, hatt]
    exact h.block
  only := by
    rw [hp, hpcbs]
    exact h.only
  pending := by
    rw [hpend, hc]
    exact h.pending
  frames := by
    rw [hc]
    exact h.frames

/-- Closing the socket ends the attempt in progress. -/
lemma closed (h : TaskInv s) (lwip : Lwip) :
    TaskInv { s with world := jdTcpsockClose lwip s.world } where
  once := h.once
  closing_le := by simpa using h.closing_le
  inProgress := by simp [SockState.zero]
  block := by simp [SockState.zero]
  only := by simp [closedPcbs_eq_none h.only]
  pending := by simp [SockState.zero]
  frames f hf := (h.frames f hf).mono (fun _ => id) fun _ => by simp [SockState.zero]

/-- An event of an attempt that is not closed. -/
lemma report (h : TaskInv s) (hopen : OpenAttempt s.deeds attempt) (e : ConnEvent) (f : SockFrame)
    (hf : FrameInv s.deeds s.world.sock.connecting f) : TaskInv (s.report attempt e f) where
  once := h.once.event hopen e
  closing_le := openAttempt_event.mpr h.closing_le
  inProgress hc := openAttempt_event.mpr (h.inProgress hc)
  block := h.block
  only := h.only
  pending := h.pending
  frames := by
    intro g hg
    have hframe : FrameInv s.deeds s.world.sock.connecting g := by
      rcases List.mem_cons.mp hg with rfl | hg
      · exact hf
      · exact h.frames g hg
    exact hframe.mono (fun _ => openAttempt_event.mpr) id

/-- `raise_error` returned: what follows it closes nothing that is in progress. -/
lemma raised (h : TaskInv s) {again : Option Lwip}
    (hidle : again.isSome → s.world.sock.connecting = false) : TaskInv (s.raised again) := by
  cases again with
  | none => exact h
  | some lwip =>
    simp only [SockTask.raised, hidle rfl]
    exact h.closed lwip

/-- `raise_error` for an attempt that is not closed. -/
lemma raiseError (h : TaskInv s)
    (hopen : s.world.sock.connecting = true → OpenAttempt s.deeds attempt)
    (lwip : Lwip) (msg : String) (again : Option Lwip) :
    TaskInv (s.raiseError lwip msg attempt again) := by
  unfold SockTask.raiseError
  cases hc : s.world.sock.connecting with
  | false => exact h.raised fun _ => hc
  | true =>
    refine (h.closed lwip).report (hopen hc) (.error msg) (.error attempt again)
      ⟨hopen hc, fun _ => ?_⟩
    simp [SockState.zero]

/-- A function goes on. -/
lemma resume (h : TaskInv s) {f : SockFrame} (hf : FrameInv s.deeds s.world.sock.connecting f) :
    TaskInv (s.resume f) := by
  cases f with
  | opened => exact h
  | error n again => exact h.report hf.1 .closed (.closed again) hf.2
  | closed again => exact h.raised hf
  | message n p rest len =>
    cases rest with
    | cons q rest => exact h.report hf (.message q) (.message n p rest len) hf
    | nil =>
      refine ⟨h.once.acknowledge hf, openAttempt_recved.mpr h.closing_le, ?_, h.block, h.only,
        h.pending, ?_⟩
      · exact fun hc => openAttempt_recved.mpr (h.inProgress hc)
      · exact fun g hg => (h.frames g hg).mono (fun _ => openAttempt_recved.mpr) id

/-- The application closes what was started so far; nothing that is suspended works for it. -/
lemma close (h : TaskInv s) (hframes : ∀ f ∈ s.frames, f.reportsLater = false) (lwip : Lwip) :
    TaskInv (s.close lwip) := by
  have hclosed := h.closed lwip
  refine ⟨h.once.closing _, ?_, ?_, hclosed.block, hclosed.only, hclosed.pending, ?_⟩
  · exact openAttempt_closing.mpr ⟨by simp [SockTask.close], hclosed.closing_le⟩
  · simp [SockTask.close, SockState.zero]
  · intro f hf
    have hlater := hframes f hf
    have hframe := hclosed.frames f hf
    cases f with
    | opened => trivial
    | error n again => simp [SockFrame.reportsLater] at hlater
    | closed again => exact hframe
    | message n p rest len => simp [SockFrame.reportsLater] at hlater

/-- Nothing that is suspended works for an attempt when another one is started. -/
lemma attemptStarted (h : TaskInv s)
    (hframes : ∀ f ∈ s.frames, f.reportsLater = false ∧ f.closesLater = false) (lwip : Lwip)
    (hostname : String) (port : Int32) : TaskInv (s.attemptStarted lwip hostname port) where
  once := h.once.closing _
  closing_le := by
    refine openAttempt_closing.mpr ⟨Nat.lt_succ_of_lt (Nat.lt_succ_self _), fun m hm => ?_⟩
    exact Nat.lt_succ_of_lt (h.closing_le m hm)
  inProgress _ := openAttempt_closing.mpr ⟨Nat.lt_succ_self _, h.closing_le⟩
  block := by simp [SockTask.attemptStarted, JdPico.attemptStarted, SockState.zero]
  only := by simp [SockTask.attemptStarted, JdPico.attemptStarted, closedPcbs_eq_none h.only]
  pending := by simp [SockTask.attemptStarted, JdPico.attemptStarted]
  frames := by
    intro f hf
    obtain ⟨hreports, hcloses⟩ := hframes f hf
    cases f with
    | opened => trivial
    | error n again => simp [SockFrame.reportsLater] at hreports
    | closed again =>
      cases again with
      | none => simp [FrameInv]
      | some lwip => simp [SockFrame.closesLater] at hcloses
    | message n p rest len => simp [SockFrame.reportsLater] at hreports

lemma new (h : TaskInv s) {hostname : String} {port : Int32}
    (hframes : badPort port = false →
      ∀ f ∈ s.frames, f.reportsLater = false ∧ f.closesLater = false) :
    TaskInv (s.jdTcpsockNew lwip hostname port) := by
  cases hport : badPort port with
  | true => rwa [SockTask.jdTcpsockNew_of_badPort hport]
  | false =>
    have hstarted := h.attemptStarted (hframes hport) lwip hostname port
    by_cases hip : lwip.dnsErr = errInprogress
    · rw [SockTask.jdTcpsockNew_of_inProgress hport hip]
      exact hstarted.frame rfl rfl rfl rfl rfl
    by_cases hok : lwip.dnsErr = errOk
    · rw [SockTask.jdTcpsockNew_of_ok hport hok]
      exact { hstarted with pending := fun _ => rfl }
    · rw [SockTask.jdTcpsockNew_of_failed hport hok hip]
      exact hstarted.raiseError hstarted.inProgress lwip _ (some lwip)

/-- An error on a write is one of the attempt in progress. -/
lemma write (h : TaskInv s) {buf : List UInt8} (hst : s.jdTcpsockWrite lwip buf = some t) :
    TaskInv t := by
  have hattempt : (s.world.sock.tcpPcb.map s.owner).getD s.world.attempts = s.world.attempts := by
    cases hp : s.world.sock.tcpPcb with
    | none => rfl
    | some p => exact (h.block p hp).2
  have hwritten : TaskInv { s with world := s.world.tcp (.write buf) s.world.sock.tcpPcb } :=
    h.frame rfl rfl rfl rfl rfl
  have hflushed : TaskInv { s with
      world := (s.world.tcp (.write buf) s.world.sock.tcpPcb).tcp .output s.world.sock.tcpPcb } :=
    h.frame rfl rfl rfl rfl rfl
  simp only [SockTask.jdTcpsockWrite, hattempt] at hst
  split_ifs at hst with hcon hlen hwrite houtput
  · exact Option.some.inj hst ▸ h
  · exact Option.some.inj hst ▸ hwritten.raiseError h.inProgress lwip _ none
  · exact Option.some.inj hst ▸ hflushed.raiseError h.inProgress lwip _ none
  · exact Option.some.inj hst ▸ hflushed

/-- The attempt in progress gets its block. -/
lemma connectStarted (h : TaskInv s) (hc : s.world.sock.connecting = true)
    (hp : s.world.sock.tcpPcb = none)
    (lwip : Lwip) (a : IpAddr) : TaskInv (s.connectStarted lwip s.world.attempts a) where
  once := h.once
  closing_le := h.closing_le
  inProgress := h.inProgress
  block := by
    intro p hblock
    obtain rfl : s.world.nextPcb = p := Option.some.inj hblock
    exact ⟨hc, Function.update_self _ _ _⟩
  only := by
    intro p hsome
    by_cases hpn : p = s.world.nextPcb
    · exact congrArg some hpn.symm
    · simp only [SockTask.connectStarted, JdPico.connectStarted, Function.update_of_ne hpn] at hsome
      exact absurd (hp.symm.trans (h.only p hsome)) (by simp)
  pending := h.pending
  frames := h.frames

lemma hostFound (h : TaskInv s) (hc : s.world.sock.connecting = true)
    (hp : s.world.sock.tcpPcb = none) (ip : IpAddr) (ipaddr : Option IpAddr) :
    TaskInv (s.hostFound ip lwip s.world.attempts ipaddr) := by
  have hstarted := h.connectStarted hc hp lwip (ipaddr.getD ip)
  cases hnew : lwip.newOk with
  | false =>
    rw [SockTask.hostFound_of_not_newOk hnew]
    have hfailed : TaskInv { s with world := allocFailed (ipaddr.getD ip) s.world } :=
      h.frame rfl hp.symm rfl rfl rfl
    exact hfailed.raiseError h.inProgress lwip _ none
  | true =>
    rw [SockTask.hostFound_of_newOk hnew]
    split_ifs with herr
    · exact hstarted.raiseError hstarted.inProgress lwip _ none
    · exact hstarted

/-- A callback comes on the block of the attempt in progress. -/
lemma openAttempt_owner (h : TaskInv s) {p : Pcb} (hp : (s.world.pcbs p).isSome) :
    OpenAttempt s.deeds (s.owner p) := by
  obtain ⟨hc, howner⟩ := h.block p (h.only p hp)
  exact howner ▸ h.inProgress hc

lemma callback (h : TaskInv s) {ip : IpAddr} {i : SockInput} (hi : s.Orderly (.input i))
    (hst : s.callback ip i = some t) : TaskInv t := by
  cases i with
  | new hostname port lwip | write buf lwip | close lwip => simp [SockTask.callback] at hst
  | process lwip =>
    simp only [SockTask.callback] at hst
    split_ifs at hst with hpend
    · exact Option.some.inj hst ▸ h.hostFound (h.pending hpend) (hi hpend) ip _
    · exact Option.some.inj hst ▸ h
  | found k ipaddr lwip =>
    simp only [SockTask.callback] at hst
    split at hst
    · simp at hst
    · rename_i l hl
      obtain ⟨hattempt, hc, hp⟩ := hi l hl
      have hanswered : TaskInv { s with world := s.world.lookupAnswered l k ipaddr } :=
        h.frame rfl rfl rfl rfl rfl
      rw [hattempt] at hst
      exact Option.some.inj hst ▸ hanswered.hostFound hc hp ip ipaddr
  | connected p err lwip =>
    simp only [SockTask.callback] at hst
    split_ifs at hst with hdel
    have hopen := h.openAttempt_owner (isSome_of_delivers hdel)
    obtain rfl := Option.some.inj hst
    unfold SockTask.tcpClientConnected
    split_ifs with herr
    · exact h.raiseError (fun _ => hopen) lwip _ none
    · have hset : TaskInv
          { s with world := { s.world with sock := { s.world.sock with connected := true } } } :=
        h.frame rfl rfl rfl rfl rfl
      exact hset.report hopen .opened .opened trivial
  | recv p buf lwip =>
    simp only [SockTask.callback] at hst
    split_ifs at hst with hdel
    have hopen := h.openAttempt_owner (isSome_of_delivers hdel)
    obtain rfl := Option.some.inj hst
    cases buf with
    | none => exact h.raiseError (fun _ => hopen) lwip _ none
    | some buf =>
      simp only [SockTask.tcpClientRecv]
      split_ifs with hlen
      · exact h.resume (f := .message (s.owner p) p buf.segs buf.totLen) hopen
      · exact h
  | err p err lwip =>
    simp only [SockTask.callback] at hst
    split_ifs at hst with hdel
    have hopen := h.openAttempt_owner (isSome_of_delivers hdel)
    obtain rfl := Option.some.inj hst
    have hfree : TaskInv { s with world := s.world.free p } :=
      { h with
        only := fun q hq => h.only q (isSome_of_free hq) }
    unfold SockTask.tcpClientErr
    split_ifs with herr
    · exact hfree.raiseError (fun _ => hopen) lwip _ none
    · exact hfree

lemma step (ip : IpAddr) (s : SockTask) (a : TaskAct) (t : SockTask) (h : TaskInv s)
    (ha : s.Orderly a) (hst : s.step ip a = some t) : TaskInv t := by
  have hinput : ∀ {i}, s.Orderly (.input i) →
    (if s.frames.isEmpty then s.callback ip i else none) = some t →
      TaskInv t := by
    intro i hi hcb
    split_ifs at hcb with hfs
    exact h.callback hi hcb
  cases a with
  | input i =>
    cases i with
    | new hostname port lwip => exact Option.some.inj hst ▸ h.new ha
    | write buf lwip => exact h.write hst
    | close lwip => exact Option.some.inj hst ▸ h.close ha lwip
    | process lwip => exact hinput ha hst
    | found k ipaddr lwip => exact hinput ha hst
    | connected p err lwip => exact hinput ha hst
    | recv p buf lwip => exact hinput ha hst
    | err p err lwip => exact hinput ha hst
  | resume =>
    simp only [SockTask.step] at hst
    split at hst
    · simp at hst
    · rename_i f fs hfs
      have hpopped : TaskInv { s with frames := fs } :=
        { h with frames := fun g hg => h.frames g (hfs ▸ List.mem_cons_of_mem _ hg) }
      exact Option.some.inj hst ▸ hpopped.resume (h.frames f (hfs ▸ List.mem_cons_self))

end TaskInv

/-- **Closing takes effect at once.**  In every run in which the application closes nothing from the
handler of a message or of an error and starts nothing from a handler that `jd_tcpsock_new` waits
for, and in which `host_found` runs for the attempt in progress only and once: no event of a
connection and no acknowledgement comes after it was closed, and no attempt started in a handler is
closed when the function goes on. -/
theorem closesAtOnce_of_orderly (ip : IpAddr) (acts : List TaskAct) (s : SockTask)
    (hrun : exec (SockTask.step ip) .initial acts = some s)
    (hcond : AllSteps (SockTask.step ip) SockTask.Orderly .initial acts) : ClosesAtOnce s.deeds :=
  (exec_inv_of_allSteps (TaskInv.step ip) TaskInv.initial hcond hrun).once

/-- An application that connects elsewhere as soon as its connection is open, and again when
that ends. -/
def movedTwice : List TaskAct :=
  [.input (.new "a" 80 {}), .input (.found 0 (some 7) {}), .input (.connected 0 errOk {}),
    .input (.new "b" 81 {}), .resume, .input (.found 0 (some 8) {}),
    .input (.connected 1 errOk {}), .resume, .input (.recv 1 (some ⟨3, [[1, 2], [3]], rfl⟩) {}),
    .resume, .resume, .input (.recv 1 none {}), .resume, .input (.new "c" 82 {}), .resume]

theorem closesAtOnce_of_movedTwice : ∃ s, exec (SockTask.step 0) .initial movedTwice = some s ∧
    .closing 2 ∈ s.deeds ∧ ClosesAtOnce s.deeds := by
  refine ⟨_, rfl, by decide +kernel, ?_⟩
  exact closesAtOnce_of_orderly 0 movedTwice _ rfl (by decide +kernel)

/-- The application closes the socket while it handles the first of two messages. -/
def closedFromMessage : List TaskAct :=
  [.input (.new "a" 80 {}), .input (.found 0 (some 7) {}), .input (.connected 0 errOk {}), .resume,
    .input (.recv 0 (some ⟨2, [[1], [2]], rfl⟩) {}), .input (.close {}), .resume, .resume]

/-- The application starts another attempt while it handles an error. -/
def startedFromError : List TaskAct :=
  [.input (.new "a" 80 {}), .input (.found 0 (some 7) {}), .input (.connected 0 errOk {}), .resume,
    .input (.recv 0 none {}), .input (.new "b" 81 {}), .resume]

/-- The application starts another attempt when it is told that a name was refused. -/
def startedFromRefused : List TaskAct :=
  [.input (.new "a" 80 { dnsErr := -6 }), .resume, .input (.new "b" 81 {}), .resume]

/-- The second message and the acknowledgement come after the close, the end of the connection is
reported after the next attempt was started, and the attempt started from the handler is closed. -/
theorem not_closesAtOnce :
    (∃ s, exec (SockTask.step 0) .initial closedFromMessage = some s ∧ ¬ClosesAtOnce s.deeds) ∧
    (∃ s, exec (SockTask.step 0) .initial startedFromError = some s ∧ ¬ClosesAtOnce s.deeds) ∧
    ∃ s, exec (SockTask.step 0) .initial startedFromRefused = some s ∧ ¬ClosesAtOnce s.deeds := by
  have hmessage : ¬ClosesAtOnce [.recved 1, .event 1 (.message [2]), .closing 1,
      .event 1 (.message [1]), .event 1 .opened, .closing 0] := by
    intro h
    exact absurd (h.recved [] _ 1 rfl 1 (by simp)) (lt_irrefl _)
  have herror : ¬ClosesAtOnce [.event 1 .closed, .closing 1, .event 1 (.error "recv without buf?"),
      .event 1 .opened, .closing 0] := by
    intro h
    exact absurd (h.events [] _ 1 .closed rfl 1 (by simp)) (lt_irrefl _)
  have hrefused : ¬ClosesAtOnce [.tornDown 2, .closing 1, .event 1 .closed,
      .event 1 (.error "can't resolve 'a': -6"), .closing 0] := by
    intro h
    exact h.kept 2 (by simp)
  exact ⟨⟨_, rfl, hmessage⟩, ⟨_, rfl, herror⟩, ⟨_, rfl, hrefused⟩⟩

end JdPico
