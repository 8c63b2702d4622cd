import JdPico.Socket.Spec

/-!
# Events as points of re-entry

Every event is given to the application in the middle of a function, and the application may call
the socket before it lets that function go on.  Here an event suspends the function: what it has
still to do is a frame on a stack (`SockFrame`), the application makes its calls, and `resume` takes
the function up again.  The application may call at any time and as deeply as it likes; the
callbacks of lwIP come when no function is suspended.

The frames know which attempt they work for.  A block belongs to the attempt whose lookup it was
allocated for, and so do the events it causes.  What the functions do for which attempt, and what
the application closes, is written down in `deeds`; the code does not see any of this.

Whatever the model of `Socket.Model` does with an application of a bounded depth is a run here
(`exists_reachable_of_exec`).
-/

namespace JdPico

open Machine SockWorld

/-- Where a function of the socket waits for the handler of an event. -/
inductive SockFrame where
  /-- `tcp_client_connected`, at its end. -/
  | opened
  /-- `raise_error`, after the error was reported; `again` if `jd_tcpsock_new` called it. -/
  | error (attempt : ℕ) (again : Option Lwip)
  /-- `raise_error`, at its end. -/
  | closed (again : Option Lwip)
  /-- `tcp_client_recv`, in its loop: the segments that are left. -/
  | message (attempt : ℕ) (tpcb : Pcb) (rest : List (List UInt8)) (totLen : ℕ)

/-- What is done for which attempt. -/
inductive SockDeed where
  /-- An event of the attempt is given to the application. -/
  | event (attempt : ℕ) (e : ConnEvent)
  /-- `tcp_recved` is called on the block of the attempt. -/
  | recved (attempt : ℕ)
  /-- The application closes the attempts up to this one, by `jd_tcpsock_close` or
  `jd_tcpsock_new`. -/
  | closing (attempt : ℕ)
  /-- `jd_tcpsock_new`, once resumed, closes an attempt that was started while it was suspended. -/
  | tornDown (attempt : ℕ)
  deriving DecidableEq, Repr

/-- The socket, with the functions that are suspended. -/
structure SockTask where
  world : SockWorld
  frames : List SockFrame
  /-- The attempt a block was allocated for. -/
  owner : Pcb → ℕ
  /-- What was done so far, newest first. -/
  deeds : List SockDeed

namespace SockTask

/-- The state at start-up. -/
def initial : SockTask := ⟨.initial, [], fun _ => 0, []⟩

/-- `jd_tcpsock_on_event`: the function is suspended in the frame `f`. -/
def report (attempt : ℕ) (e : ConnEvent) (f : SockFrame) (s : SockTask) : SockTask :=
  { s with
    world := s.world.log (.event e)
    frames := f :: s.frames
    deeds := .event attempt e :: s.deeds }

/-- What follows a call of `raise_error`: nothing, or the end of `jd_tcpsock_new`. -/
def raised (again : Option Lwip) (s : SockTask) : SockTask :=
  match again with
  | none => s
  | some lwip =>
    { s with
      world := jdTcpsockClose lwip s.world
      deeds := if s.world.sock.connecting then .tornDown s.world.attempts :: s.deeds else s.deeds }

/-- `raise_error`, with the message formatted. -/
def raiseError (lwip : Lwip) (msg : String) (attempt : ℕ) (again : Option Lwip) (s : SockTask) :
    SockTask :=
  if !s.world.sock.connecting then s.raised again
  else { s with world := jdTcpsockClose lwip s.world }.report attempt (.error msg)
    (.error attempt again)

/-- A function goes on after the event it was suspended at. -/
def resume (s : SockTask) : SockFrame → SockTask
  | .opened => s
  | .error attempt again => s.report attempt .closed (.closed again)
  | .closed again => s.raised again
  | .message attempt tpcb (q :: rest) totLen =>
    s.report attempt (.message q) (.message attempt tpcb rest totLen)
  | .message attempt tpcb [] totLen =>
    { s with
      world := s.world.tcp (.recved totLen) (some tpcb), deeds := .recved attempt :: s.deeds }

/-- `tcp_client_connected`. -/
def tcpClientConnected (lwip : Lwip) (tpcb : Pcb) (err : ℤ) (s : SockTask) : SockTask :=
  if err ≠ errOk then s.raiseError lwip s!"connect failed: {err}" (s.owner tpcb) none
  else
    { s with world := { s.world with sock := { s.world.sock with connected := true } } }.report
      (s.owner tpcb) .opened .opened

/-- `tcp_client_err`. -/
def tcpClientErr (lwip : Lwip) (tpcb : Pcb) (err : ℤ) (s : SockTask) : SockTask :=
  if err ≠ errAbrt then s.raiseError lwip s!"sock error: {err}" (s.owner tpcb) none else s

/-- `tcp_client_recv`. -/
def tcpClientRecv (lwip : Lwip) (tpcb : Pcb) (p : Option Pbuf) (s : SockTask) : SockTask :=
  match p with
  | none => s.raiseError lwip "recv without buf?" (s.owner tpcb) none
  | some p =>
    if 0 < p.totLen then s.resume (.message (s.owner tpcb) tpcb p.segs p.totLen) else s

/-- `host_found`, for the lookup of an attempt. -/
def hostFound (ipAtNull : IpAddr) (lwip : Lwip) (attempt : ℕ) (ipaddr : Option IpAddr)
    (s : SockTask) :
    SockTask :=
  let w := { s.world with sock := { s.world.sock with ipaddr := ipaddr.getD ipAtNull } }
  let w := tcpNewIpType lwip w
  match w.sock.tcpPcb with
  | none => { s with world := w }.raiseError lwip "can't alloc pcb" attempt none
  | some p =>
    let w := tcpArg p true w
    let w := tcpRecv p true w
    let w := tcpErr p true w
    let w := tcpConnect lwip p w
    let s := { s with world := w, owner := Function.update s.owner p attempt }
    if lwip.connectErr ≠ 0 then
      s.raiseError lwip s!"can't start connect: {lwip.connectErr}" attempt none
    else s

/-- `jd_tcpsock_new`. -/
def jdTcpsockNew (lwip : Lwip) (hostname : String) (port : Int32) (s : SockTask) : SockTask :=
  if badPort port then s
  else
    let w := jdTcpsockClose lwip s.world
    let w := { w with
      sock := { w.sock with
        portNum := port.toUInt32.toUInt16, hostname := some hostname, connecting := true }
      attempts := w.attempts + 1 }.log (.attempt hostname port)
    let w := dnsGethostbyname lwip hostname w
    let deeds := .closing s.world.attempts :: s.deeds
    if lwip.dnsErr = errInprogress then { s with world := w, deeds := deeds }
    else if lwip.dnsErr = errOk then
      { s with
        world := { w with sock := { w.sock with hostFoundPending := true } }, deeds := deeds }
    else
      { s with world := w, deeds := deeds }.raiseError lwip
        s!"can't resolve '{hostname}': {lwip.dnsErr}" w.attempts (some lwip)

/-- `jd_tcpsock_write`; `none` if the assertion on the size fails. -/
def jdTcpsockWrite (lwip : Lwip) (buf : List UInt8) (s : SockTask) : Option SockTask :=
  if !s.world.sock.connected then some s
  else if ¬buf.length < 0xffff then none
  else
    let attempt := (s.world.sock.tcpPcb.map s.owner).getD s.world.attempts
    let w := s.world.tcp (.write buf) s.world.sock.tcpPcb
    if lwip.writeErr ≠ 0 then
      some ({ s with world := w }.raiseError lwip s!"write error: {lwip.writeErr}" attempt none)
    else
      let w := w.tcp .output w.sock.tcpPcb
      if lwip.outputErr ≠ 0 then
        some ({ s with world := w }.raiseError lwip s!"flush error: {lwip.outputErr}" attempt none)
      else some { s with world := w }

/-- `jd_tcpsock_close`, called by the application. -/
def close (lwip : Lwip) (s : SockTask) : SockTask :=
  { s with
    world := jdTcpsockClose lwip s.world
    deeds := .closing s.world.attempts :: s.deeds }

/-- A call of the main loop or a callback of lwIP. -/
def callback (ipAtNull : IpAddr) (s : SockTask) : SockInput → Option SockTask
  | .process lwip =>
    if s.world.sock.hostFoundPending then
      some (s.hostFound ipAtNull lwip s.world.attempts (some s.world.sock.ipaddr))
    else some s
  | .found k ipaddr lwip =>
    match s.world.lookups[k]? with
    | none => none
    | some l =>
      some ({ s with world := s.world.lookupAnswered l k ipaddr }.hostFound ipAtNull lwip
        l.attempt ipaddr)
  | .connected p err lwip =>
    if s.world.delivers p TcpPcb.connected then some (s.tcpClientConnected lwip p err) else none
  | .recv p buf lwip =>
    if s.world.delivers p TcpPcb.recv then some (s.tcpClientRecv lwip p buf) else none
  | .err p err lwip =>
    if s.world.delivers p TcpPcb.err then
      some ({ s with world := s.world.free p }.tcpClientErr lwip p err)
    else none
  | .new _ _ _ | .write _ _ | .close _ => none

end SockTask

/-- The application calls, lwIP or the main loop calls, or the handler of an event returns. -/
inductive TaskAct where
  | input (i : SockInput)
  | resume

/-- One step; `none` if it is not possible or an assertion fails. -/
def SockTask.step (ipAtNull : IpAddr) (s : SockTask) : TaskAct → Option SockTask
  | .input (.new hostname port lwip) => some (s.jdTcpsockNew lwip hostname port)
  | .input (.write buf lwip) => s.jdTcpsockWrite lwip buf
  | .input (.close lwip) => some (s.close lwip)
  | .input i => if s.frames.isEmpty then s.callback ipAtNull i else none
  | .resume =>
    match s.frames with
    | [] => none
    | f :: fs => some ({ s with frames := fs }.resume f)

namespace SockTask

/-! ### What the functions do -/

section Spec

variable {ip : IpAddr} {lwip : Lwip} {s : SockTask} {attempt : ℕ} {ipaddr : Option IpAddr}

/-- The state after `host_found` called `tcp_connect` for an attempt. -/
def connectStarted (lwip : Lwip) (attempt : ℕ) (a : IpAddr) (s : SockTask) : SockTask :=
  { s with
    world := JdPico.connectStarted lwip a s.world
    owner := Function.update s.owner s.world.nextPcb attempt }

/-- The state of a fresh attempt, before the name is looked up. -/
def attemptStarted (lwip : Lwip) (hostname : String) (port : Int32) (s : SockTask) : SockTask :=
  { s with
    world := JdPico.attemptStarted lwip hostname port s.world
    deeds := .closing s.world.attempts :: s.deeds }

lemma hostFound_of_not_newOk (h : lwip.newOk = false) :
    s.hostFound ip lwip attempt ipaddr =
      { s with world := allocFailed (ipaddr.getD ip) s.world }.raiseError lwip
      "can't alloc pcb" attempt
        none := by
  simp [hostFound, tcpNewIpType, h, allocFailed]

lemma hostFound_of_newOk (h : lwip.newOk = true) :
    s.hostFound ip lwip attempt ipaddr =
      if lwip.connectErr ≠ 0 then
        (s.connectStarted lwip attempt (ipaddr.getD ip)).raiseError lwip
          s!"can't start connect: {lwip.connectErr}" attempt none
      else s.connectStarted lwip attempt (ipaddr.getD ip) := by
  simp [hostFound, tcpNewIpType, h, connectStarted, JdPico.connectStarted, connectCalls, tcpArg,
    tcpRecv, tcpErr, tcpConnect, SockWorld.tcp, register, log, freed]

lemma jdTcpsockNew_of_badPort {hostname : String} {port : Int32} (h : badPort port = true) :
    s.jdTcpsockNew lwip hostname port = s := by
  simp [jdTcpsockNew, h]

lemma jdTcpsockNew_of_inProgress {hostname : String} {port : Int32} (hport : badPort port = false)
    (hdns : lwip.dnsErr = errInprogress) :
    s.jdTcpsockNew lwip hostname port =
      { s.attemptStarted lwip hostname port with
        world := { (s.attemptStarted lwip hostname port).world with
          lookups := s.world.lookups ++ [⟨hostname, s.world.attempts + 1⟩] } } := by
  have hok : errInprogress ≠ errOk := by decide
  simp [jdTcpsockNew, hport, hdns, hok, dnsGethostbyname, attemptStarted, JdPico.attemptStarted,
    log]

lemma jdTcpsockNew_of_ok {hostname : String} {port : Int32} (hport : badPort port = false)
    (hdns : lwip.dnsErr = errOk) :
    s.jdTcpsockNew lwip hostname port =
      { s.attemptStarted lwip hostname port with
        world := { (s.attemptStarted lwip hostname port).world with
          sock := { (s.attemptStarted lwip hostname port).world.sock with
            ipaddr := lwip.dnsIp, hostFoundPending := true }
          trace := .answer hostname lwip.dnsIp ::
            (s.attemptStarted lwip hostname port).world.trace } } := by
  have hip : errOk ≠ errInprogress := by decide
  simp [jdTcpsockNew, hport, hdns, hip, dnsGethostbyname, attemptStarted, JdPico.attemptStarted,
    log]

lemma jdTcpsockNew_of_failed {hostname : String} {port : Int32} (hport : badPort port = false)
    (hok : lwip.dnsErr ≠ errOk) (hip : lwip.dnsErr ≠ errInprogress) :
    s.jdTcpsockNew lwip hostname port =
      (s.attemptStarted lwip hostname port).raiseError lwip
      s!"can't resolve '{hostname}': {lwip.dnsErr}"
        (s.world.attempts + 1) (some lwip) := by
  simp [jdTcpsockNew, hport, hok, hip, dnsGethostbyname, attemptStarted, JdPico.attemptStarted, log]

end Spec

/-! ### Handlers of bounded depth -/

/-- The functions of the socket that are suspended in `fs` can go on in the world `w`: some calls
and returns of handlers lead there. -/
def Leads (ip : IpAddr) (s : SockTask) (fs : List SockFrame) (w : SockWorld) : Prop :=
  ∃ t, Reachable (step ip) s t ∧ t.frames = fs ∧ t.world = w

/-- What the application does with an event are calls it makes while the function is suspended. -/
def Handles (ip : IpAddr) (env : SockEnv) : Prop :=
  ∀ attempt e f (s : SockTask),
    (s.report attempt e f).Leads ip (f :: s.frames) (jdTcpsockOnEvent env e s.world)

section Leads

variable {ip : IpAddr} {env : SockEnv} {s t : SockTask} {fs fs' : List SockFrame} {w w' : SockWorld}
  {lwip : Lwip}

lemma Leads.refl (s : SockTask) : s.Leads ip s.frames s.world := ⟨s, .refl, rfl, rfl⟩

lemma Leads.trans (h : s.Leads ip fs w)
    (hnext : ∀ t : SockTask, t.frames = fs → t.world = w → t.Leads ip fs' w') :
    s.Leads ip fs' w' := by
  obtain ⟨t, hst, hfs, hw⟩ := h
  obtain ⟨u, htu, hfs', hw'⟩ := hnext t hfs hw
  exact ⟨u, hst.trans htu, hfs', hw'⟩

lemma Leads.step {a : TaskAct} (hst : s.step ip a = some t) (h : t.Leads ip fs w) :
    s.Leads ip fs w := by
  obtain ⟨u, htu, hfs, hw⟩ := h
  exact ⟨u, (Reachable.single hst).trans htu, hfs, hw⟩

/-- A function that is suspended goes on. -/
lemma Leads.resume {f : SockFrame} (h : s.Leads ip (f :: fs) w)
    (hnext : ∀ t : SockTask, t.frames = fs → t.world = w → (t.resume f).Leads ip fs' w') :
    s.Leads ip fs' w' := by
  refine h.trans fun t hfs hw => ?_
  have hst : t.step ip .resume = some ({ t with frames := fs }.resume f) := by
    simp only [SockTask.step, hfs]
  exact .step hst (hnext { t with frames := fs } rfl hw)

/-- What follows `raise_error`, in the world. -/
def afterRaise (again : Option Lwip) (w : SockWorld) : SockWorld :=
  match again with
  | none => w
  | some lwip => jdTcpsockClose lwip w

lemma raised_leads (again : Option Lwip) (s : SockTask) :
    (s.raised again).Leads ip s.frames (afterRaise again s.world) := by
  cases again with
  | none => exact .refl s
  | some lwip => exact .refl (s.raised (some lwip))

lemma raiseError_leads (henv : Handles ip env) (msg : String) (attempt : ℕ) (again : Option Lwip)
    (s : SockTask) :
    (s.raiseError lwip msg attempt again).Leads ip s.frames
      (afterRaise again (JdPico.raiseError env lwip msg s.world)) := by
  cases hc : s.world.sock.connecting with
  | false =>
    simp only [raiseError, hc, Bool.not_false, if_true]
    rw [raiseError_of_not_connecting hc]
    exact raised_leads again s
  | true =>
    simp only [raiseError, hc, Bool.not_true, Bool.false_eq_true, if_false]
    rw [raiseError_of_connecting hc]
    refine (henv attempt (.error msg) (.error attempt again) _).resume fun t hfs hw => ?_
    refine (henv attempt .closed (.closed again) t).resume fun u hfs' hw' => ?_
    have hlast : (u.raised again).Leads ip u.frames (afterRaise again u.world) :=
      raised_leads again u
    rw [hfs', hfs, hw', hw] at hlast
    exact hlast

lemma messages_leads (henv : Handles ip env) (attempt : ℕ) (p : Pcb) (len : ℕ)
    (segs : List (List UInt8)) (s : SockTask) :
    (s.resume (.message attempt p segs len)).Leads ip s.frames
      ((messagesHandled env segs s.world).tcp (.recved len) (some p)) := by
  induction segs generalizing s with
  | nil => exact .refl (s.resume (.message attempt p [] len))
  | cons q segs ih =>
    refine (henv attempt (.message q) (.message attempt p segs len) s).resume fun t hfs hw => ?_
    have hrest := ih t
    rw [hfs, hw] at hrest
    exact hrest

lemma hostFound_leads (henv : Handles ip env) (hip : env.ipAtNull = ip) (attempt : ℕ)
    (ipaddr : Option IpAddr) (s : SockTask) :
    (s.hostFound ip lwip attempt ipaddr).Leads ip s.frames
      (JdPico.hostFound env lwip ipaddr s.world) := by
  subst hip
  cases hnew : lwip.newOk with
  | false =>
    rw [hostFound_of_not_newOk hnew, JdPico.hostFound_of_not_newOk hnew]
    exact raiseError_leads henv _ attempt none _
  | true =>
    rw [hostFound_of_newOk hnew, JdPico.hostFound_of_newOk hnew]
    split_ifs with herr
    · exact raiseError_leads henv _ attempt none _
    · exact .refl (s.connectStarted lwip attempt _)

lemma new_leads (henv : Handles ip env) (hostname : String) (port : Int32) (s : SockTask) :
    (s.jdTcpsockNew lwip hostname port).Leads ip s.frames
      (JdPico.jdTcpsockNew env lwip hostname port s.world).2 := by
  cases hport : badPort port with
  | true =>
    rw [jdTcpsockNew_of_badPort hport, JdPico.jdTcpsockNew_of_badPort hport]
    exact .refl s
  | false =>
    by_cases hip : lwip.dnsErr = errInprogress
    · rw [jdTcpsockNew_of_inProgress hport hip, JdPico.jdTcpsockNew_of_inProgress hport hip]
      exact .refl _
    by_cases hok : lwip.dnsErr = errOk
    · rw [jdTcpsockNew_of_ok hport hok, JdPico.jdTcpsockNew_of_ok hport hok]
      exact .refl _
    · rw [jdTcpsockNew_of_failed hport hok hip, JdPico.jdTcpsockNew_of_failed hport hok hip]
      exact raiseError_leads henv _ _ (some lwip) (s.attemptStarted lwip hostname port)

lemma write_leads (henv : Handles ip env) {buf : List UInt8} {x : ℤ × SockWorld}
    (hx : JdPico.jdTcpsockWrite env lwip buf s.world = some x) :
    ∃ t, s.jdTcpsockWrite lwip buf = some t ∧ t.Leads ip s.frames x.2 := by
  unfold JdPico.jdTcpsockWrite at hx
  unfold jdTcpsockWrite
  split_ifs at hx ⊢ with hcon hlen hwrite houtput
  · exact ⟨s, rfl, Option.some.inj hx ▸ .refl s⟩
  · exact ⟨_, rfl, Option.some.inj hx ▸ raiseError_leads henv _ _ none _⟩
  · exact ⟨_, rfl, Option.some.inj hx ▸ raiseError_leads henv _ _ none _⟩
  · exact ⟨_, rfl, Option.some.inj hx ▸ .refl _⟩

/-- A call of the application is a step, and what follows. -/
lemma call_leads (henv : Handles ip env) (c : SockCall) (s : SockTask) :
    s.Leads ip s.frames (SockCall.apply env s.world c) := by
  cases c with
  | new hostname port lwip =>
    exact .step (a := .input (.new hostname port lwip)) rfl (new_leads henv _ _ s)
  | write buf lwip =>
    cases hx : JdPico.jdTcpsockWrite env lwip buf s.world with
    | none =>
      simp only [SockCall.apply, hx]
      exact .refl s
    | some x =>
      obtain ⟨t, hst, hleads⟩ := write_leads henv hx
      simp only [SockCall.apply, hx]
      exact .step (a := .input (.write buf lwip)) hst hleads
  | close lwip => exact .step (a := .input (.close lwip)) rfl (.refl (s.close lwip))

lemma calls_leads (henv : Handles ip env) (cs : List SockCall) (s : SockTask) :
    s.Leads ip s.frames (cs.foldl (SockCall.apply env) s.world) := by
  induction cs generalizing s with
  | nil => exact .refl s
  | cons c cs ih =>
    refine (call_leads henv c s).trans fun t hfs hw => ?_
    have hrest := ih t
    rw [hfs, hw] at hrest
    exact hrest

/-- Handlers that are nested to a bounded depth are runs. -/
lemma handles_app (ip : IpAddr) (calls : ConnEvent → SockWorld → List SockCall) (depth : ℕ) :
    Handles ip (.app ip calls depth) := by
  induction depth with
  | zero => exact fun attempt e f s => .refl (s.report attempt e f)
  | succ depth ih => exact fun attempt e f s => calls_leads ih _ (s.report attempt e f)

lemma ipAtNull_app (ip : IpAddr) (calls : ConnEvent → SockWorld → List SockCall) (depth : ℕ) :
    (SockEnv.app ip calls depth).ipAtNull = ip := by
  cases depth with
  | zero => rfl
  | succ depth => rfl

lemma step_input {i : SockInput} (hfs : s.frames = []) (h : s.callback ip i = some t) :
    s.step ip (.input i) = some t := by
  cases i with
  | new hostname port lwip | write buf lwip | close lwip => simp [callback] at h
  | process lwip | found k ipaddr lwip | connected p err lwip | recv p buf lwip | err p err lwip =>
    simpa [SockTask.step, hfs] using h

/-- One step of the model with handlers of bounded depth. -/
lemma step_leads (henv : Handles ip env) (hip : env.ipAtNull = ip) {i : SockInput}
    (hfs : s.frames = []) (hst : s.world.step env i = some w) : s.Leads ip [] w := by
  rw [← hfs]
  cases i with
  | new hostname port lwip =>
    exact Option.some.inj hst ▸ .step (a := .input (.new hostname port lwip)) rfl
      (new_leads henv _ _ s)
  | write buf lwip =>
    obtain ⟨x, hx, rfl⟩ := Option.map_eq_some_iff.mp hst
    obtain ⟨t, hst', hleads⟩ := write_leads henv hx
    exact .step (a := .input (.write buf lwip)) hst' hleads
  | close lwip =>
    exact Option.some.inj hst ▸ .step (a := .input (.close lwip)) rfl (.refl (s.close lwip))
  | process lwip =>
    obtain rfl := Option.some.inj hst
    cases hpend : s.world.sock.hostFoundPending with
    | false =>
      rw [jdTcpsockProcess_of_not_pending hpend]
      exact .refl s
    | true =>
      rw [jdTcpsockProcess_of_pending hpend]
      refine .step (step_input (i := .process lwip) hfs ?_)
        (hostFound_leads henv hip s.world.attempts _ s)
      simp [callback, hpend]
  | found k ipaddr lwip =>
    simp only [SockWorld.step] at hst
    split at hst
    · simp at hst
    · rename_i l hl
      obtain rfl := Option.some.inj hst
      refine .step (step_input (i := .found k ipaddr lwip) hfs ?_)
        (hostFound_leads henv hip l.attempt ipaddr
        { s with world := s.world.lookupAnswered l k ipaddr })
      simp [callback, hl]
  | connected p err lwip =>
    simp only [SockWorld.step] at hst
    split_ifs at hst with hdel
    obtain rfl := Option.some.inj hst
    refine .step (step_input (i := .connected p err lwip)
      (t := s.tcpClientConnected lwip p err) hfs ?_) ?_
    · simp [callback, hdel]
    unfold tcpClientConnected JdPico.tcpClientConnected
    split_ifs with herr
    · exact raiseError_leads henv _ _ none s
    · exact (henv _ _ _ _).resume fun t hfs' hw' => hfs' ▸ hw' ▸ .refl t
  | recv p buf lwip =>
    simp only [SockWorld.step] at hst
    split_ifs at hst with hdel
    obtain rfl := Option.some.inj hst
    refine .step (step_input (i := .recv p buf lwip) (t := s.tcpClientRecv lwip p buf) hfs ?_) ?_
    · simp [callback, hdel]
    cases buf with
    | none => exact raiseError_leads henv _ _ none s
    | some buf =>
      simp only [tcpClientRecv, JdPico.tcpClientRecv]
      split_ifs with hlen
      · exact messages_leads henv _ p buf.totLen buf.segs s
      · exact .refl s
  | err p err lwip =>
    simp only [SockWorld.step] at hst
    split_ifs at hst with hdel
    obtain rfl := Option.some.inj hst
    refine .step (step_input (i := .err p err lwip)
      (t := { s with world := s.world.free p }.tcpClientErr lwip p err) hfs ?_) ?_
    · simp [callback, hdel]
    unfold tcpClientErr JdPico.tcpClientErr
    split_ifs with herr
    · exact raiseError_leads henv _ _ none { s with world := s.world.free p }
    · exact .refl { s with world := s.world.free p }

end Leads

/-- **Handlers of bounded depth.**  Every run of the model in which handlers make calls up to some
depth is a run here, with every call of a handler made while the function that raised the event is
suspended. -/
lemma exists_reachable_of_exec (ip : IpAddr) (calls : ConnEvent → SockWorld → List SockCall)
    (depth : ℕ) {is : List SockInput} {w : SockWorld}
    (hrun : exec (SockWorld.step (.app ip calls depth)) .initial is = some w) :
    initial.Leads ip [] w := by
  have henv := handles_app ip calls depth
  have hip := ipAtNull_app ip calls depth
  refine exec_inv (P := fun w => initial.Leads ip [] w) ?_ (.refl initial) hrun
  intro w i w' hw hst
  refine hw.trans fun t hfs hw' => ?_
  exact step_leads henv hip hfs (hw' ▸ hst)

end SockTask

end JdPico
