import JdPico.Lib.Run
import Mathlib.Logic.Function.Basic

/-!
# The TCP socket on lwIP

`lwip_sock.c` offers one TCP socket to the application.  All of its state is the static
`sock_state`, and that record is also the argument lwIP hands back to every callback.

lwIP is not part of the repository.  What it answers to a call is an input of the model (`Lwip`);
what it owns is part of the state: the control blocks that are allocated, with the callbacks
registered on them, and the DNS lookups that are not answered yet.  `tcp_close` with the result
`ERR_OK` and `tcp_abort` free the block; the error callback runs after its block was freed.  A
control block is named by a number that is never used twice, so a pointer to a freed block differs
from every live one.

Everything visible is written to a trace: the calls to lwIP, the lookups, the events given to the
application.  The application's handler of an event is a parameter of every function that raises
one: it may make socket calls itself, and the function goes on from the state it leaves
(`SockEnv.app`).
-/

namespace JdPico

/-- An IPv4 address. -/
abbrev IpAddr := UInt32

/-- A pointer to a `struct tcp_pcb` other than `NULL`. -/
abbrev Pcb := ℕ

/-- `ERR_OK` of lwIP. -/
def errOk : ℤ := 0

/-- `ERR_INPROGRESS` of lwIP. -/
def errInprogress : ℤ := -5

/-- `ERR_ABRT` of lwIP. -/
def errAbrt : ℤ := -13

/-- `sock_state_t`. -/
structure SockState where
  ipaddr : IpAddr
  hostname : Option String
  tcpPcb : Option Pcb
  portNum : UInt16
  hostFoundPending : Bool
  connected : Bool
  connecting : Bool
  deriving DecidableEq, Repr

/-- The all-zero `sock_state`. -/
def SockState.zero : SockState := ⟨0, none, none, 0, false, false, false⟩

/-- The events given to the application, with their payloads. -/
inductive ConnEvent where
  /-- `JD_CONN_EV_OPEN`. -/
  | opened
  /-- `JD_CONN_EV_CLOSE`. -/
  | closed
  /-- `JD_CONN_EV_ERROR` with its message. -/
  | error (msg : String)
  /-- `JD_CONN_EV_MESSAGE` with the bytes received. -/
  | message (payload : List UInt8)
  deriving DecidableEq, Repr

/-- The functions of lwIP that are applied to a control block. -/
inductive TcpFn where
  | arg
  | poll
  | sent
  | recv
  | err
  | close
  | abort
  | connect (ipaddr : IpAddr) (port : UInt16)
  | recved (len : ℕ)
  | write (buf : List UInt8)
  | output
  deriving DecidableEq, Repr

/-- What is seen from outside. -/
inductive SockEvent where
  /-- `jd_tcpsock_new` started an attempt. -/
  | attempt (hostname : String) (port : Int32)
  /-- `jd_tcpsock_close` was executed while `waiting` lookups were not answered. -/
  | closed (waiting : ℕ)
  /-- The lookup of `hostname` was answered with an address. -/
  | answer (hostname : String) (ipaddr : IpAddr)
  /-- The result of `tcp_new_ip_type`. -/
  | tcpNew (pcb : Option Pcb)
  /-- A function of lwIP was applied to `pcb`; `freed` says that it had been freed. -/
  | tcp (fn : TcpFn) (pcb : Option Pcb) (freed : Bool)
  /-- `jd_tcpsock_on_event` was called. -/
  | event (e : ConnEvent)
  deriving DecidableEq, Repr

/-- The callbacks that are registered on a control block. -/
structure TcpPcb where
  arg : Bool
  recv : Bool
  err : Bool
  connected : Bool
  deriving DecidableEq, Repr

/-- A lookup that lwIP has not answered; its callback argument is always `sock_state`. -/
structure Lookup where
  hostname : String
  /-- The number of the attempt that asked. -/
  attempt : ℕ
  deriving DecidableEq, Repr

/-- The socket together with what lwIP owns. -/
structure SockWorld where
  sock : SockState
  /-- The control blocks that are allocated and not freed. -/
  pcbs : Pcb → Option TcpPcb
  /-- The block that is allocated next. -/
  nextPcb : Pcb
  /-- The lookups that are not answered yet. -/
  lookups : List Lookup
  /-- The number of attempts so far. -/
  attempts : ℕ
  /-- What happened so far, newest first. -/
  trace : List SockEvent

/-- What lwIP answers to the calls made during one step. -/
structure Lwip where
  /-- `tcp_new_ip_type` finds memory. -/
  newOk : Bool := true
  connectErr : ℤ := errOk
  closeErr : ℤ := errOk
  writeErr : ℤ := errOk
  outputErr : ℤ := errOk
  /-- The result of `dns_gethostbyname`. -/
  dnsErr : ℤ := errInprogress
  /-- The address `dns_gethostbyname` stores when its result is `ERR_OK`. -/
  dnsIp : IpAddr := 0

/-- A received `struct pbuf` chain. -/
structure Pbuf where
  totLen : ℕ
  /-- The payloads of the chain. -/
  segs : List (List UInt8)
  /-- lwIP keeps the total length of a chain. -/
  totLen_eq : totLen = (segs.map List.length).sum

/-- What the socket is linked with. -/
structure SockEnv where
  /-- The application's handler of an event. -/
  onEvent : ConnEvent → SockWorld → SockWorld
  /-- What a read of an `ip_addr_t` at address zero gives; that address is in the boot ROM. -/
  ipAtNull : IpAddr

/-- An application that makes no socket calls while it handles an event. -/
def SockEnv.plain (ipAtNull : IpAddr) : SockEnv := ⟨fun _ w => w, ipAtNull⟩

namespace SockWorld

/-- The state at start-up. -/
def initial : SockWorld := ⟨.zero, fun _ => none, 0, [], 0, []⟩

/-- Write an entry to the trace. -/
def log (w : SockWorld) (e : SockEvent) : SockWorld := { w with trace := e :: w.trace }

/-- The pointer is to a block that has been freed. -/
def freed (w : SockWorld) : Option Pcb → Bool
  | none => false
  | some p => (w.pcbs p).isNone

/-- Apply a function of lwIP that leaves the blocks as they are. -/
def tcp (w : SockWorld) (fn : TcpFn) (pcb : Option Pcb) : SockWorld :=
  w.log (.tcp fn pcb (w.freed pcb))

/-- Change what is registered on a block that is not freed. -/
def register (w : SockWorld) (p : Pcb) (f : TcpPcb → TcpPcb) : SockWorld :=
  { w with pcbs := Function.update w.pcbs p ((w.pcbs p).map f) }

/-- Free a block. -/
def free (w : SockWorld) (p : Pcb) : SockWorld :=
  { w with pcbs := Function.update w.pcbs p none }

end SockWorld

open SockWorld

/-- `tcp_arg`; the argument is `sock_state` or `NULL`. -/
def tcpArg (p : Pcb) (arg : Bool) (w : SockWorld) : SockWorld :=
  (w.tcp .arg (some p)).register p fun c => { c with arg := arg }

/-- `tcp_recv` with the callback of the socket or `NULL`. -/
def tcpRecv (p : Pcb) (recv : Bool) (w : SockWorld) : SockWorld :=
  (w.tcp .recv (some p)).register p fun c => { c with recv := recv }

/-- `tcp_err` with the callback of the socket or `NULL`. -/
def tcpErr (p : Pcb) (err : Bool) (w : SockWorld) : SockWorld :=
  (w.tcp .err (some p)).register p fun c => { c with err := err }

/-- `tcp_connect`; the connected callback is registered when it returns `ERR_OK`. -/
def tcpConnect (lwip : Lwip) (p : Pcb) (w : SockWorld) : SockWorld :=
  (w.tcp (.connect w.sock.ipaddr w.sock.portNum) (some p)).register p fun c =>
    { c with connected := lwip.connectErr = errOk }

/-- `tcp_close`. -/
def tcpClose (lwip : Lwip) (p : Pcb) (w : SockWorld) : SockWorld :=
  let w := w.tcp .close (some p)
  if lwip.closeErr = errOk then w.free p else w

/-- `tcp_abort`, on a block without an error callback. -/
def tcpAbort (p : Pcb) (w : SockWorld) : SockWorld := (w.tcp .abort (some p)).free p

/-- `tcp_new_ip_type`, with its result stored in `sock_state.tcp_pcb`. -/
def tcpNewIpType (lwip : Lwip) (w : SockWorld) : SockWorld :=
  if lwip.newOk then
    { w with
      sock := { w.sock with tcpPcb := some w.nextPcb }
      pcbs := Function.update w.pcbs w.nextPcb (some ⟨false, false, false, false⟩)
      nextPcb := w.nextPcb + 1
      trace := .tcpNew (some w.nextPcb) :: w.trace }
  else
    { w with sock := { w.sock with tcpPcb := none }, trace := .tcpNew none :: w.trace }

/-- `jd_tcpsock_on_event`. -/
def jdTcpsockOnEvent (env : SockEnv) (e : ConnEvent) (w : SockWorld) : SockWorld :=
  env.onEvent e (w.log (.event e))

/-- `jd_tcpsock_close`. -/
def jdTcpsockClose (lwip : Lwip) (w : SockWorld) : SockWorld :=
  let w :=
    match w.sock.tcpPcb with
    | none => w
    | some p =>
      let w := tcpArg p false w
      let w := w.tcp .poll (some p)
      let w := w.tcp .sent (some p)
      let w := tcpRecv p false w
      let w := tcpErr p false w
      let w := tcpClose lwip p w
      if lwip.closeErr ≠ errOk then tcpAbort p w else w
  { w with sock := .zero }.log (.closed w.lookups.length)

/-- `raise_error`, with the message formatted. -/
def raiseError (env : SockEnv) (lwip : Lwip) (msg : String) (w : SockWorld) : SockWorld :=
  if !w.sock.connecting then w
  else
    let w := jdTcpsockClose lwip w
    let w := jdTcpsockOnEvent env (.error msg) w
    jdTcpsockOnEvent env .closed w

/-- `tcp_client_connected`. -/
def tcpClientConnected (env : SockEnv) (lwip : Lwip) (err : ℤ) (w : SockWorld) : SockWorld :=
  if err ≠ errOk then raiseError env lwip s!"connect failed: {err}" w
  else jdTcpsockOnEvent env .opened { w with sock := { w.sock with connected := true } }

/-- `tcp_client_err`. -/
def tcpClientErr (env : SockEnv) (lwip : Lwip) (err : ℤ) (w : SockWorld) : SockWorld :=
  if err ≠ errAbrt then raiseError env lwip s!"sock error: {err}" w else w

/-- `tcp_client_recv`.  The assertion on the length is the invariant of the chain. -/
def tcpClientRecv (env : SockEnv) (lwip : Lwip) (tpcb : Pcb) (p : Option Pbuf) (w : SockWorld) :
    SockWorld :=
  match p with
  | none => raiseError env lwip "recv without buf?" w
  | some p =>
    if 0 < p.totLen then
      let w := p.segs.foldl (fun w q => jdTcpsockOnEvent env (.message q) w) w
      w.tcp (.recved p.totLen) (some tpcb)
    else w

/-- `host_found`.  The address is read without a test for `NULL`. -/
def hostFound (env : SockEnv) (lwip : Lwip) (ipaddr : Option IpAddr) (w : SockWorld) : SockWorld :=
  let w := { w with sock := { w.sock with ipaddr := ipaddr.getD env.ipAtNull } }
  let w := tcpNewIpType lwip w
  match w.sock.tcpPcb with
  | none => raiseError env lwip "can't alloc pcb" w
  | some p =>
    let w := tcpArg p true w
    let w := tcpRecv p true w
    let w := tcpErr p true w
    let w := tcpConnect lwip p w
    if lwip.connectErr ≠ 0 then
      raiseError env lwip s!"can't start connect: {lwip.connectErr}" w
    else w

/-- `dns_gethostbyname`, with the address stored in `sock_state.ipaddr`. -/
def dnsGethostbyname (lwip : Lwip) (hostname : String) (w : SockWorld) : SockWorld :=
  if lwip.dnsErr = errOk then
    { w with sock := { w.sock with ipaddr := lwip.dnsIp } }.log (.answer hostname lwip.dnsIp)
  else if lwip.dnsErr = errInprogress then
    { w with lookups := w.lookups ++ [⟨hostname, w.attempts⟩] }
  else w

/-- The ports `jd_tcpsock_new` refuses. -/
def badPort (port : Int32) : Bool := port = 0 || 0xffff < port.toUInt32

/-- `jd_tcpsock_new`, with its result. -/
def jdTcpsockNew (env : SockEnv) (lwip : Lwip) (hostname : String) (port : Int32) (w : SockWorld) :
    ℤ × SockWorld :=
  if badPort port then (-100, w)
  else
    let w := jdTcpsockClose lwip w
    let w := { w with
      sock := { w.sock with
        portNum := port.toUInt32.toUInt16, hostname := some hostname, connecting := true }
      attempts := w.attempts + 1 }.log (.attempt hostname port)
    let w := dnsGethostbyname lwip hostname w
    if lwip.dnsErr = errInprogress then (0, w)
    else if lwip.dnsErr = errOk then
      (lwip.dnsErr, { w with sock := { w.sock with hostFoundPending := true } })
    else
      let w := raiseError env lwip s!"can't resolve '{hostname}': {lwip.dnsErr}" w
      (lwip.dnsErr, jdTcpsockClose lwip w)

/-- `jd_tcpsock_write`, with its result; `none` if the assertion on the size fails. -/
def jdTcpsockWrite (env : SockEnv) (lwip : Lwip) (buf : List UInt8) (w : SockWorld) :
    Option (ℤ × SockWorld) :=
  if !w.sock.connected then some (-10, w)
  else if ¬buf.length < 0xffff then none
  else
    let w := w.tcp (.write buf) w.sock.tcpPcb
    if lwip.writeErr ≠ 0 then
      some (lwip.writeErr, raiseError env lwip s!"write error: {lwip.writeErr}" w)
    else
      let w := w.tcp .output w.sock.tcpPcb
      if lwip.outputErr ≠ 0 then
        some (lwip.outputErr, raiseError env lwip s!"flush error: {lwip.outputErr}" w)
      else some (lwip.outputErr, w)

/-- `jd_tcpsock_process`. -/
def jdTcpsockProcess (env : SockEnv) (lwip : Lwip) (w : SockWorld) : SockWorld :=
  if w.sock.hostFoundPending then
    let w := { w with sock := { w.sock with hostFoundPending := true } }
    hostFound env lwip (some w.sock.ipaddr) w
  else w

/-- The calls of the application; `jd_tcpsock_process` belongs to the main loop. -/
inductive SockCall where
  | new (hostname : String) (port : Int32) (lwip : Lwip)
  | write (buf : List UInt8) (lwip : Lwip)
  | close (lwip : Lwip)

/-- A call from the handler of an event.  A write that is too long stops the firmware, so there is
nothing to say about what follows it. -/
def SockCall.apply (env : SockEnv) (w : SockWorld) : SockCall → SockWorld
  | .new hostname port lwip => (jdTcpsockNew env lwip hostname port w).2
  | .write buf lwip => ((jdTcpsockWrite env lwip buf w).map Prod.snd).getD w
  | .close lwip => jdTcpsockClose lwip w

/-- An application whose handler answers an event with socket calls; it may choose them by
everything that happened so far.  The calls raise events in turn, at most `depth` of them inside
each other. -/
def SockEnv.app (ipAtNull : IpAddr) (calls : ConnEvent → SockWorld → List SockCall) : ℕ → SockEnv
  | 0 => .plain ipAtNull
  | depth + 1 =>
    ⟨fun e w => (calls e w).foldl (SockCall.apply (SockEnv.app ipAtNull calls depth)) w, ipAtNull⟩

/-- An application that connects to another host as soon as its connection ends. -/
def reconnect (e : ConnEvent) (_ : SockWorld) : List SockCall :=
  match e with
  | .closed => [.new "b" 81 {}]
  | _ => []

/-- The calls of the application and of the main loop, and the callbacks of lwIP.  Each comes with
what lwIP answers while it runs. -/
inductive SockInput where
  | new (hostname : String) (port : Int32) (lwip : Lwip)
  | write (buf : List UInt8) (lwip : Lwip)
  | close (lwip : Lwip)
  | process (lwip : Lwip)
  /-- The lookup number `k` of those waiting is answered; `none` for a name that is not resolved. -/
  | found (k : ℕ) (ipaddr : Option IpAddr) (lwip : Lwip)
  | connected (pcb : Pcb) (err : ℤ) (lwip : Lwip)
  | recv (pcb : Pcb) (p : Option Pbuf) (lwip : Lwip)
  | err (pcb : Pcb) (err : ℤ) (lwip : Lwip)

/-- The callback picked by `sel` can be delivered for the block. -/
def SockWorld.delivers (w : SockWorld) (p : Pcb) (sel : TcpPcb → Bool) : Bool :=
  match w.pcbs p with
  | none => false
  | some c => c.arg && sel c

/-- lwIP takes a lookup off its list; a name that is resolved gives an address. -/
def SockWorld.lookupAnswered (w : SockWorld) (l : Lookup) (k : ℕ) (ipaddr : Option IpAddr) :
    SockWorld :=
  { w with
    lookups := w.lookups.eraseIdx k
    trace := (ipaddr.map (SockEvent.answer l.hostname)).toList ++ w.trace }

/-- One call or callback; `none` if lwIP does not permit it or an assertion fails. -/
def SockWorld.step (env : SockEnv) (w : SockWorld) : SockInput → Option SockWorld
  | .new hostname port lwip => some (jdTcpsockNew env lwip hostname port w).2
  | .write buf lwip => (jdTcpsockWrite env lwip buf w).map Prod.snd
  | .close lwip => some (jdTcpsockClose lwip w)
  | .process lwip => some (jdTcpsockProcess env lwip w)
  | .found k ipaddr lwip =>
    match w.lookups[k]? with
    | none => none
    | some l => some (hostFound env lwip ipaddr (w.lookupAnswered l k ipaddr))
  | .connected p err lwip =>
    if w.delivers p TcpPcb.connected then some (tcpClientConnected env lwip err w) else none
  | .recv p buf lwip =>
    if w.delivers p TcpPcb.recv then some (tcpClientRecv env lwip p buf w) else none
  | .err p err lwip =>
    -- the block is gone before the callback runs
    if w.delivers p TcpPcb.err then some (tcpClientErr env lwip err (w.free p)) else none

end JdPico
