import JdPico.Lib.Run
import Mathlib.Data.UInt

/-!
# Scanning for access points

`wifi_impl.c` starts a scan of the cyw43 driver and collects what the driver reports, one access
point at a time, in a table that it allocates and enlarges as needed.  `jd_wifi_process`, which the
main loop calls, polls the driver; when it finds that a scan is over it hands the table to the
application and starts with an empty one.

The driver is not part of the repository.  Whether it is scanning is part of the state (`active`);
what it answers to `cyw43_wifi_scan` is an input.  It calls `scan_result` while it is scanning and
may end the scan at any time, also while another function polls it.  The application may start a
scan at any time, also while `jd_wifi_scan_done_cb` runs, after which `jd_wifi_process` goes on to
give up the table.

An access to the table that is out of bounds is undefined, and so is the result then (`none`).
Memory is there when it is asked for.
-/

namespace JdPico

/-! ### The table -/

/-- What `scan_result` looks at of a `cyw43_ev_scan_result_t`. -/
structure ScanResult where
  bssid : Vector UInt8 6
  ssidLen : UInt8
  ssid : Vector UInt8 32
  channel : UInt16
  authMode : UInt8
  rssi : Int16
  deriving DecidableEq

/-- `jd_wifi_results_t`; of its flags only `JD_WIFI_APFLAGS_HAS_PASSWORD` is used. -/
structure WifiResult where
  rssi : ℤ
  channel : ℤ
  hasPassword : Bool
  ssid : List UInt8
  bssid : Vector UInt8 6
  deriving DecidableEq

/-- What two fields of `jd_wifi_results_t`, which is declared outside of the repository, keep of the
values that are assigned to them. -/
structure WifiFields where
  rssi : Int16 → ℤ
  channel : UInt16 → ℤ

/-- The name in the result is not empty. -/
def ScanResult.Named (r : ScanResult) : Prop := r.ssidLen ≠ 0 ∧ r.ssid[0] ≠ 0

instance (r : ScanResult) : Decidable r.Named :=
  inferInstanceAs (Decidable (r.ssidLen ≠ 0 ∧ r.ssid[0] ≠ 0))

/-- The entry that `scan_result` makes of a result. -/
def scanEntry (fields : WifiFields) (r : ScanResult) : WifiResult where
  rssi := fields.rssi r.rssi
  channel := fields.channel r.channel
  hasPassword := r.authMode &&& 7 ≠ 0
  ssid := r.ssid.toList.take r.ssidLen.toNat
  bssid := r.bssid

/-- The table. -/
structure ScanTable where
  /-- The entries that are allocated; `none` is one that was not written since then.  There are none
  if `scan_res` is the null pointer. -/
  scanRes : List (Option WifiResult)
  scanPtr : UInt16
  scanSize : UInt16
  deriving DecidableEq

namespace ScanTable

/-- No table is allocated. -/
def empty : ScanTable := ⟨[], 0, 0⟩

/-- The entries in use. -/
def used (t : ScanTable) : List (Option WifiResult) := t.scanRes.take t.scanPtr.toNat

/-- The search of `scan_result`, from entry `i` on for `n` entries. -/
def find (bssid : Vector UInt8 6) (res : List (Option WifiResult)) : ℕ → ℕ → Option (Option ℕ)
  | _, 0 => some none
  | i, n + 1 =>
    match res[i]? with
    | some (some ent) => if ent.bssid = bssid then some (some i) else find bssid res (i + 1) n
    | _ => none

/-- A larger table is allocated, the entries in use are copied and the old table is freed. -/
def grow (t : ScanTable) : Option ScanTable :=
  let scanSize := t.scanSize * 2 + 5
  let tmp : List (Option WifiResult) := List.replicate scanSize.toNat none
  if t.scanPtr.toNat ≤ tmp.length ∧ t.scanPtr.toNat ≤ t.scanRes.length then
    some { t with
      scanRes := t.scanRes.take t.scanPtr.toNat ++ tmp.drop t.scanPtr.toNat
      scanSize := scanSize }
  else none

/-- `scan_res[scan_ptr++] = ent`. -/
def store (ent : WifiResult) (t : ScanTable) : Option ScanTable :=
  if t.scanPtr.toNat < t.scanRes.length then
    some { t with
      scanRes := t.scanRes.set t.scanPtr.toNat (some ent)
      scanPtr := t.scanPtr + 1 }
  else none

/-- An entry takes the place of the one with its address, or is added. -/
def put (ent : WifiResult) (t : ScanTable) : Option ScanTable :=
  (find ent.bssid t.scanRes 0 t.scanPtr.toNat).bind fun found =>
    match found with
    | some i => some { t with scanRes := t.scanRes.set i (some ent) }
    | none => (if t.scanSize ≤ t.scanPtr then t.grow else some t).bind (store ent)

end ScanTable

/-- `scan_result`; `none` is the null pointer. -/
def scanResult (fields : WifiFields) (result : Option ScanResult) (t : ScanTable) :
    Option ScanTable :=
  match result with
  | none => some t
  | some r => if r.Named then t.put (scanEntry fields r) else some t

/-! ### Scans -/

/-- The link status of the driver. -/
inductive LinkStatus where
  | down
  | join
  | noip
  | up
  | fail
  | nonet
  | badauth
  deriving DecidableEq, Repr

/-- What happens. -/
inductive WifiEvent where
  /-- `jd_wifi_start_scan` returns zero. -/
  | started
  /-- The driver reports an access point. -/
  | reported (ent : WifiResult)
  /-- The driver ends the scan. -/
  | ended
  /-- `jd_wifi_scan_done_cb` is called, with the table. -/
  | done (table : List (Option WifiResult))
  /-- `jd_wifi_got_ip_cb` is called. -/
  | gotIp
  /-- `jd_wifi_lost_ip_cb` is called, after `jd_wifi_disconnect`. -/
  | lostIp
  deriving DecidableEq

/-- Where `jd_wifi_process` is. -/
inductive WifiPc where
  /-- It is not running, or polls the driver. -/
  | out
  /-- `jd_wifi_scan_done_cb` runs. -/
  | callback
  /-- The link status is looked at next. -/
  | status
  deriving DecidableEq, Repr

/-- The static state of `wifi_impl.c`, with that of the driver. -/
structure WifiState where
  table : ScanTable
  inScan : Bool
  /-- `cyw43_wifi_scan_active`. -/
  active : Bool
  /-- `prev_status`; `none` is its initial value. -/
  prevStatus : Option LinkStatus
  pc : WifiPc
  /-- What happened so far, newest first. -/
  log : List WifiEvent
  deriving DecidableEq

/-- The state at start-up. -/
def WifiState.initial : WifiState := ⟨.empty, false, false, none, .out, []⟩

/-- `jd_wifi_start_scan`, with its result; `ret` is what `cyw43_wifi_scan` returns if it is called.
The driver is scanning when it has returned zero. -/
def jdWifiStartScan (ret : ℤ) (s : WifiState) : ℤ × WifiState :=
  if s.active then (-10, s)
  else if ret = 0 then (ret, { s with inScan := true, active := true, log := .started :: s.log })
  else (ret, { s with inScan := true })

/-- The steps of the system. -/
inductive WifiAct where
  /-- `jd_wifi_start_scan()`. -/
  | startScan (ret : ℤ)
  /-- The driver calls `scan_result`. -/
  | result (r : Option ScanResult)
  /-- The driver ends the scan. -/
  | ended
  /-- `jd_wifi_process` has polled the driver and looks at the scan. -/
  | process
  /-- `jd_wifi_scan_done_cb` returns. -/
  | resume
  /-- `jd_wifi_process` looks at the link status and returns. -/
  | status (link : LinkStatus)

/-- The part of `jd_wifi_process` that looks at the link status. -/
def jdWifiProcessStatus (link : LinkStatus) (s : WifiState) : WifiState :=
  if s.prevStatus = some link then { s with pc := .out }
  else
    let wasUp := s.prevStatus = some .up
    { s with
      pc := .out
      prevStatus := some link
      log := if link = .up then .gotIp :: s.log else if wasUp then .lostIp :: s.log else s.log }

/-- One step of the system; `none` if it is not possible. -/
def WifiState.step (fields : WifiFields) (s : WifiState) : WifiAct → Option WifiState
  | .startScan ret => some (jdWifiStartScan ret s).2
  | .result r =>
    if s.active then
      (scanResult fields r s.table).map fun table =>
        { s with
          table := table
          log := (r.map fun r => WifiEvent.reported (scanEntry fields r)).toList ++ s.log }
    else none
  | .ended => if s.active then some { s with active := false, log := .ended :: s.log } else none
  | .process =>
    if s.pc = .out then
      if s.inScan ∧ s.active = false then
        some { s with inScan := false, pc := .callback, log := .done s.table.used :: s.log }
      else some { s with pc := .status }
    else none
  | .resume =>
    if s.pc = .callback then some { s with table := .empty, pc := .status } else none
  | .status link => if s.pc = .status then some (jdWifiProcessStatus link s) else none

end JdPico
