import JdPico.Lib.Run
import JdPico.Pins.Model

/-!
# The log port

`uart_log.c` sends the log over a UART, by DMA.  The setting `log.pinTX` names the pin, and the pin
decides which of the two UARTs it is.  `uart_log_init` sets everything up for the pin;
`uart_log_sync_pin`, which is called when the setting has changed, calls it only if logging was off.
If logging is on it just selects the UART function at the new pin.  So the UART and the DMA channel
stay those of the old pin, and when the setting becomes `NO_PIN` it writes to the registers of a pin
that does not exist and logging stays on.

As long as logging is not turned off and the pins it is moved to belong to the same UART, the port
follows the setting (`log_port_follows_iff`).
-/

namespace JdPico

open Machine

/-! ### The driver -/

/-- The two UARTs. -/
inductive UartInst where
  | uart0
  | uart1
  deriving DecidableEq, Repr

/-- The UART that the driver takes for a pin: bit 2 of the pin number. -/
def uartOf (pin : UInt8) : UartInst := if pin >>> 2 &&& 1 ≠ 0 then .uart1 else .uart0

/-- `dmachTx`. -/
inductive DmachTx where
  /-- `-1`: `uart_log_init` has not run. -/
  | unset
  /-- `-2`: logging is off. -/
  | disabled
  /-- A channel. -/
  | channel (ch : ℕ)
  deriving DecidableEq, Repr

/-- The configuration of a DMA channel that sends bytes to a UART. -/
structure LogChannel where
  /-- The UART to whose data register the channel writes. -/
  dest : UartInst
  /-- The UART whose request line paces the channel. -/
  dreq : UartInst
  deriving DecidableEq, Repr

/-- A value of the setting: a pin or `NO_PIN`. -/
abbrev LogPin := { pin : UInt8 // pin < 30 ∨ pin = noPin }

/-- What the driver is given: the channel that is free when it claims one, and the baud rate. -/
structure LogEnv where
  freeChannel : ℕ
  baud : UInt32

/-- The static state of `uart_log.c`, with the hardware it uses. -/
structure LogState where
  /-- What `dcfg_get_pin("log.pinTX")` returns. -/
  setting : LogPin
  dmachTx : DmachTx
  inTx : Bool
  prevTxPin : UInt8
  bank : GpioBank
  /-- The baud rates of the UARTs that were initialised. -/
  baud : UartInst → Option UInt32
  dma : ℕ → Option LogChannel
  /-- The pins for which `gpio_set_function` was called, newest first. -/
  functionSet : List UInt8

/-- The setting is a pin that is not a multiple of four. -/
def InvalidLogPin (pin : UInt8) : Prop := pin ≠ noPin ∧ pin &&& 3 ≠ 0

instance (pin : UInt8) : Decidable (InvalidLogPin pin) :=
  inferInstanceAs (Decidable (pin ≠ noPin ∧ pin &&& 3 ≠ 0))

namespace LogState

/-- `gpio_set_function(pin, GPIO_FUNC_UART)`. -/
def setUartFunction (pin : UInt8) (s : LogState) : LogState :=
  { s with bank := gpioSetFunction pin .uart s.bank, functionSet := pin :: s.functionSet }

end LogState

/-- `uart_log_init`. -/
def uartLogInit (env : LogEnv) (s : LogState) : LogState :=
  let txPin := if InvalidLogPin s.setting then noPin else s.setting.val
  if txPin = noPin then { s with dmachTx := .disabled, prevTxPin := txPin }
  else
    let inst := uartOf txPin
    { s with
      dmachTx := .channel env.freeChannel
      dma := Function.update s.dma env.freeChannel (some ⟨inst, inst⟩)
      baud := Function.update s.baud inst (some env.baud)
      prevTxPin := txPin }.setUartFunction txPin

/-- `uart_log_sync_pin`. -/
def uartLogSyncPin (env : LogEnv) (s : LogState) : LogState :=
  let txPin := s.setting.val
  if txPin = s.prevTxPin then s
  else if InvalidLogPin txPin then s
  else
    let s := { s with bank := pinSetupAnalogInput s.prevTxPin s.bank, prevTxPin := txPin }
    if s.dmachTx = .disabled then uartLogInit env s else s.setUartFunction txPin

/-- `uart_log_write`; `none` if its assertion fails. -/
def uartLogWrite (env : LogEnv) (s : LogState) : Option LogState :=
  if s.dmachTx = .disabled then some s
  else
    let s := if s.dmachTx = .unset then uartLogInit env s else s
    if s.inTx then none else some { s with inTx := true }

/-- The steps of the system. -/
inductive LogAct where
  /-- The setting changes, and `uart_log_sync_pin` is called. -/
  | sync (setting : LogPin)
  /-- `uart_log_write`. -/
  | write
  /-- The DMA channel has sent the text and `tx_handler` is called. -/
  | sent

namespace LogState

/-- The state at start-up, before `uart_log_init`. -/
def reset (setting : LogPin) : LogState :=
  ⟨setting, .unset, false, 0, fun _ => .reset, fun _ => none, fun _ => none, []⟩

/-- The setting changes, and `uart_log_sync_pin` is called. -/
def sync (env : LogEnv) (setting : LogPin) (s : LogState) : LogState :=
  uartLogSyncPin env { s with setting := setting }

/-- One step of the system; `none` if it is not possible. -/
def step (env : LogEnv) (s : LogState) : LogAct → Option LogState
  | .sync setting => some (s.sync env setting)
  | .write => uartLogWrite env s
  | .sent => if s.inTx then some { s with inTx := false } else none

/-! ### The port -/

/-- The log port follows the setting. -/
structure Follows (env : LogEnv) (s : LogState) : Prop where
  /-- The pin has its UART function, its UART is initialised, and the DMA channel sends to that
  UART at its pace. -/
  port : s.prevTxPin ≠ noPin →
    (s.bank s.prevTxPin).func = .uart ∧ (s.baud (uartOf s.prevTxPin)).isSome = true ∧
      ∃ ch, s.dmachTx = .channel ch ∧
        s.dma ch = some ⟨uartOf s.prevTxPin, uartOf s.prevTxPin⟩
  /-- There is no pin, and logging is off. -/
  off : s.setting.val = noPin → s.dmachTx = .disabled
  /-- No function was selected for a pin that does not exist. -/
  exists_pin : noPin ∉ s.functionSet
  /-- An invalid setting changes nothing. -/
  invalid : ∀ setting : LogPin, InvalidLogPin setting →
    s.sync env setting = { s with setting := setting }

/-- If a new setting, which is valid, is found while logging is on, then it is a pin of the same
UART. -/
def SameUart (s : LogState) : LogAct → Prop
  | .sync setting => s.dmachTx ≠ .disabled → setting.val ≠ s.prevTxPin →
      ¬InvalidLogPin setting → setting.val ≠ noPin ∧ uartOf setting = uartOf s.prevTxPin
  | _ => True

instance SameUart.decidable (s : LogState) : ∀ a, Decidable (s.SameUart a)
  | .sync _ => inferInstanceAs (Decidable (_ → _ → _ → _ ∧ _))
  | .write | .sent => .isTrue trivial

/-! ### One step -/

variable {env : LogEnv} {s t : LogState} {setting : LogPin}

/-- An invalid setting is not taken over. -/
lemma sync_of_invalid (h : InvalidLogPin setting) :
    s.sync env setting = { s with setting := setting } := by
  by_cases heq : setting.val = s.prevTxPin <;> simp [sync, uartLogSyncPin, h, heq]

/-- A setting that is set up already is left alone. -/
lemma sync_of_eq (h : setting.val = s.prevTxPin) :
    s.sync env setting = { s with setting := setting } := by
  simp [sync, uartLogSyncPin, h]

/-- While logging is on, a new pin is given the UART function, and nothing else is done. -/
lemma sync_of_on (hne : setting.val ≠ s.prevTxPin) (hvalid : ¬InvalidLogPin setting)
    (hon : s.dmachTx ≠ .disabled) :
    s.sync env setting = setUartFunction setting
      { s with
        setting := setting
        bank := pinSetupAnalogInput s.prevTxPin s.bank
        prevTxPin := setting } := by
  simp [sync, uartLogSyncPin, hne, hvalid, hon]

/-- While logging is off, a new pin is set up from the beginning. -/
lemma sync_of_off (hne : setting.val ≠ s.prevTxPin) (hvalid : ¬InvalidLogPin setting)
    (hoff : s.dmachTx = .disabled) :
    s.sync env setting = uartLogInit env
      { s with
        setting := setting
        bank := pinSetupAnalogInput s.prevTxPin s.bank
        prevTxPin := setting } := by
  simp [sync, uartLogSyncPin, hne, hvalid, hoff]

/-- How `dmachTx` and `prev_tx_pin` go together. -/
structure Inv (s : LogState) : Prop where
  unset : s.dmachTx ≠ .unset
  disabled : s.dmachTx = .disabled → s.prevTxPin = noPin
  no_pin : s.prevTxPin = noPin → s.dmachTx = .disabled ∨ noPin ∈ s.functionSet

/-- `uart_log_init` establishes the invariant, -/
lemma inv_uartLogInit : (uartLogInit env s).Inv := by
  by_cases htx : (if InvalidLogPin s.setting then noPin else s.setting.val) = noPin
  · simp only [uartLogInit, if_pos htx]
    exact ⟨by simp, fun _ => htx, fun _ => .inl rfl⟩
  · simp only [uartLogInit, if_neg htx]
    exact ⟨by simp [setUartFunction], by simp [setUartFunction], fun h => absurd h htx⟩

/-- and sets up the port for any setting. -/
lemma follows_uartLogInit (hfun : noPin ∉ s.functionSet) : (uartLogInit env s).Follows env := by
  by_cases htx : (if InvalidLogPin s.setting then noPin else s.setting.val) = noPin
  · simp only [uartLogInit, if_pos htx]
    exact ⟨fun h => absurd htx h, fun _ => rfl, hfun, fun _ => sync_of_invalid⟩
  · have hset : s.setting.val ≠ noPin := by
      intro h
      rw [h, ite_self] at htx
      exact htx rfl
    simp only [uartLogInit, if_neg htx]
    refine ⟨fun _ => ⟨?_, ?_, env.freeChannel, rfl, ?_⟩, fun h => absurd h hset, ?_,
      fun _ => sync_of_invalid⟩
    · simp [setUartFunction]
    · simp [setUartFunction]
    · simp [setUartFunction]
    · rw [setUartFunction, List.mem_cons, not_or]
      exact ⟨Ne.symm htx, hfun⟩

/-- A step changes the setting, or a text is sent or has been sent. -/
lemma step_cases (hunset : s.dmachTx ≠ .unset) {a : LogAct} (hst : s.step env a = some t) :
    (∃ setting, a = .sync setting ∧ t = s.sync env setting) ∨
      s.SameUart a ∧ ∃ b, t = { s with inTx := b } := by
  cases a with
  | sync setting => exact .inl ⟨setting, rfl, (Option.some.inj hst).symm⟩
  | write =>
    refine .inr ⟨trivial, ?_⟩
    simp only [step, uartLogWrite, if_neg hunset] at hst
    split_ifs at hst
    · exact ⟨s.inTx, (Option.some.inj hst).symm⟩
    · exact ⟨true, (Option.some.inj hst).symm⟩
  | sent =>
    refine .inr ⟨trivial, ?_⟩
    rw [step] at hst
    split_ifs at hst
    exact ⟨false, (Option.some.inj hst).symm⟩

lemma Inv.sync (h : s.Inv) : (s.sync env setting).Inv := by
  by_cases heq : setting.val = s.prevTxPin
  · rw [sync_of_eq heq]
    exact ⟨h.unset, h.disabled, h.no_pin⟩
  by_cases hinvalid : InvalidLogPin setting
  · rw [sync_of_invalid hinvalid]
    exact ⟨h.unset, h.disabled, h.no_pin⟩
  by_cases hoff : s.dmachTx = .disabled
  · rw [sync_of_off heq hinvalid hoff]
    exact inv_uartLogInit
  · rw [sync_of_on heq hinvalid hoff]
    refine ⟨h.unset, fun hoff' => absurd hoff' hoff, fun hpin => .inr ?_⟩
    exact List.mem_cons.mpr (.inl hpin.symm)

lemma Inv.step (h : s.Inv) {a : LogAct} (hst : s.step env a = some t) : t.Inv := by
  rcases step_cases h.unset hst with ⟨setting, -, rfl⟩ | ⟨-, b, rfl⟩
  · exact h.sync
  · exact ⟨h.unset, h.disabled, h.no_pin⟩

/-- Logging is off when the driver has no pin. -/
lemma Follows.disabled_of_noPin (h : s.Follows env) (hinv : s.Inv) (hpin : s.prevTxPin = noPin) :
    s.dmachTx = .disabled :=
  (hinv.no_pin hpin).resolve_right h.exists_pin

/-- If the setting changes but the driver keeps its pin, the port still follows. -/
lemma Follows.with_setting (h : s.Follows env)
    (hoff : setting.val = noPin → s.dmachTx = .disabled) :
    Follows env { s with setting := setting } :=
  ⟨h.port, hoff, h.exists_pin, fun _ => sync_of_invalid⟩

/-- While logging is on, the port follows a new pin exactly when it is one of the same UART. -/
lemma Follows.sync_on_iff (h : s.Follows env) (hinv : s.Inv) (hne : setting.val ≠ s.prevTxPin)
    (hvalid : ¬InvalidLogPin setting) (hon : s.dmachTx ≠ .disabled) :
    (s.sync env setting).Follows env ↔
      setting.val ≠ noPin ∧ uartOf setting = uartOf s.prevTxPin := by
  have hprev : s.prevTxPin ≠ noPin := fun hpin => hon (h.disabled_of_noPin hinv hpin)
  obtain ⟨-, hbaud, ch, hch, hdma⟩ := h.port hprev
  rw [sync_of_on hne hvalid hon]
  constructor
  · intro hfollows
    have hpin : setting.val ≠ noPin := fun hpin =>
      hfollows.exists_pin (List.mem_cons.mpr (.inl hpin.symm))
    refine ⟨hpin, ?_⟩
    obtain ⟨-, -, ch', hch', hdma'⟩ := hfollows.port hpin
    obtain rfl : ch = ch' := DmachTx.channel.inj (hch.symm.trans hch')
    have hchannel := Option.some.inj (hdma'.symm.trans hdma)
    exact (LogChannel.mk.inj hchannel).1
  · rintro ⟨hpin, huart⟩
    refine ⟨fun _ => ⟨?_, ?_, ch, hch, ?_⟩, fun h => absurd h hpin, ?_, fun _ => sync_of_invalid⟩
    · simp [setUartFunction]
    · exact huart ▸ hbaud
    · exact huart ▸ hdma
    · rw [setUartFunction, List.mem_cons, not_or]
      exact ⟨Ne.symm hpin, h.exists_pin⟩

/-- The port follows a new setting exactly when it does not take logging off its UART. -/
lemma Follows.sync_iff (h : s.Follows env) (hinv : s.Inv) :
    (s.sync env setting).Follows env ↔ s.SameUart (.sync setting) := by
  by_cases heq : setting.val = s.prevTxPin
  · rw [sync_of_eq heq]
    refine iff_of_true (h.with_setting fun hpin => ?_) fun _ hne => absurd heq hne
    exact h.disabled_of_noPin hinv (heq.symm.trans hpin)
  by_cases hinvalid : InvalidLogPin setting
  · rw [sync_of_invalid hinvalid]
    refine iff_of_true (h.with_setting fun hpin => ?_) fun _ _ hvalid => absurd hinvalid hvalid
    exact absurd hpin hinvalid.1
  by_cases hoff : s.dmachTx = .disabled
  · rw [sync_of_off heq hinvalid hoff]
    exact iff_of_true (follows_uartLogInit h.exists_pin) fun hon => absurd hoff hon
  · rw [h.sync_on_iff hinv heq hinvalid hoff]
    exact ⟨fun huart _ _ _ => huart, fun hsame => hsame hoff heq hinvalid⟩

lemma Follows.step_iff (h : s.Follows env) (hinv : s.Inv) {a : LogAct}
    (hst : s.step env a = some t) : t.Follows env ↔ s.SameUart a := by
  rcases step_cases hinv.unset hst with ⟨setting, rfl, rfl⟩ | ⟨hsame, b, rfl⟩
  · exact h.sync_iff hinv
  · exact iff_of_true ⟨h.port, h.off, h.exists_pin, fun _ => sync_of_invalid⟩ hsame

end LogState

/-! ### Runs -/

/-- **The log port.**  For every first value of the setting and every sequence of changes, with
texts being sent in between: the port follows the setting in every state if and only if, whenever a
new valid setting is found while logging is on, it is a pin of the same UART. -/
theorem log_port_follows_iff (env : LogEnv) (setting : LogPin) (acts : List LogAct) (s : LogState)
    (hrun : exec (LogState.step env) (uartLogInit env (.reset setting)) acts = some s) :
    AllStates (LogState.step env) (LogState.Follows env) (uartLogInit env (.reset setting)) acts ↔
      AllSteps (LogState.step env) LogState.SameUart (uartLogInit env (.reset setting)) acts := by
  refine allStates_iff_allSteps_of_inv (I := LogState.Inv) ?_ ?_ LogState.inv_uartLogInit ?_ hrun
  · exact fun _ _ _ hinv hst => hinv.step hst
  · exact fun _ _ _ hinv h hst => h.step_iff hinv hst
  · exact LogState.follows_uartLogInit (by simp [LogState.reset])

/-- Logging is off at first, then on at pin 4, and moved to pins 12 and 28, which are of the same
UART; 13 is not a pin for it. -/
theorem log_port_follows_moves :
    AllStates (LogState.step ⟨3, 115200⟩) (LogState.Follows ⟨3, 115200⟩)
      (uartLogInit ⟨3, 115200⟩ (.reset ⟨noPin, by decide⟩))
      [.write, .sync ⟨4, by decide⟩, .write, .sync ⟨12, by decide⟩, .sent, .sync ⟨13, by decide⟩,
        .sync ⟨28, by decide⟩, .write] :=
  (log_port_follows_iff ⟨3, 115200⟩ ⟨noPin, by decide⟩ _ _ rfl).mpr (by decide)

/-- Moving the log from pin 0 to pin 4 leaves it at UART 0, and the other UART off; turning it off
selects a function for a pin that does not exist, and leaves it on. -/
theorem log_port_stays_at_first_uart :
    (¬AllStates (LogState.step ⟨3, 115200⟩) (LogState.Follows ⟨3, 115200⟩)
      (uartLogInit ⟨3, 115200⟩ (.reset ⟨0, by decide⟩)) [.sync ⟨4, by decide⟩]) ∧
    ¬AllStates (LogState.step ⟨3, 115200⟩) (LogState.Follows ⟨3, 115200⟩)
      (uartLogInit ⟨3, 115200⟩ (.reset ⟨0, by decide⟩)) [.sync ⟨noPin, by decide⟩] := by
  constructor
  · intro h
    obtain ⟨-, hbaud, -⟩ := (h.2 _ rfl).port (by decide)
    exact absurd hbaud (by decide)
  · intro h
    exact absurd ((h.2 _ rfl).off rfl) (by decide)

end JdPico
