import JdPico.Uart.LogPort
import Mathlib.Data.List.GetD

/-!
# The log on its way to the port

`dmesg_to_stdout`, which the main loop calls, reads a piece of the log into a static buffer and
hands it to `uart_log_write`, which starts the DMA and returns.  The DMA takes the bytes out of the
buffer at the pace of the UART, while the main loop goes on; nothing is copied.  That the next piece
does not overwrite one that is still being sent rests on `in_tx`: it is set before the DMA is
started and reset by `tx_handler`, which is called when the DMA has taken the last byte.

The DMA and the interrupt come between any two statements of the main loop (`LogStream.step`).  What
the log has for `dmesg_to_stdout` is not decided here: each call of `jd_dmesg_read` gives some bytes
that fit into the buffer, or none.
-/

namespace JdPico

open Machine

/-- The size of `buf`. -/
def logBufSize : ℕ := 128

/-- Where the main loop is. -/
inductive LogStreamPc where
  /-- Outside of `dmesg_to_stdout`. -/
  | out
  /-- Before `jd_dmesg_read`. -/
  | read
  /-- Before `uart_log_write`, with the text that is in the buffer. -/
  | write (text : List UInt8)
  /-- In `uart_log_write`, before `dma_set_ch_cb`. -/
  | setCb (size : ℕ)
  /-- In `uart_log_write`, before the DMA is started. -/
  | start (size : ℕ)
  deriving DecidableEq, Repr

/-- The log port with the buffer and the DMA channel. -/
structure LogStream where
  port : LogState
  pc : LogStreamPc
  /-- The static buffer of `dmesg_to_stdout`. -/
  buf : List UInt8
  /-- `tx_handler` is registered for the channel. -/
  handler : Bool
  /-- The channel has completed. -/
  latch : Bool
  /-- The place in the buffer from which the channel takes the next byte. -/
  readAddr : ℕ
  /-- The bytes that the channel still has to take. -/
  transCount : ℕ
  /-- The bytes that went to the UART. -/
  sent : List UInt8
  /-- The texts that were given to `uart_log_write` while logging was on. -/
  logged : List UInt8

/-- The steps of the system. -/
inductive LogStreamAct where
  /-- `dmesg_to_stdout` is called and looks at `uart_log_can_write`. -/
  | enter
  /-- `jd_dmesg_read`. -/
  | read (text : List UInt8)
  /-- `uart_log_write`, up to `in_tx = 1`. -/
  | write
  /-- `dma_set_ch_cb`. -/
  | setCb
  /-- `dma_channel_transfer_from_buffer_now`. -/
  | start
  /-- The setting changes, and `uart_log_sync_pin` is called. -/
  | sync (setting : LogPin)
  /-- The channel takes a byte. -/
  | dma
  /-- `isr_dma_0` calls `tx_handler`. -/
  | isr

namespace LogStream

/-- The state when the main loop begins. -/
def initial (env : LogEnv) (setting : LogPin) : LogStream :=
  { port := uartLogInit env (.reset setting)
    pc := .out
    buf := .replicate logBufSize 0
    handler := false
    latch := false
    readAddr := 0
    transCount := 0
    sent := []
    logged := [] }

/-- The channel takes a byte; with the last one it completes. -/
def dma (s : LogStream) : LogStream :=
  { s with
    sent := s.sent ++ [s.buf.getD s.readAddr 0]
    readAddr := s.readAddr + 1
    transCount := s.transCount - 1
    latch := s.transCount = 1 }

/-- One step of the system; `none` if it is not possible or an assertion fails. -/
def step (env : LogEnv) (s : LogStream) : LogStreamAct → Option LogStream
  | .enter =>
    if s.pc = .out then some { s with pc := if s.port.inTx then .out else .read } else none
  | .read text =>
    if s.pc = .read ∧ text.length ≤ logBufSize then
      some { s with
        buf := text ++ s.buf.drop text.length
        pc := if text = [] then .out else .write text }
    else none
  | .write =>
    match s.pc with
    | .write text =>
      if s.port.dmachTx = .disabled then some { s with pc := .out }
      else (uartLogWrite env s.port).map fun port =>
        { s with port := port, pc := .setCb text.length, logged := s.logged ++ text }
    | _ => none
  | .setCb =>
    match s.pc with
    | .setCb size =>
      if s.handler then none
      else some { s with handler := true, latch := false, pc := .start size }
    | _ => none
  | .start =>
    match s.pc with
    | .start size => some { s with readAddr := 0, transCount := size, pc := .out }
    | _ => none
  | .sync setting =>
    if s.pc = .out then some { s with port := s.port.sync env setting } else none
  | .dma => if s.transCount = 0 then none else some s.dma
  | .isr =>
    if s.latch ∧ s.handler then
      some { s with handler := false, latch := false, port := { s.port with inTx := false } }
    else none

/-- What is still in the buffer of the texts that were given to `uart_log_write`. -/
def pending (s : LogStream) : List UInt8 :=
  match s.pc with
  | .setCb size => s.buf.take size
  | .start size => s.buf.take size
  | _ => (s.buf.drop s.readAddr).take s.transCount

/-! ### One step -/

variable {env : LogEnv} {s t : LogStream}

/-- Who uses the buffer. -/
inductive Phase (s : LogStream) : Prop
  /-- The main loop. -/
  | quiet (inTx : s.port.inTx = false) (handler : s.handler = false) (transCount : s.transCount = 0)
      (sent : s.logged = s.sent)
      (pc : s.pc = .out ∨ s.pc = .read ∨
        ∃ text rest, text ≠ [] ∧ s.pc = .write text ∧ s.buf = text ++ rest)
  /-- The main loop for the last time: it is about to register the handler. -/
  | armed (size : ℕ) (pc : s.pc = .setCb size) (pos : size ≠ 0) (le : size ≤ s.buf.length)
      (inTx : s.port.inTx = true) (handler : s.handler = false) (transCount : s.transCount = 0)
      (logged : s.logged = s.sent ++ s.buf.take size)
  /-- Nobody yet: the handler is registered and the channel is not started. -/
  | ready (size : ℕ) (pc : s.pc = .start size) (pos : size ≠ 0) (le : size ≤ s.buf.length)
      (inTx : s.port.inTx = true) (handler : s.handler = true) (latch : s.latch = false)
      (transCount : s.transCount = 0) (logged : s.logged = s.sent ++ s.buf.take size)
  /-- The channel, until its completion has been noticed. -/
  | sending (pc : s.pc = .out) (inTx : s.port.inTx = true) (handler : s.handler = true)
      (latch : s.latch = true ↔ s.transCount = 0) (le : s.readAddr + s.transCount ≤ s.buf.length)
      (logged : s.logged = s.sent ++ (s.buf.drop s.readAddr).take s.transCount)

/-- While `in_tx` is not set, the main loop has the buffer to itself. -/
lemma Phase.quiet_of_pc (h : s.Phase) (hset : ∀ size, s.pc ≠ .setCb size)
    (hstart : ∀ size, s.pc ≠ .start size) (hout : s.pc ≠ .out) :
    s.port.inTx = false ∧ s.handler = false ∧ s.transCount = 0 ∧ s.logged = s.sent := by
  cases h with
  | quiet inTx handler transCount sent pc => exact ⟨inTx, handler, transCount, sent⟩
  | armed size pc => exact absurd pc (hset size)
  | ready size pc => exact absurd pc (hstart size)
  | sending pc => exact absurd pc hout

lemma Phase.enter (h : s.Phase) (hpc : s.pc = .out) :
    Phase { s with pc := if s.port.inTx then .out else .read } := by
  cases h with
  | quiet inTx handler transCount sent pc =>
    exact .quiet inTx handler transCount sent (.inr (.inl (by simp [inTx])))
  | armed size pc => simp [pc] at hpc
  | ready size pc => simp [pc] at hpc
  | sending pc inTx handler latch le logged =>
    exact .sending (by simp [inTx]) inTx handler latch le logged

lemma Phase.read (h : s.Phase) (hpc : s.pc = .read) (text : List UInt8) :
    Phase { s with
      buf := text ++ s.buf.drop text.length
      pc := if text = [] then .out else .write text } := by
  obtain ⟨inTx, handler, transCount, sent⟩ :=
    h.quiet_of_pc (by simp [hpc]) (by simp [hpc]) (by simp [hpc])
  refine .quiet inTx handler transCount sent ?_
  by_cases htext : text = []
  · exact .inl (if_pos htext)
  · exact .inr (.inr ⟨text, s.buf.drop text.length, htext, if_neg htext, rfl⟩)

/-- What `uart_log_write` finds in the buffer is the text. -/
lemma Phase.write (h : s.Phase) {text : List UInt8} (hpc : s.pc = .write text) {port : LogState}
    (hport : port.inTx = true) :
    Phase { s with port := port, pc := .setCb text.length, logged := s.logged ++ text } := by
  cases h with
  | quiet inTx handler transCount sent pc =>
    rcases pc with pc | pc | ⟨text', rest, hne, pc, hbuf⟩
    · simp [pc] at hpc
    · simp [pc] at hpc
    · obtain rfl : text' = text := by simpa [pc] using hpc
      refine .armed text'.length rfl (by simpa using hne) (by simp [hbuf]) hport handler
        transCount ?_
      simp [sent, hbuf]
  | armed size pc => simp [pc] at hpc
  | ready size pc => simp [pc] at hpc
  | sending pc => simp [pc] at hpc

lemma Phase.setCb (h : s.Phase) {size : ℕ} (hpc : s.pc = .setCb size) :
    s.handler = false ∧ Phase { s with handler := true, latch := false, pc := .start size } := by
  cases h with
  | quiet inTx handler transCount sent pc =>
    rcases pc with pc | pc | ⟨text, rest, -, pc, -⟩ <;> simp [pc] at hpc
  | armed size' pc pos le inTx handler transCount logged =>
    obtain rfl : size' = size := by simpa [pc] using hpc
    exact ⟨handler, .ready size' rfl pos le inTx rfl rfl transCount logged⟩
  | ready size' pc => simp [pc] at hpc
  | sending pc => simp [pc] at hpc

lemma Phase.start (h : s.Phase) {size : ℕ} (hpc : s.pc = .start size) :
    Phase { s with readAddr := 0, transCount := size, pc := .out } := by
  cases h with
  | quiet inTx handler transCount sent pc =>
    rcases pc with pc | pc | ⟨text, rest, -, pc, -⟩ <;> simp [pc] at hpc
  | armed size' pc => simp [pc] at hpc
  | ready size' pc pos le inTx handler latch transCount logged =>
    obtain rfl : size' = size := by simpa [pc] using hpc
    exact .sending rfl inTx handler (by simp [latch, pos]) (by simpa using le)
      (by simpa using logged)
  | sending pc => simp [pc] at hpc

/-- The byte that the channel takes is the next one that was logged. -/
lemma Phase.dma (h : s.Phase) (hcount : s.transCount ≠ 0) : s.dma.Phase := by
  cases h with
  | quiet inTx handler transCount => exact absurd transCount hcount
  | armed size pc pos le inTx handler transCount => exact absurd transCount hcount
  | ready size pc pos le inTx handler latch transCount => exact absurd transCount hcount
  | sending pc inTx handler latch le logged =>
    obtain ⟨n, hn⟩ := Nat.exists_eq_succ_of_ne_zero hcount
    have hlt : s.readAddr < s.buf.length := by omega
    refine .sending pc inTx handler ?_ ?_ ?_
    · simp only [LogStream.dma, decide_eq_true_eq]
      omega
    · simp only [LogStream.dma]
      omega
    · simp only [LogStream.dma]
      rw [logged, hn, List.drop_eq_getElem_cons hlt, List.take_succ_cons, Nat.succ_sub_one,
        List.getD_eq_getElem _ _ hlt, List.append_assoc, List.singleton_append]

/-- When the interrupt comes, everything was sent. -/
lemma Phase.isr (h : s.Phase) (hlatch : s.latch = true) (hhandler : s.handler = true) :
    Phase { s with handler := false, latch := false, port := { s.port with inTx := false } } := by
  cases h with
  | quiet inTx handler => simp [handler] at hhandler
  | armed size pc pos le inTx handler => simp [handler] at hhandler
  | ready size pc pos le inTx handler latch => simp [latch] at hlatch
  | sending pc inTx handler latch le logged =>
    have hcount := latch.mp hlatch
    exact .quiet rfl rfl hcount (by simpa [hcount] using logged) (.inl pc)

/-- A change of the setting does not touch the text that is being sent. -/
lemma Phase.with_port (h : s.Phase) {port : LogState} (hport : port.inTx = s.port.inTx) :
    Phase { s with port := port } := by
  cases h with
  | quiet inTx handler transCount sent pc =>
    exact .quiet (hport.trans inTx) handler transCount sent pc
  | armed size pc pos le inTx handler transCount logged =>
    exact .armed size pc pos le (hport.trans inTx) handler transCount logged
  | ready size pc pos le inTx handler latch transCount logged =>
    exact .ready size pc pos le (hport.trans inTx) handler latch transCount logged
  | sending pc inTx handler latch le logged =>
    exact .sending pc (hport.trans inTx) handler latch le logged

end LogStream

lemma inTx_uartLogInit (env : LogEnv) (s : LogState) : (uartLogInit env s).inTx = s.inTx := by
  simp only [uartLogInit]
  split_ifs <;> rfl

lemma LogState.inTx_sync (env : LogEnv) (setting : LogPin) (s : LogState) :
    (s.sync env setting).inTx = s.inTx := by
  simp only [LogState.sync, uartLogSyncPin]
  split_ifs
  · rfl
  · rfl
  · exact inTx_uartLogInit env _
  · rfl

/-- While nothing is sent, `uart_log_write` only sets `in_tx`. -/
lemma uartLogWrite_of_on (env : LogEnv) {s : LogState} (hon : s.dmachTx ≠ .disabled)
    (hunset : s.dmachTx ≠ .unset) (hinTx : s.inTx = false) :
    uartLogWrite env s = some { s with inTx := true } := by
  simp [uartLogWrite, hon, hunset, hinTx]

namespace LogStream

variable {env : LogEnv} {s t : LogStream}

/-- The invariant. -/
structure Inv (s : LogStream) : Prop where
  buf : s.buf.length = logBufSize
  port : s.port.Inv
  phase : s.Phase

lemma inv_initial (env : LogEnv) (setting : LogPin) : (initial env setting).Inv :=
  ⟨by simp [initial], LogState.inv_uartLogInit,
    .quiet (inTx_uartLogInit env _) rfl rfl rfl (.inl rfl)⟩

/-- The assertion of `uart_log_write` holds. -/
lemma Inv.inTx_of_write (h : s.Inv) {text : List UInt8} (hpc : s.pc = .write text) :
    s.port.inTx = false :=
  (h.phase.quiet_of_pc (by simp [hpc]) (by simp [hpc]) (by simp [hpc])).1

lemma Inv.write (h : s.Inv) {text : List UInt8} (hpc : s.pc = .write text)
    (hst : s.step env .write = some t) : t.Inv := by
  have hinTx := h.inTx_of_write hpc
  by_cases hoff : s.port.dmachTx = .disabled
  · obtain rfl : { s with pc := .out } = t := by simpa [LogStream.step, hpc, hoff] using hst
    obtain ⟨-, handler, transCount, sent⟩ :=
      h.phase.quiet_of_pc (by simp [hpc]) (by simp [hpc]) (by simp [hpc])
    exact ⟨h.buf, h.port, .quiet hinTx handler transCount sent (.inl rfl)⟩
  · have hwrite := uartLogWrite_of_on env hoff h.port.unset hinTx
    obtain rfl : { s with
        port := { s.port with inTx := true }
        pc := .setCb text.length
        logged := s.logged ++ text } = t := by
      simpa [LogStream.step, hpc, hoff, hwrite] using hst
    exact ⟨h.buf, ⟨h.port.unset, h.port.disabled, h.port.no_pin⟩, h.phase.write hpc rfl⟩

/-- Every step keeps the invariant. -/
lemma Inv.step (h : s.Inv) {a : LogStreamAct} (hst : s.step env a = some t) : t.Inv := by
  cases a with
  | enter =>
    obtain ⟨hpc, rfl⟩ : s.pc = .out ∧
        { s with pc := if s.port.inTx then .out else .read } = t := by
      simpa [LogStream.step] using hst
    exact ⟨h.buf, h.port, h.phase.enter hpc⟩
  | read text =>
    obtain ⟨⟨hpc, hlen⟩, rfl⟩ : (s.pc = .read ∧ text.length ≤ logBufSize) ∧ { s with
        buf := text ++ s.buf.drop text.length
        pc := if text = [] then .out else .write text } = t := by
      simpa [LogStream.step] using hst
    refine ⟨?_, h.port, h.phase.read hpc text⟩
    simp only [List.length_append, List.length_drop, h.buf]
    omega
  | write =>
    cases hpc : s.pc with
    | write text => exact h.write hpc hst
    | _ => simp [LogStream.step, hpc] at hst
  | setCb =>
    cases hpc : s.pc with
    | setCb size =>
      obtain ⟨hhandler, hphase⟩ := h.phase.setCb hpc
      obtain rfl : { s with handler := true, latch := false, pc := .start size } = t := by
        simpa [LogStream.step, hpc, hhandler] using hst
      exact ⟨h.buf, h.port, hphase⟩
    | _ => simp [LogStream.step, hpc] at hst
  | start =>
    cases hpc : s.pc with
    | start size =>
      obtain rfl : { s with readAddr := 0, transCount := size, pc := .out } = t := by
        simpa [LogStream.step, hpc] using hst
      exact ⟨h.buf, h.port, h.phase.start hpc⟩
    | _ => simp [LogStream.step, hpc] at hst
  | sync setting =>
    obtain ⟨-, rfl⟩ : s.pc = .out ∧ { s with port := s.port.sync env setting } = t := by
      simpa [LogStream.step] using hst
    exact ⟨h.buf, h.port.sync, h.phase.with_port (s.port.inTx_sync env setting)⟩
  | dma =>
    obtain ⟨hcount, rfl⟩ : s.transCount ≠ 0 ∧ s.dma = t := by
      simpa [LogStream.step] using hst
    exact ⟨h.buf, h.port, h.phase.dma hcount⟩
  | isr =>
    obtain ⟨⟨hlatch, hhandler⟩, rfl⟩ : (s.latch = true ∧ s.handler = true) ∧
        { s with
          handler := false, latch := false, port := { s.port with inTx := false } } = t := by
      simpa [LogStream.step] using hst
    exact ⟨h.buf, ⟨h.port.unset, h.port.disabled, h.port.no_pin⟩, h.phase.isr hlatch hhandler⟩

/-- What was logged was sent or is still in the buffer. -/
lemma Phase.logged_eq (h : s.Phase) : s.logged = s.sent ++ s.pending := by
  cases h with
  | quiet inTx handler transCount sent pc =>
    rcases pc with pc | pc | ⟨text, rest, -, pc, -⟩ <;> simp [pending, pc, transCount, sent]
  | armed size pc pos le inTx handler transCount logged => simp [pending, pc, logged]
  | ready size pc pos le inTx handler latch transCount logged => simp [pending, pc, logged]
  | sending pc inTx handler latch le logged => simp [pending, pc, logged]

/-- When `in_tx` is not set, nothing is pending. -/
lemma Phase.sent_of_not_inTx (h : s.Phase) (hinTx : s.port.inTx = false) : s.sent = s.logged := by
  cases h with
  | quiet inTx' handler transCount sent pc => exact sent.symm
  | armed size pc pos le inTx => simp [inTx] at hinTx
  | ready size pc pos le inTx => simp [inTx] at hinTx
  | sending pc inTx => simp [inTx] at hinTx

end LogStream

/-! ### Runs -/

/-- **The log.**  For every setting and its changes, all texts, and every interleaving of the main
loop with the channel and its interrupt: the bytes that went to the UART, followed by those that are
still in the buffer, are the texts that were logged while logging was on, in their order; when
`in_tx` is not set they all went to the UART; and the assertions of `uart_log_write` and
`dma_set_ch_cb` hold. -/
theorem log_stream (env : LogEnv) (setting : LogPin) (acts : List LogStreamAct) (s : LogStream)
    (hrun : exec (LogStream.step env) (.initial env setting) acts = some s) :
    s.logged = s.sent ++ s.pending ∧ (s.port.inTx = false → s.sent = s.logged) ∧
      (∀ text, s.pc = .write text → (uartLogWrite env s.port).isSome) ∧
      ∀ size, s.pc = .setCb size → s.handler = false := by
  have h : s.Inv :=
    exec_inv (fun _ _ _ h hst => h.step hst) (LogStream.inv_initial env setting) hrun
  refine ⟨h.phase.logged_eq, h.phase.sent_of_not_inTx, ?_, ?_⟩
  · intro text hpc
    by_cases hoff : s.port.dmachTx = .disabled
    · simp [uartLogWrite, hoff]
    · simp [uartLogWrite_of_on _ hoff h.port.unset (h.inTx_of_write hpc)]
  · intro size hpc
    exact (h.phase.setCb hpc).1

/-- Two texts; `dmesg_to_stdout` is called in vain while the first one is being sent. -/
theorem log_stream_two_texts :
    ∃ s, exec (LogStream.step ⟨3, 115200⟩) (.initial ⟨3, 115200⟩ ⟨0, by decide⟩)
        [.enter, .read [65, 66], .write, .setCb, .start, .dma, .enter, .dma, .isr, .enter,
          .read [67], .write, .setCb] = some s ∧
      s.sent = [65, 66] ∧ [65, 66, 67] = s.sent ++ s.pending := by
  have hrun : (exec (LogStream.step ⟨3, 115200⟩) (.initial ⟨3, 115200⟩ ⟨0, by decide⟩)
      [.enter, .read [65, 66], .write, .setCb, .start, .dma, .enter, .dma, .isr, .enter,
        .read [67], .write, .setCb]).map (fun s => (s.sent, s.logged)) =
      some ([65, 66], [65, 66, 67]) := by decide
  obtain ⟨s, hs, heq⟩ := Option.map_eq_some_iff.mp hrun
  obtain ⟨hsent, hlogged⟩ := Prod.mk.inj heq
  exact ⟨s, hs, hsent, hlogged ▸ (log_stream _ _ _ s hs).1⟩

end JdPico
