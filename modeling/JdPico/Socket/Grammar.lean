import JdPico.Lib.Log
import JdPico.Socket.Trace

/-!
# The events and the bytes of a trace

What an application sees of a connection are the events since its latest attempt (`eventsSince`),
the bytes of their messages (`payloads`) and the bytes that were acknowledged (`acknowledged`).
The events should form a word of a small grammar (`EventWord`): the connection is opened, messages
come, it ends.

`SockLogInv` is what holds of a trace all along a run; the lemmas below say how each kind of
entry keeps it.
-/

namespace JdPico

/-! ### Reading the trace -/

/-- The event an entry of the trace gives to the application. -/
def SockEvent.reported : SockEvent → Option ConnEvent
  | .event e => some e
  | _ => none

/-- The bytes an entry of the trace gives to the application. -/
def SockEvent.payload : SockEvent → List UInt8
  | .event (.message q) => q
  | _ => []

/-- The number of bytes an entry of the trace acknowledges. -/
def SockEvent.acks : SockEvent → ℕ
  | .tcp (.recved len) _ _ => len
  | _ => 0

/-- The entry starts an attempt, delivers or acknowledges data, or writes. -/
def SockEvent.carries : SockEvent → Bool
  | .attempt _ _ => true
  | .event (.message _) => true
  | .tcp (.recved _) _ _ => true
  | .tcp (.write _) _ _ => true
  | _ => false

/-- The entry is an answer of lwIP, or a call that neither acknowledges data nor writes. -/
def SockEvent.isQuiet : SockEvent → Bool
  | .answer _ _ => true
  | .tcpNew _ => true
  | .tcp (.recved _) _ _ => false
  | .tcp (.write _) _ _ => false
  | .tcp _ _ _ => true
  | _ => false

/-- The events given to the application since the latest attempt was started, oldest first. -/
def eventsSince (l : List SockEvent) : List ConnEvent :=
  ((sinceAttempt l).filterMap SockEvent.reported).reverse

/-- The bytes given to the application, oldest first. -/
def payloads (l : List SockEvent) : List UInt8 := (l.reverse.map SockEvent.payload).flatten

/-- The number of bytes acknowledged through `tcp_recved`. -/
def acknowledged (l : List SockEvent) : ℕ := (l.map SockEvent.acks).sum

/-- The events of a connection: it is opened, then messages come, then it ends.  It may end without
having been opened, and then no message came. -/
def EventWord (es : List ConnEvent) : Prop :=
  ∃ opening msgs ending, es = opening ++ msgs.map .message ++ ending ∧
    (opening = [.opened] ∨ opening = [] ∧ msgs = []) ∧
    (ending = [] ∨ ending = [.closed] ∨ ∃ msg, ending = [.error msg, .closed])

/-- The events of a connection that is open: its opening, then messages. -/
def OpenWord (es : List ConnEvent) : Prop :=
  ∃ msgs : List (List UInt8), es = .opened :: msgs.map .message

/-- The connection of the latest attempt is open, and the socket was not closed. -/
def OpenAt (l : List SockEvent) : Prop := OpenWord (eventsSince l) ∧ (latestAttempt l).isSome

/-! ### The trace -/

section Trace

variable {l m : List SockEvent} {e : SockEvent} {es : List ConnEvent}

lemma payloads_append : payloads (m ++ l) = payloads l ++ payloads m := by
  simp [payloads]

lemma acknowledged_append : acknowledged (m ++ l) = acknowledged m + acknowledged l := by
  simp [acknowledged]

lemma payloads_cons : payloads (e :: l) = payloads l ++ e.payload := by
  simp [payloads]

lemma acknowledged_cons : acknowledged (e :: l) = e.acks + acknowledged l := by
  simp [acknowledged]

lemma eventsSince_append (hm : ∀ e ∈ m, e.isAttempt = false) :
    eventsSince (m ++ l) = eventsSince l ++ (m.filterMap SockEvent.reported).reverse := by
  rw [eventsSince, sinceAttempt_append hm, List.filterMap_append, List.reverse_append, eventsSince]

/-- Entries that report nothing leave the events as they are. -/
lemma eventsSince_append_of_silent (hm : ∀ e ∈ m, e.isAttempt = false ∧ e.reported = none) :
    eventsSince (m ++ l) = eventsSince l := by
  have hnone : m.filterMap SockEvent.reported = [] := by
    rw [List.filterMap_eq_nil_iff]
    exact fun e he => (hm e he).2
  rw [eventsSince_append fun e he => (hm e he).1, hnone, List.reverse_nil, List.append_nil]

lemma eventsSince_event {e : ConnEvent} : eventsSince (.event e :: l) = eventsSince l ++ [e] :=
  eventsSince_append (m := [.event e]) (by simp [SockEvent.isAttempt])

lemma eventsSince_close (lwip : Lwip) (w : SockWorld) :
    eventsSince (jdTcpsockClose lwip w).trace = eventsSince w.trace := by
  rw [jdTcpsockClose_trace, ← List.cons_append]
  refine eventsSince_append_of_silent ?_
  intro e he
  rcases List.mem_cons.mp he with rfl | hcall
  · exact ⟨rfl, rfl⟩
  · obtain ⟨fn, -, rfl⟩ := exists_of_mem_closeCalls hcall
    exact ⟨rfl, rfl⟩

/-- What is opened and brought messages can end. -/
lemma EventWord.ended (h : es = [] ∨ OpenWord es) (msg : String) :
    EventWord (es ++ [.error msg, .closed]) := by
  rcases h with rfl | ⟨msgs, rfl⟩
  · exact ⟨[], [], [.error msg, .closed], rfl, .inr ⟨rfl, rfl⟩, .inr (.inr ⟨msg, rfl⟩)⟩
  · exact ⟨[.opened], msgs, [.error msg, .closed], rfl, .inl rfl, .inr (.inr ⟨msg, rfl⟩)⟩

lemma EventWord.nil : EventWord [] := ⟨[], [], [], rfl, .inr ⟨rfl, rfl⟩, .inl rfl⟩

lemma OpenWord.eventWord (h : OpenWord es) : EventWord es := by
  obtain ⟨msgs, rfl⟩ := h
  exact ⟨[.opened], msgs, [], (List.append_nil _).symm, .inl rfl, .inl rfl⟩

lemma OpenWord.messages (h : OpenWord es) (segs : List (List UInt8)) :
    OpenWord (es ++ segs.map .message) := by
  obtain ⟨msgs, rfl⟩ := h
  exact ⟨msgs ++ segs, by simp⟩

/-- The bytes of entries that carry nothing. -/
lemma payloads_of_not_carries (hm : ∀ e ∈ m, e.carries = false) : payloads m = [] := by
  simp only [payloads, List.flatten_eq_nil_iff, List.mem_map, List.mem_reverse]
  rintro q ⟨e, he, rfl⟩
  have hcarries := hm e he
  unfold SockEvent.carries at hcarries
  unfold SockEvent.payload
  split <;> simp_all

/-- The acknowledgements of entries that carry nothing. -/
lemma acknowledged_of_not_carries (hm : ∀ e ∈ m, e.carries = false) : acknowledged m = 0 := by
  simp only [acknowledged, List.sum_eq_zero_iff, List.mem_map]
  rintro n ⟨e, he, rfl⟩
  have hcarries := hm e he
  unfold SockEvent.carries at hcarries
  unfold SockEvent.acks
  split <;> simp_all

end Trace

/-- What the trace says about the attempts that ended, the bytes and the writes. -/
structure SockLogInv (received : List UInt8) (l : List SockEvent) : Prop where
  past : ∀ newer older hostname port, l = newer ++ .attempt hostname port :: older →
    EventWord (eventsSince older)
  payloads_eq : payloads l = received
  acknowledged_eq : acknowledged l = (payloads l).length
  writes : ∀ newer older buf pcb freed, l = newer ++ .tcp (.write buf) pcb freed :: older →
    OpenAt older

namespace SockLogInv

variable {received : List UInt8} {l m : List SockEvent}

/-- Newer entries keep what the trace says about attempts that ended. -/
lemma past_append (h : SockLogInv received l) (hm : ∀ e ∈ m, e.isAttempt = false) :
    ∀ newer older hostname port, m ++ l = newer ++ .attempt hostname port :: older →
      EventWord (eventsSince older) := by
  intro newer older hostname port hsplit
  have hmem : SockEvent.attempt hostname port ∉ m := by
    intro hmem
    simpa [SockEvent.isAttempt] using hm _ hmem
  obtain ⟨newer', hl⟩ := Log.split_of_notMem hmem hsplit
  exact h.past newer' older hostname port hl

/-- Newer entries keep what the trace says about writes. -/
lemma writes_append (h : SockLogInv received l)
    (hm : ∀ buf pcb freed, .tcp (.write buf) pcb freed ∉ m) :
    ∀ newer older buf pcb freed, m ++ l = newer ++ .tcp (.write buf) pcb freed :: older →
      OpenAt older := by
  intro newer older buf pcb freed hsplit
  obtain ⟨newer', hl⟩ := Log.split_of_notMem (hm buf pcb freed) hsplit
  exact h.writes newer' older buf pcb freed hl

/-- Entries that carry nothing keep what the trace says. -/
lemma extend (h : SockLogInv received l) (hm : ∀ e ∈ m, e.carries = false) :
    SockLogInv received (m ++ l) where
  past := by
    refine h.past_append fun e he => ?_
    have hcarries := hm e he
    cases e with
    | attempt hostname port => simp [SockEvent.carries] at hcarries
    | _ => rfl
  payloads_eq := by rw [payloads_append, payloads_of_not_carries hm, List.append_nil, h.payloads_eq]
  acknowledged_eq := by
    rw [acknowledged_append, payloads_append, payloads_of_not_carries hm,
      acknowledged_of_not_carries hm, List.append_nil, zero_add, h.acknowledged_eq]
  writes := by
    refine h.writes_append fun buf pcb freed hmem => ?_
    simpa [SockEvent.carries] using hm _ hmem

/-- A new attempt: the events of the one before it are complete. -/
lemma attempt (h : SockLogInv received l) (hword : EventWord (eventsSince l)) (hostname : String)
    (port : Int32) : SockLogInv received (.attempt hostname port :: l) where
  past := by
    intro newer older hostname' port' hsplit
    rcases Log.split_cons hsplit with ⟨-, rfl⟩ | ⟨newer', hrest⟩
    · exact hword
    · exact h.past newer' older hostname' port' hrest
  payloads_eq := by simp [payloads_cons, SockEvent.payload, h.payloads_eq]
  acknowledged_eq := by
    simp [acknowledged_cons, payloads_cons, SockEvent.acks, SockEvent.payload, h.acknowledged_eq]
  writes := h.writes_append (m := [.attempt hostname port]) (by simp)

/-- A write on an open connection. -/
lemma write (h : SockLogInv received l) (hopen : OpenAt l) (buf : List UInt8) (pcb : Option Pcb)
    (freed : Bool) : SockLogInv received (.tcp (.write buf) pcb freed :: l) where
  past := h.past_append (m := [.tcp (.write buf) pcb freed]) (by simp [SockEvent.isAttempt])
  payloads_eq := by simp [payloads_cons, SockEvent.payload, h.payloads_eq]
  acknowledged_eq := by
    simp [acknowledged_cons, payloads_cons, SockEvent.acks, SockEvent.payload, h.acknowledged_eq]
  writes := by
    intro newer older buf' pcb' freed' hsplit
    rcases Log.split_cons hsplit with ⟨-, rfl⟩ | ⟨newer', hrest⟩
    · exact hopen
    · exact h.writes newer' older buf' pcb' freed' hrest

/-- The messages of a chain and their acknowledgement. -/
lemma chain (h : SockLogInv received l) (buf : Pbuf) (pcb : Option Pcb) (freed : Bool) :
    SockLogInv (received ++ buf.segs.flatten)
      (.tcp (.recved buf.totLen) pcb freed ::
        ((buf.segs.map fun q => .event (.message q)).reverse ++ l)) := by
  set m : List SockEvent :=
    .tcp (.recved buf.totLen) pcb freed ::
      (buf.segs.map fun q => .event (.message q)).reverse with hm
  have hpay : payloads m = buf.segs.flatten := by
    simp [hm, payloads, SockEvent.payload, Function.comp_def]
  have hack : acknowledged m = buf.segs.flatten.length := by
    simp [hm, acknowledged, SockEvent.acks, buf.totLen_eq, Function.comp_def]
  change SockLogInv (received ++ buf.segs.flatten) (m ++ l)
  refine ⟨?_, ?_, ?_, ?_⟩
  · refine h.past_append ?_
    simp [hm, SockEvent.isAttempt]
  · rw [payloads_append, hpay, h.payloads_eq]
  · rw [acknowledged_append, payloads_append, hpay, hack, h.acknowledged_eq, List.length_append,
      Nat.add_comm]
  · refine h.writes_append ?_
    simp [hm]

end SockLogInv

section Quiet

variable {received : List UInt8} {l m : List SockEvent} {e : SockEvent}

lemma SockEvent.of_isQuiet (he : e.isQuiet = true) :
    e.carries = false ∧ e.reported = none ∧ e.isAttempt = false ∧ e.delimits = false := by
  cases e with
  | attempt hostname port | closed waiting | event e => simp [SockEvent.isQuiet] at he
  | answer hostname a | tcpNew pcb => exact ⟨rfl, rfl, rfl, rfl⟩
  | tcp fn pcb freed =>
    cases fn with
    | recved len | write buf => simp [SockEvent.isQuiet] at he
    | _ => exact ⟨rfl, rfl, rfl, rfl⟩

lemma SockLogInv.quiet (h : SockLogInv received l) (hm : ∀ e ∈ m, e.isQuiet = true) :
    SockLogInv received (m ++ l) :=
  h.extend fun e he => (SockEvent.of_isQuiet (hm e he)).1

lemma eventsSince_quiet (hm : ∀ e ∈ m, e.isQuiet = true) : eventsSince (m ++ l) = eventsSince l :=
  eventsSince_append_of_silent fun e he =>
    have hquiet := SockEvent.of_isQuiet (hm e he)
    ⟨hquiet.2.2.1, hquiet.2.1⟩

lemma latestAttempt_quiet (hm : ∀ e ∈ m, e.isQuiet = true) :
    latestAttempt (m ++ l) = latestAttempt l :=
  latestAttempt_append fun e he => (SockEvent.of_isQuiet (hm e he)).2.2.2

end Quiet

end JdPico
