import JdPico.Sws.Closing

/-!
# How long the end of a frame takes

The loop of `tx_handler` runs in an interrupt and has no bound of its own.  What bounds it is the
transmitter: when the handler is called the DMA has nothing left, so there are at most the character
that is being sent and the four bytes of the FIFO.  This is why `jd_tx_program_init` does not join
the two FIFOs.

A character takes 80 cycles, so the flag that the loop waits for is set after 400 cycles at most,
which are 50 µs.  It does not matter when the loop looks at it, nor that a late `uart_start_tx`
may clear it once more, because a transmitter that has nothing to send sets it again in every cycle.
-/

namespace JdPico

open Machine Pio

namespace TxUnit

variable {u v : TxUnit} {n : ℕ}

/-- The transmitter has nothing to send in `n` cycles, if nothing is written to its FIFO. -/
inductive Due (n : ℕ) (u : TxUnit) : Prop
  | pull (queue : List (BitVec 8)) (atPull : AtPull u.sm) (txFifo : u.sm.txFifo = queue.map dmaWord)
      (cycles : n = 80 * queue.length)
  | char (queue : List (BitVec 8)) (b : BitVec 8) (k : ℕ) (inChar : InChar b k u.sm)
      (txFifo : u.sm.txFifo = queue.map dmaWord) (cycles : n + k = 80 + 80 * queue.length)

lemma Due.of_sm (h : u.Due n) (hsm : v.sm = u.sm) : v.Due n := by
  cases h with
  | pull queue atPull txFifo cycles => exact .pull queue (hsm ▸ atPull) (hsm ▸ txFifo) cycles
  | char queue b k inChar txFifo cycles =>
    exact .char queue b k (hsm ▸ inChar) (hsm ▸ txFifo) cycles

lemma Due.clearStall (h : u.Due n) : u.clearStall.Due n := by
  cases h with
  | pull queue atPull txFifo cycles => exact .pull queue ⟨atPull.pc, atPull.delay⟩ txFifo cycles
  | char queue b k inChar txFifo cycles =>
    exact .char queue b k (inChar.with_fifo _ _) txFifo cycles

/-- A cycle brings the end one cycle closer. -/
lemma Due.cycle (h : u.Due n) : u.cycle.Due (n - 1) := by
  cases h with
  | pull queue atPull txFifo cycles =>
    cases queue with
    | nil =>
      have hcycle := atPull.txCycle_of_nil txFifo
      obtain rfl : n = 0 := by simpa using cycles
      refine .pull [] ?_ ?_ rfl
      · exact ⟨by simp [TxUnit.cycle, hcycle, atPull.pc],
          by simp [TxUnit.cycle, hcycle, atPull.delay]⟩
      · simpa [TxUnit.cycle, hcycle] using txFifo
    | cons b queue =>
      have hcycle := atPull.txCycle_of_cons txFifo
      have hlt : 7 < 8 := by decide
      rw [List.length_cons] at cycles
      refine .char queue b 1 ?_ (by simp [TxUnit.cycle, hcycle]) (by omega)
      simp only [TxUnit.cycle, hcycle]
      exact .stop rfl rfl hlt rfl rfl
  | char queue b k inChar txFifo cycles =>
    obtain ⟨-, hnext, hfifo, -⟩ := inChar.next
    rcases hnext with ⟨hk, hchar⟩ | ⟨hend, hpull⟩
    · exact .char queue b (k + 1) hchar (hfifo.trans txFifo) (by omega)
    · exact .pull queue hpull (hfifo.trans txFifo) (by omega)

/-- With nothing left to send, a cycle sets the flag. -/
lemma Due.txStall_cycle (h : u.Due 0) : u.cycle.sm.txStall = true := by
  cases h with
  | pull queue atPull txFifo cycles =>
    obtain rfl : queue = [] := List.length_eq_zero_iff.mp (by omega)
    simp [TxUnit.cycle, atPull.txCycle_of_nil txFifo]
  | char queue b k inChar txFifo cycles =>
    have hk : k < 80 := by
      cases inChar with
      | stop pc cycles delay => omega
      | start pc cycles delay => omega
      | out i hi pc cycles => omega
      | hold i hi pc cycles delay last => exact last
    omega

/-- How far the frame has come says how long it takes. -/
lemma Progress.due (h : u.Progress) : ∃ n ≤ 80 * u.sm.txFifo.length + 79, u.Due n := by
  cases h with
  | ready sent queue atPull txFifo levels frame =>
    exact ⟨80 * queue.length, by simp [txFifo], .pull queue atPull txFifo rfl⟩
  | inChar sent queue b k levels char txFifo done now frame =>
    have hk : 1 ≤ k ∧ k ≤ 80 := by
      cases char with
      | stop pc cycles delay => omega
      | start pc cycles delay => omega
      | out i hi pc cycles => omega
      | hold i hi pc cycles delay last => omega
    refine ⟨80 - k + 80 * queue.length, ?_, .char queue b k char txFifo (by omega)⟩
    rw [txFifo, List.length_map]
    omega

/-! ### Runs -/

/-- What each step needs and does. -/
inductive Takes (u : TxUnit) : TxAct → TxUnit → Prop
  | arm (pc : u.pc = .idle) : Takes u .arm u.arm
  | transfer {data : List (BitVec 8)} (pc : u.pc = .armed) :
      Takes u (.transfer data) (u.transfer data)
  | clearStall : Takes u .clearStall u.clearStall
  | cycle (enabled : u.enabled = true) : Takes u .cycle u.cycle
  | dma {b : BitVec 8} {rest : List (BitVec 8)} (dma : u.dma = b :: rest)
      (room : u.sm.txFifo.length < txFifoSize) :
      Takes u .dma
        { u with sm := u.sm.feed [dmaWord b], dma := rest, completion := rest.isEmpty }
  | enter (completion : u.completion = true) :
      Takes u .enter { u.clearStall with completion := false, pc := .waiting }
  | poll (pc : u.pc = .waiting) :
      Takes u .poll { u with pc := if u.sm.txStall then .exited else .waiting }
  | finish (pc : u.pc = .exited) : Takes u .finish u.uartDisable

lemma takes_of_step {a : TxAct} (hst : u.step a = some v) : u.Takes a v := by
  cases a with
  | arm =>
    obtain ⟨hpc, rfl⟩ : u.pc = .idle ∧ u.arm = v := by simpa [TxUnit.step] using hst
    exact .arm hpc
  | transfer data =>
    obtain ⟨⟨hpc, -⟩, rfl⟩ : (u.pc = .armed ∧ data ≠ []) ∧ u.transfer data = v := by
      simpa [TxUnit.step] using hst
    exact .transfer hpc
  | clearStall =>
    obtain rfl := Option.some.inj hst
    exact .clearStall
  | cycle =>
    obtain ⟨henabled, rfl⟩ : u.enabled = true ∧ u.cycle = v := by simpa [TxUnit.step] using hst
    exact .cycle henabled
  | dma =>
    rcases hdma : u.dma with _ | ⟨b, rest⟩ <;> simp only [TxUnit.step, hdma] at hst
    · simp at hst
    · split_ifs at hst with hroom
      obtain rfl := Option.some.inj hst
      exact .dma hdma hroom
  | enter =>
    obtain ⟨hcompl, rfl⟩ : u.completion = true ∧
        { u.clearStall with completion := false, pc := .waiting } = v := by
      simpa [TxUnit.step] using hst
    exact .enter hcompl
  | poll =>
    obtain ⟨hpc, rfl⟩ : u.pc = .waiting ∧
        { u with pc := if u.sm.txStall then .exited else .waiting } = v := by
      simpa [TxUnit.step] using hst
    exact .poll hpc
  | finish =>
    obtain ⟨hpc, rfl⟩ : u.pc = .exited ∧ u.uartDisable = v := by simpa [TxUnit.step] using hst
    exact .finish hpc

/-- The invariant, with the size of the FIFO; the transmitter is on while a frame is sent. -/
structure Bounded (u : TxUnit) : Prop extends u.Inv where
  room : u.sm.txFifo.length ≤ txFifoSize
  on : u.pc ≠ .idle → u.enabled = true

lemma length_txFifo_cycle (h : u.Progress) :
    (txCycle u.sm).txFifo.length ≤ u.sm.txFifo.length := by
  cases h with
  | ready sent queue atPull txFifo levels frame =>
    cases queue with
    | nil => rw [atPull.txCycle_of_nil txFifo]
    | cons b queue =>
      rw [atPull.txCycle_of_cons txFifo, txFifo]
      simp
  | inChar sent queue b k levels char txFifo done now frame => rw [char.next.txFifo]

lemma Bounded.step (h : u.Bounded) {a : TxAct} (hst : u.step a = some v) : v.Bounded := by
  refine ⟨h.toInv.step hst, ?_, ?_⟩
  · cases takes_of_step hst with
    | cycle => exact (length_txFifo_cycle h.progress).trans h.room
    | dma dma room => simpa [Sm.feed] using room
    | _ => exact h.room
  · intro hpc
    cases takes_of_step hst with
    | arm => rfl
    | transfer pc => exact h.on (by simp [pc])
    | clearStall => exact h.on hpc
    | cycle enabled => exact enabled
    | dma dma room => exact h.on hpc
    | enter completion => exact h.on (by simp [(h.completion completion).1])
    | poll pc => exact h.on (by simp [pc])
    | finish => exact absurd rfl hpc

/-- `tx_handler` is in its loop or has left it, and nothing is left to send in `n` cycles. -/
structure Closing (n : ℕ) (u : TxUnit) : Prop where
  bounded : u.Bounded
  handler : u.pc = .waiting ∨ u.pc = .exited
  due : u.Due n

/-- In the loop nothing comes from the DMA, so every cycle counts. -/
lemma Closing.step (h : u.Closing n) {a : TxAct} (ha : a ≠ .finish) (hst : u.step a = some v) :
    v.Closing (n - if a = .cycle then 1 else 0) := by
  have hb := h.bounded.step hst
  cases takes_of_step hst with
  | arm pc => rcases h.handler with hpc | hpc <;> simp [pc] at hpc
  | transfer pc => rcases h.handler with hpc | hpc <;> simp [pc] at hpc
  | clearStall => exact ⟨hb, h.handler, h.due.clearStall⟩
  | cycle => exact ⟨hb, h.handler, h.due.cycle⟩
  | dma dma room => simp [h.bounded.handler h.handler] at dma
  | enter completion =>
    have hpc := (h.bounded.completion completion).1
    rcases h.handler with hpc' | hpc' <;> simp [hpc] at hpc'
  | poll pc =>
    refine ⟨hb, ?_, h.due.of_sm rfl⟩
    cases u.sm.txStall
    · exact .inl rfl
    · exact .inr rfl
  | finish => exact absurd rfl ha

lemma bounded_initial : initial.Bounded := ⟨inv_initial, by decide, by decide⟩

end TxUnit

/-- **The loop ends.**  In every run, from any state in which `tx_handler` waits: however the cycles
of the transmitter, the tests of the loop and a late `uart_start_tx` are interleaved, once 399
cycles have passed the next cycle sets the flag, and the test after it ends the loop. -/
theorem tx_handler_loop_ends (acts : List TxAct) (u : TxUnit)
    (hrun : exec TxUnit.step .initial acts = some u) (hwait : u.pc = .waiting)
    (more : List TxAct) (v : TxUnit) (hmore : exec TxUnit.step u more = some v)
    (hfinish : .finish ∉ more) (hcycles : 399 ≤ more.count .cycle) (hstill : v.pc = .waiting) :
    ∃ w, exec TxUnit.step v [.cycle, .poll] = some w ∧ w.pc = .exited := by
  have hu : u.Bounded := exec_inv (fun _ _ _ h hst => h.step hst) TxUnit.bounded_initial hrun
  obtain ⟨n, hn, hdue⟩ := hu.progress.due
  have hv : v.Closing (n - more.count .cycle) := by
    refine exec_countdown (C := fun _ a => a ≠ .finish) (P := TxUnit.Closing) ?_
      ⟨hu, .inl hwait, hdue⟩
      (.of_forall_mem fun a ha => ne_of_mem_of_not_mem ha hfinish) hmore
    intro n s a t hs ha hst
    simpa using hs.step ha hst
  have hroom := hu.room
  rw [show n - more.count .cycle = 0 by simp only [txFifoSize] at hroom; omega] at hv
  have hon := hv.bounded.on (by simp [hstill])
  have hstall := hv.due.txStall_cycle
  refine ⟨{ v.cycle with pc := .exited }, ?_, rfl⟩
  have hcycle : v.step .cycle = some v.cycle := if_pos hon
  have hpoll : v.cycle.step .poll = some { v.cycle with pc := .exited } := by
    rw [TxUnit.step, if_pos (show v.cycle.pc = .waiting from hstill), hstall, if_pos rfl]
  simp [exec, hcycle, hpoll]

/-- One byte, with the handler called at once. -/
theorem tx_handler_loop_ends_one_byte :
    ∃ u v w, exec TxUnit.step .initial [.arm, .transfer [0x5a], .dma, .enter] = some u ∧
      exec TxUnit.step u (.replicate 399 .cycle) = some v ∧
      exec TxUnit.step v [.cycle, .poll] = some w ∧ w.pc = .exited := by
  have hrun : (exec TxUnit.step .initial [.arm, .transfer [0x5a], .dma, .enter]).map
      (fun u => (u.pc, (exec TxUnit.step u (.replicate 399 .cycle)).map TxUnit.pc)) =
      some (.waiting, some .waiting) := by decide +kernel
  obtain ⟨u, hu, heq⟩ := Option.map_eq_some_iff.mp hrun
  obtain ⟨hpc, hmore⟩ := Prod.mk.inj heq
  obtain ⟨v, hv, hstill⟩ := Option.map_eq_some_iff.mp hmore
  obtain ⟨w, hw, hexit⟩ := tx_handler_loop_ends _ u hu hpc _ v hv
    (fun hmem => absurd (List.eq_of_mem_replicate hmem) (by decide)) List.count_replicate_self.ge
    hstill
  exact ⟨u, v, w, hu, hv, hw, hexit⟩

end JdPico
