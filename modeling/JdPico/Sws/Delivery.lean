import JdPico.Sws.Closing
import JdPico.Sws.Loopback
import JdPico.Sws.Resume
import Mathlib.Data.List.GetD

/-!
# A frame from one device to another

One device sends a frame as its driver does: the DMA feeds the transmitter at its own pace, and
`tx_handler` waits for the stall, takes over the pin and makes the closing break.  Another device
receives it, on a clock within two percent of the first.

The break is longer than a character, so the receiver takes its start for a start bit, finds eight
low data bits and a low stop bit, and raises the interrupt that ends the reception.  How long the
line is high before the break is not certain: `target_wait_us(1)` can end at the next tick of the
timer.  If that comes before the receiver looks for the stop bit of the last byte, it raises the
interrupt there.  Either way the interrupt comes once, and when it comes all bytes are there; the
break itself may have left one more, a zero.

The levels on the line grow at the end (`SerialLevels`), so the induction is on how far they have
come: the receiver is at the start bit of the last byte (`ReceivesUpTo`).
-/

namespace JdPico

open Machine Pio

/-- The line while a frame is sent and after it: what the transmitter has put on it, `gap` cycles
high, `low` cycles low, and high from then on. -/
def closingLine (levels : List Bool) (gap low n : ℕ) : Bool :=
  if n < levels.length then levels.getD n true
  else decide (n < levels.length + gap ∨ levels.length + gap + low ≤ n)

/-! ### The receiver and a break -/

section

variable {sample : ℕ → Bool} {n m : ℕ} {x : BitVec 32} {out : List (BitVec 32)} {irqs : List ℕ}

/-- The start bit and the data bits of a character. -/
lemma RxIdle.byte {b : BitVec 8} (h : RxIdle sample n out irqs) (hstart : sample n = false)
    (hdata : ∀ i < 8, sample (n + 11 + 8 * i) = b.getLsbD i) :
    ∃ x, RxAt sample (n + 75) 6 x 0 0 (out ++ [rxWord b]) irqs := by
  obtain ⟨x, hset⟩ := h.wait_low hstart
  have hlast := (hset.skip.bits (b := b) (i := 7) (by omega)
    fun k hk => hdata k (by omega)).last_bit
  rw [hdata 7 (by omega)] at hlast
  have hword : shiftRight (isrAfter b 7) (b.getLsbD 7) = rxWord b := isrAfter_eight b
  rw [hword] at hlast
  exact ⟨_, hlast⟩

/-- After a low stop bit the receiver is about to raise the interrupt. -/
lemma RxAt.stop_low (h : RxAt sample n 6 x 0 0 out irqs) (hs : sample n = false) :
    RxAt sample (n + 1) 7 x 0 0 out irqs := by
  have hjmp : issue jdRx jdRxConfig (sample n) (rxRun sample n) =
      { rxRun sample n with pc := 7, delay := 0, pin := true } := by
    simp [issue, jdRx, h.pc, Op.issue, Sm.sideSet, Sm.next, hs]
  simpa [h.x, h.isr, h.isrCount, h.pushed, h.raised] using h.instr hjmp

/-- The interrupt. -/
lemma RxAt.irq (h : RxAt sample n 7 x 0 0 out irqs) :
    RxAt sample (n + 1) 8 x 0 0 out (irqs ++ [1]) := by
  have hirq : issue jdRx jdRxConfig (sample n) (rxRun sample n) =
      { rxRun sample n with pc := 8, delay := 0, pin := false, raised := irqs ++ [1] } := by
    simp [issue, jdRx, h.pc, Op.issue, Sm.sideSet, Sm.next, h.raised]
  simpa [h.x, h.isr, h.isrCount, h.pushed] using h.instr hirq

/-- The receiver waits for the end of the break. -/
lemma RxAt.break_low (h : RxAt sample n 8 x 0 0 out irqs) (hs : sample n = false) :
    RxAt sample (n + 1) 8 x 0 0 out irqs := by
  have hwait : issue jdRx jdRxConfig (sample n) (rxRun sample n) = rxRun sample n := by
    simp [issue, jdRx, h.pc, Op.issue, Sm.sideSet, hs]
  simpa [h.pc, h.delay, h.x, h.isr, h.isrCount, h.pushed, h.raised] using h.instr hwait

/-- A high level ends it. -/
lemma RxAt.break_high (h : RxAt sample n 8 x 0 0 out irqs) (hs : sample n = true) :
    RxAt sample (n + 1) 9 x 0 0 out irqs := by
  have hwait : issue jdRx jdRxConfig (sample n) (rxRun sample n) =
      { rxRun sample n with pc := 9, delay := 0 } := by
    simp [issue, jdRx, h.pc, Op.issue, Sm.sideSet, Sm.next, hs]
  simpa [h.x, h.isr, h.isrCount, h.pushed, h.raised] using h.instr hwait

/-- From there the receiver goes to its `wait` for a start bit. -/
lemma RxAt.restart (h : RxAt sample n 9 x 0 0 out irqs) : RxIdle sample (n + 1) out irqs := by
  have hjmp : issue jdRx jdRxConfig (sample n) (rxRun sample n) =
      { rxRun sample n with pc := 0, delay := 0, pin := true } := by
    simp [issue, jdRx, h.pc, Op.issue, Sm.sideSet]
  exact ⟨x, by simpa [h.x, h.isr, h.isrCount, h.pushed, h.raised] using h.instr hjmp⟩

/-- Where the receiver is after the interrupt: in the break, or waiting on a line that stays
high. -/
def AfterBreak (sample : ℕ → Bool) (n : ℕ) (out : List (BitVec 32)) (irqs : List ℕ) : Prop :=
  (∃ x, RxAt sample n 8 x 0 0 out irqs) ∨
    ((∃ x, RxAt sample n 9 x 0 0 out irqs) ∨ RxIdle sample n out irqs) ∧
      ∀ k, n ≤ k → sample k = true

/-- If the line stays high once it is, one cycle after another changes nothing. -/
lemma AfterBreak.succ (h : AfterBreak sample n out irqs)
    (hs : sample n = true → ∀ k, n ≤ k → sample k = true) :
    AfterBreak sample (n + 1) out irqs := by
  rcases h with ⟨x, h⟩ | ⟨⟨x, h⟩ | h, hhigh⟩
  · cases hn : sample n with
    | false => exact .inl ⟨x, h.break_low hn⟩
    | true => exact .inr ⟨.inl ⟨x, h.break_high hn⟩, fun k hk => hs hn k (by omega)⟩
  · exact .inr ⟨.inr h.restart, fun k hk => hhigh k (by omega)⟩
  · exact .inr ⟨.inr (h.wait_high (hhigh n le_rfl)), fun k hk => hhigh k (by omega)⟩

/-- Nothing more is pushed and no more interrupt is raised. -/
lemma AfterBreak.logs (h : AfterBreak sample n out irqs) :
    (rxRun sample n).pushed = out ∧ (rxRun sample n).raised = irqs := by
  rcases h with ⟨x, h⟩ | ⟨⟨x, h⟩ | ⟨x, h⟩, -⟩ <;> exact ⟨h.pushed, h.raised⟩

/-- The reception ends in cycle `n`: there the only interrupt is raised, with the words `out`
pushed. -/
structure EndsAt (sample : ℕ → Bool) (n : ℕ) (out : List (BitVec 32)) : Prop where
  quiet : ∀ k ≤ n, (rxRun sample k).raised = []
  pushed : ∀ k, n ≤ k → (rxRun sample k).pushed = out
  raised : ∀ k, n < k → (rxRun sample k).raised = [1]

/-- The receiver about to raise the interrupt on a line that stays high once it is. -/
lemma RxAt.endsAt (h : RxAt sample n 7 x 0 0 out [])
    (hs : ∀ k, n < k → sample k = true → ∀ j, k ≤ j → sample j = true) :
    EndsAt sample n out := by
  have hafter : ∀ k, n + 1 ≤ k → AfterBreak sample k out [1] := by
    intro k hk
    induction k, hk using Nat.le_induction with
    | base => exact .inl ⟨x, h.irq⟩
    | succ k hk ih => exact ih.succ (hs k hk)
  refine ⟨?_, ?_, fun k hk => (hafter k hk).logs.2⟩
  · intro k hk
    obtain ⟨-, hraised⟩ := logsLe_run jdRx jdRxConfig (rxInput sample) smStart hk
    exact List.prefix_nil.mp (h.raised ▸ hraised)
  · intro k hk
    rcases hk.eq_or_lt with rfl | hlt
    · exact h.pushed
    · exact (hafter k hlt).logs.1

end

/-! ### The levels of the line -/

section

variable {line : ℕ → Bool} {r φ : ℚ} {c i L gap low : ℕ} {out : List (BitVec 32)} {irqs : List ℕ}
  {bs : List (BitVec 8)} {b : BitVec 8} {levels : List Bool}

/-- A waiting receiver on a line that is high up to cycle `c` is at its `wait` at the first sample
after that. -/
lemma RxIdle.reach_edge (hrx : RxIdle (samples line r φ) i out irqs) (hr : 0 < r)
    (hbefore : φ + r * i < c) (hhigh : ∀ t, φ + r * i ≤ t → t < c → lineAt line t = true) :
    ∃ m, RxIdle (samples line r φ) m out irqs ∧ (c : ℚ) ≤ φ + r * m ∧ φ + r * m < c + r := by
  obtain ⟨m, him, hle, hlt, hmin⟩ := exists_first_sample hr hbefore
  refine ⟨m, ?_, hle, hlt⟩
  refine hrx.wait_highs him fun k hik hkm => hhigh _ ?_ (hmin k hkm)
  gcongr

/-- The line from cycle `c` on: a start bit and the data bits of `b`. -/
structure CharFrom (line : ℕ → Bool) (c : ℕ) (b : BitVec 8) : Prop where
  start : ∀ k < 8, line (c + k) = false
  data : ∀ i < 8, ∀ k < 8, line (c + 8 + 8 * i + k) = b.getLsbD i

/-- A receiver that is at its `wait` when the start bit comes takes the byte. -/
lemma CharFrom.receive {m : ℕ} (h : CharFrom line c b)
    (hrx : RxIdle (samples line r φ) m out irqs) (hlo : 98 / 100 ≤ r) (hhi : r ≤ 102 / 100)
    (hle : (c : ℚ) ≤ φ + r * m) (hlt : φ + r * m < c + r) :
    ∃ x, RxAt (samples line r φ) (m + 75) 6 x 0 0 (out ++ [rxWord b]) irqs := by
  refine hrx.byte (lineAt_cell h.start hle (by push_cast; linarith)) ?_
  intro i hi
  have hi' : (i : ℚ) ≤ 7 := by exact_mod_cast (show i ≤ 7 by omega)
  have hri₁ : 98 / 100 * (i : ℚ) ≤ r * i := by gcongr
  have hri₂ : r * i ≤ 102 / 100 * (i : ℚ) := by gcongr
  refine lineAt_cell (w := 8) (h.data i hi) ?_ ?_ <;>
  · push_cast
    linarith

/-- What the receiver makes of the first `L` cycles, in which the line has carried some bytes: it
has seen nothing, or it is at the start bit of the last byte, with the others pushed. -/
inductive ReceivesUpTo (line : ℕ → Bool) (r φ : ℚ) (L : ℕ) : List (BitVec 8) → Prop
  | idle (high : ∀ k < L, line k = true) : ReceivesUpTo line r φ L []
  | last {bs : List (BitVec 8)} {b : BitVec 8} (c m : ℕ) (char : CharFrom line c b)
      (done : c + 72 ≤ L) (high : ∀ k, c + 72 ≤ k → k < L → line k = true)
      (rx : RxIdle (samples line r φ) m (bs.map rxWord) []) (after : (c : ℚ) ≤ φ + r * m)
      (near : φ + r * m < c + r) : ReceivesUpTo line r φ L (bs ++ [b])

/-- A line that was high and is high for `w` more cycles. -/
lemma high_add {a w : ℕ} (high : ∀ k, a ≤ k → k < L → line k = true)
    (hw : ∀ k < w, line (L + k) = true) : ∀ k, a ≤ k → k < L + w → line k = true := by
  intro k hak hk
  by_cases hkL : k < L
  · exact high k hak hkL
  · rw [← Nat.add_sub_cancel' (not_lt.mp hkL)]
    exact hw (k - L) (by omega)

/-- High levels change nothing. -/
lemma ReceivesUpTo.highs (h : ReceivesUpTo line r φ L bs) {w : ℕ}
    (hw : ∀ k < w, line (L + k) = true) : ReceivesUpTo line r φ (L + w) bs := by
  cases h with
  | idle high =>
    exact .idle fun k hk => high_add (a := 0) (fun k _ => high k) hw k (Nat.zero_le k) hk
  | last c m char done high rx after near =>
    exact .last c m char (by omega) (high_add high hw) rx after near

/-- The line is idle before the transmitter starts. -/
lemma lineAt_of_high_until {t : ℚ} (high : ∀ k < c, line k = true) (ht : t < c) :
    lineAt line t = true := by
  by_cases h₀ : t < 0
  · rw [lineAt, if_pos h₀]
  · exact lineAt_cell (c := 0) (fun k hk => by simpa using high k hk)
      (by simpa using h₀) (by simpa using ht)

/-- With eight high cycles in between, the receiver is at its `wait` when the line falls. -/
lemma ReceivesUpTo.reach_edge (h : ReceivesUpTo line r φ L bs) (hlo : 98 / 100 ≤ r)
    (hhi : r ≤ 102 / 100) (hidle : ∀ t ≤ φ, lineAt line t = true)
    (hstop : ∀ k < 8, line (L + k) = true) (hlow : line (L + 8) = false) :
    ∃ m, RxIdle (samples line r φ) m (bs.map rxWord) [] ∧ ((L + 8 : ℕ) : ℚ) ≤ φ + r * m ∧
      φ + r * m < (L + 8 : ℕ) + r := by
  have hr : 0 < r := by linarith
  cases h with
  | idle high =>
    have hstart : RxIdle (samples line r φ) 0 [] [] := ⟨0, rfl, rfl, rfl, rfl, rfl, rfl, rfl⟩
    have high' : ∀ k < L + 8, line k = true := fun k hk =>
      high_add (a := 0) (fun k _ => high k) hstop k (Nat.zero_le k) hk
    -- The line was idle until `φ`, so `φ` is before the edge.
    have hφ : φ < (L + 8 : ℕ) := by
      by_contra hle
      have := hidle _ (not_lt.mp hle)
      rw [lineAt_cell (c := L + 8) (w := 1) (v := false)
        (fun k hk => by simpa [Nat.lt_one_iff.mp hk] using hlow) le_rfl (by simp)] at this
      exact Bool.false_ne_true this
    exact hstart.reach_edge hr (by simpa using hφ) fun t _ ht => lineAt_of_high_until high' ht
  | last c m char done high rx after near =>
    obtain ⟨x, hat⟩ := char.receive rx hlo hhi after near
    have hcL : (c : ℚ) + 72 ≤ L := by exact_mod_cast done
    have hend : ∀ t, (c : ℚ) + 72 ≤ t → t < (L + 8 : ℕ) → lineAt line t = true := by
      intro t ht₁ ht₂
      refine lineAt_cell (c := c + 72) (w := L + 8 - (c + 72))
        (fun k hk => high_add high hstop _ (by omega) (by omega)) (by push_cast; exact ht₁) ?_
      rw [← Nat.cast_add, show c + 72 + (L + 8 - (c + 72)) = L + 8 by omega]
      exact ht₂
    have hwait := hat.stop_high (hend _ (by push_cast; linarith) (by push_cast; linarith))
    rw [List.map_append, List.map_singleton]
    refine hwait.reach_edge hr (by push_cast; linarith) fun t ht₁ ht₂ => hend t ?_ ht₂
    push_cast at ht₁
    linarith

lemma getD_charWave {k : ℕ} (hk : k < 80) : (charWave b 80).getD k true = charLevel b k := by
  simp [charWave, List.getD_eq_getElem?_getD, hk]

/-- The cycles of a character after the high ones. -/
lemma charFrom_of_charLevel (h : ∀ k < 80, line (L + k) = charLevel b k) :
    CharFrom line (L + 8) b := by
  constructor
  · intro k hk
    rw [Nat.add_assoc, h _ (by omega)]
    have h8 : ¬8 + k < 8 := by omega
    have h16 : 8 + k < 16 := by omega
    simp [charLevel, h8, h16]
  · intro i hi k hk
    rw [show L + 8 + 8 + 8 * i + k = L + (16 + 8 * i + k) by omega, h _ (by omega),
      charLevel_of_bit (i := i) (by omega) (by omega)]

/-- **The bytes of a frame.**  The receiver follows the levels that the transmitter puts on the
line. -/
lemma SerialLevels.follows (h : SerialLevels bs levels) (hlo : 98 / 100 ≤ r) (hhi : r ≤ 102 / 100)
    (hidle : ∀ t ≤ φ, lineAt line t = true)
    (hline : ∀ k < levels.length, line k = levels.getD k true) :
    ReceivesUpTo line r φ levels.length bs := by
  induction h with
  | nil => exact .idle fun k hk => absurd hk (Nat.not_lt_zero k)
  | idle _ ih =>
    rename_i bs levels _
    rw [List.length_append] at hline ⊢
    refine ReceivesUpTo.highs (ih fun k hk => ?_) fun k hk => ?_
    · rw [hline k (by omega), List.getD_append _ _ _ _ hk]
    · obtain rfl : k = 0 := by simpa using hk
      rw [hline _ (by simp), List.getD_append_right _ _ _ _ (by omega)]
      simp
  | char _ b ih =>
    rename_i bs levels _
    have hlen : (charWave b 80).length = 80 := by simp [charWave]
    rw [List.length_append, hlen] at hline ⊢
    have hprev := ih fun k hk => by rw [hline k (by omega), List.getD_append _ _ _ _ hk]
    have hchar : ∀ k < 80, line (levels.length + k) = charLevel b k := fun k hk => by
      rw [hline _ (by omega), List.getD_append_right _ _ _ _ (by omega), Nat.add_sub_cancel_left,
        getD_charWave hk]
    have hstop : ∀ k < 8, line (levels.length + k) = true := fun k hk => by
      simp [hchar k (by omega), charLevel, hk]
    obtain ⟨m, hrx, hafter, hnear⟩ := hprev.reach_edge hlo hhi hidle hstop
      (by simp [hchar 8 (by omega), charLevel])
    exact .last (levels.length + 8) m (charFrom_of_charLevel hchar) (by omega)
      (fun k _ _ => by omega) hrx hafter hnear

/-! ### The closing break -/

/-- The line from cycle `e` on: low for `low` cycles, then high. -/
structure BreakFrom (line : ℕ → Bool) (e low : ℕ) : Prop where
  falls : ∀ k < low, line (e + k) = false
  rises : ∀ k, e + low ≤ k → line k = true

variable {e n : ℕ} {t : ℚ}

lemma BreakFrom.lineAt_low (h : BreakFrom line e low) (hlow : 80 ≤ low) (h₁ : (e : ℚ) ≤ t)
    (h₂ : t < e + 80) : lineAt line t = false := by
  have : (80 : ℚ) ≤ low := by exact_mod_cast hlow
  exact lineAt_cell h.falls h₁ (by linarith)

/-- Once the break has begun, a high sample is followed by high samples only. -/
lemma BreakFrom.stays_high (h : BreakFrom line e low) (hr : 0 < r) (hn : (e : ℚ) ≤ φ + r * n)
    (k : ℕ) (hk : n < k) (hs : samples line r φ k = true) :
    ∀ j, k ≤ j → samples line r φ j = true := by
  have hkn : φ + r * n ≤ φ + r * k := by gcongr
  have hend : (e + low : ℕ) ≤ φ + r * k := by
    by_contra hlt
    have := lineAt_cell (t := φ + r * k) h.falls (hn.trans hkn) (by push_cast at hlt; linarith)
    rw [samples, this] at hs
    exact Bool.false_ne_true hs
  intro j hj
  have hkj : φ + r * k ≤ φ + r * j := by gcongr
  exact lineAt_of_high h.rises (hend.trans hkj)

/-- A receiver that waits for a start bit takes the break for a zero byte and raises the
interrupt. -/
lemma BreakFrom.receive {m : ℕ} (h : BreakFrom line e low) (hlow : 80 ≤ low)
    (hlo : 98 / 100 ≤ r) (hhi : r ≤ 102 / 100) (hrx : RxIdle (samples line r φ) m out [])
    (hle : (e : ℚ) ≤ φ + r * m) (hlt : φ + r * m < e + 2 * r) :
    ∃ n, EndsAt (samples line r φ) n (out ++ [rxWord 0]) := by
  have hr : 0 < r := by linarith
  have hsample : ∀ k ≤ 75, samples line r φ (m + k) = false := by
    intro k hk
    have hk' : (k : ℚ) ≤ 75 := by exact_mod_cast hk
    have hrk : r * (k : ℚ) ≤ 102 / 100 * 75 := by gcongr
    have hrk₀ : 0 ≤ r * (k : ℚ) := by positivity
    refine h.lineAt_low hlow ?_ ?_ <;>
    · push_cast
      linarith
  obtain ⟨x, hat⟩ := hrx.byte (b := 0) (hsample 0 (by omega)) fun i hi => by
    rw [Nat.add_assoc, hsample _ (by omega)]
    simp
  refine ⟨m + 75 + 1, (hat.stop_low (hsample 75 le_rfl)).endsAt (h.stays_high hr ?_)⟩
  push_cast
  linarith

/-- **The break.**  It ends the reception, with all bytes pushed and perhaps one more, a zero. -/
lemma ReceivesUpTo.break (h : ReceivesUpTo line r φ e bs) (hbreak : BreakFrom line e low)
    (hlow : 80 ≤ low) (hlo : 98 / 100 ≤ r) (hhi : r ≤ 102 / 100)
    (hidle : ∀ t ≤ φ, lineAt line t = true) :
    ∃ n, EndsAt (samples line r φ) n (bs.map rxWord) ∨
      EndsAt (samples line r φ) n (bs.map rxWord ++ [rxWord 0]) := by
  have hr : 0 < r := by linarith
  cases h with
  | idle high =>
    have hstart : RxIdle (samples line r φ) 0 [] [] := ⟨0, rfl, rfl, rfl, rfl, rfl, rfl, rfl⟩
    have hφ : φ < e := by
      by_contra hle
      have := hidle _ (not_lt.mp hle)
      rw [hbreak.lineAt_low hlow le_rfl (by linarith)] at this
      exact Bool.false_ne_true this
    obtain ⟨m, hrx, hle, hlt⟩ := hstart.reach_edge hr (by simpa using hφ)
      fun t _ ht => lineAt_of_high_until high ht
    obtain ⟨n, hn⟩ := hbreak.receive hlow hlo hhi hrx hle (by linarith)
    exact ⟨n, .inr hn⟩
  | last c m char done high rx after near =>
    rename_i bs b
    obtain ⟨x, hat⟩ := char.receive rx hlo hhi after near
    have hce : (c : ℚ) + 72 ≤ e := by exact_mod_cast done
    have hhigh : ∀ t, (c : ℚ) + 72 ≤ t → t < e → lineAt line t = true := by
      intro t ht₁ ht₂
      refine lineAt_cell (c := c + 72) (w := e - (c + 72))
        (fun k hk => high _ (by omega) (by omega)) (by push_cast; exact ht₁) ?_
      rw [← Nat.cast_add, Nat.add_sub_cancel' done]
      exact ht₂
    rw [List.map_append, List.map_singleton]
    -- The level of the line where the stop bit of the last byte is looked for.
    cases hs : samples line r φ (m + 75) with
    | false =>
      have hbegun : (e : ℚ) ≤ φ + r * (m + 75 : ℕ) := by
        by_contra hlt
        have := hhigh _ (by push_cast; linarith) (not_le.mp hlt)
        rw [samples, this] at hs
        exact Bool.false_ne_true hs.symm
      refine ⟨m + 75 + 1, .inl ((hat.stop_low hs).endsAt (hbreak.stays_high hr ?_))⟩
      push_cast at hbegun ⊢
      linarith
    | true =>
      have hbefore : φ + r * (m + 75 : ℕ) < e := by
        by_contra hle
        have := hbreak.lineAt_low hlow (not_lt.mp hle) (by push_cast; linarith)
        rw [samples, this] at hs
        exact Bool.false_ne_true hs
      have hwait := hat.stop_high hs
      push_cast at hbefore
      by_cases hedge : φ + r * (m + 75 + 2 : ℕ) < e
      · obtain ⟨m', hrx, hle, hlt⟩ := hwait.reach_edge hr hedge fun t ht₁ ht₂ =>
          hhigh t (by push_cast at ht₁; linarith) ht₂
        obtain ⟨n, hn⟩ := hbreak.receive hlow hlo hhi hrx hle (by linarith)
        exact ⟨n, .inr hn⟩
      · obtain ⟨n, hn⟩ := hbreak.receive hlow hlo hhi hwait (not_lt.mp hedge)
          (by push_cast; linarith)
        exact ⟨n, .inr hn⟩

end

/-! ### The buffer -/

/-- The receiver with its DMA channel after `n` cycles of its first reception, into a buffer of
`len` bytes. -/
def rxUnitRun (len : ℕ) (sample : ℕ → Bool) : ℕ → RxUnit
  | 0 => RxUnit.initial.uartStartRx len
  | n + 1 => (rxUnitRun len sample n).cycle (sample n)

/-- The reception has ended: there was an interrupt of the receiver or the buffer is full. -/
def RxUnit.Ended (u : RxUnit) : Prop := u.sm.raised ≠ [] ∨ u.count = 0

instance RxUnit.decidableEnded (u : RxUnit) : Decidable u.Ended :=
  inferInstanceAs (Decidable (u.sm.raised ≠ [] ∨ u.count = 0))

/-- The receiver is in the state `s`, and the channel has stored what fits into the buffer. -/
structure RxUnit.Tracks (len : ℕ) (s : Sm) (u : RxUnit) : Prop where
  sm : u.sm = s
  enabled : u.enabled = true
  read : u.read = min len s.pushed.length
  count : u.count = len - u.read
  stored : u.stored = (s.pushed.take len).map dmaByte

/-- The channel catches up with the receiver. -/
lemma RxUnit.Tracks.drain {len : ℕ} {s s' : Sm} {u : RxUnit} (h : u.Tracks len s)
    (hgrow : s.pushed <+: s'.pushed) : RxUnit.Tracks len s' (RxUnit.drain { u with sm := s' }) := by
  have hle := hgrow.length_le
  have hread := h.read
  have hcount := h.count
  have htake : ((s'.pushed.drop u.read).take u.count).length =
      min len s'.pushed.length - u.read := by
    rw [List.length_take, List.length_drop]
    omega
  refine ⟨rfl, h.enabled, ?_, ?_, ?_⟩
  · simp only [RxUnit.drain, RxUnit.fifo, htake]
    omega
  · simp only [RxUnit.drain, RxUnit.fifo, htake]
    omega
  · have hold : s.pushed.take len = s'.pushed.take u.read := by
      rw [hread, ← List.take_take, ← List.prefix_iff_eq_take.mp hgrow]
    simp only [RxUnit.drain, RxUnit.fifo]
    rw [h.stored, hold, ← List.map_append, ← List.take_add,
      show u.read + u.count = len by omega]

/-- A cycle, if the FIFO has room for what the receiver pushes. -/
lemma RxUnit.Tracks.cycle {len : ℕ} {s : Sm} {u : RxUnit} (h : u.Tracks len s) (level : Bool)
    (hroom : (rxCycle level s).pushed.length ≤ len + rxFifoSize) :
    RxUnit.Tracks len (rxCycle level s) (u.cycle level) := by
  have hpushed := pushed_rxCycle level u
  rw [h.sm] at hpushed
  have hgoes : ¬(u.enabled = false ∨ u.completes ∧ rxFifoSize ≤ u.fifo.length) := by
    rintro (henabled | ⟨hcomp, hfull⟩)
    · simp [h.enabled] at henabled
    · rw [hpushed, if_pos hcomp, List.length_append, List.length_singleton] at hroom
      rw [RxUnit.fifo, List.length_drop, h.sm] at hfull
      have hread := h.read
      simp only [rxFifoSize] at hroom hfull
      omega
  rw [RxUnit.cycle, if_neg hgoes, h.sm]
  exact h.drain (hpushed ▸ List.prefix_append _ _)

/-- As long as the words fit into the buffer and the FIFO, the receiver is never held up. -/
lemma rxUnitRun_tracks {len n : ℕ} {sample : ℕ → Bool}
    (hroom : (rxRun sample n).pushed.length ≤ len + rxFifoSize) :
    RxUnit.Tracks len (rxRun sample n) (rxUnitRun len sample n) := by
  induction n with
  | zero =>
    refine ⟨rfl, rfl, ?_, ?_, ?_⟩ <;>
      simp [rxUnitRun, RxUnit.uartStartRx, RxUnit.drain, RxUnit.fifo, RxUnit.initial, rxRun, run,
        smStart]
  | succ n ih =>
    have hgrow := (logsLe_run jdRx jdRxConfig (rxInput sample) smStart (Nat.le_succ n)).1
    exact (ih (hgrow.length_le.trans hroom)).cycle (sample n) hroom

/-! ### Frames -/

variable {levels : List Bool} {gap low : ℕ} {r φ : ℚ}

lemma closingLine_of_lt {k : ℕ} (hk : k < levels.length) :
    closingLine levels gap low k = levels.getD k true := if_pos hk

lemma closingLine_gap {k : ℕ} (hk : k < gap) :
    closingLine levels gap low (levels.length + k) = true := by
  simp [closingLine, hk]

lemma closingLine_break (levels : List Bool) (gap low : ℕ) :
    BreakFrom (closingLine levels gap low) (levels.length + gap) low := by
  constructor
  · intro k hk
    have h₁ : ¬levels.length + gap + k < levels.length := by omega
    simp [closingLine, h₁, hk]
  · intro k hk
    have h₁ : ¬k < levels.length := by omega
    simp [closingLine, h₁, hk]

/-- What the driver has put on the line ends a reception, with the bytes of the frame pushed. -/
lemma TxUnit.Inv.endsAt {u : TxUnit} (h : u.Inv) (hexit : u.pc = .exited) (hlow : 80 ≤ low)
    (hlo : 98 / 100 ≤ r) (hhi : r ≤ 102 / 100)
    (hidle : ∀ t ≤ φ, lineAt (closingLine u.levels gap low) t = true) :
    ∃ n, EndsAt (samples (closingLine u.levels gap low) r φ) n (u.frame.map rxWord) ∨
      EndsAt (samples (closingLine u.levels gap low) r φ) n (u.frame.map rxWord ++ [rxWord 0]) := by
  have hlevels := h.progress.serialLevels (h.stalled (.inr hexit)).1 (h.handler (.inr hexit))
  have hfollows := hlevels.follows hlo hhi hidle fun k hk => closingLine_of_lt hk
  exact (hfollows.highs fun k hk => closingLine_gap hk).break
    (closingLine_break u.levels gap low) hlow hlo hhi hidle

/-- A reception that is ended by the receiver, with a few words at most that do not fit, stores the
words up to there. -/
lemma EndsAt.stored {sample : ℕ → Bool} {n len : ℕ} {out : List (BitVec 32)}
    (h : EndsAt sample n out) (hroom : out.length ≤ len + rxFifoSize) :
    ∃ k, (∀ j < k, ¬(rxUnitRun len sample j).Ended) ∧ (rxUnitRun len sample k).Ended ∧
      (rxUnitRun len sample k).stored = (out.take len).map dmaByte := by
  have hgrow : ∀ k ≤ n + 1, (rxRun sample k).pushed <+: out := fun k hk =>
    h.pushed (n + 1) (Nat.le_succ n) ▸
      (logsLe_run jdRx jdRxConfig (rxInput sample) smStart hk).1
  have htracks : ∀ k ≤ n + 1, RxUnit.Tracks len (rxRun sample k) (rxUnitRun len sample k) :=
    fun k hk => rxUnitRun_tracks ((hgrow k hk).length_le.trans hroom)
  have hirq : (rxUnitRun len sample (n + 1)).Ended := by
    left
    rw [(htracks _ le_rfl).sm, h.raised _ (Nat.lt_succ_self n)]
    exact List.cons_ne_nil _ _
  have hended : ∃ k, (rxUnitRun len sample k).Ended := ⟨n + 1, hirq⟩
  have hfirst : Nat.find hended ≤ n + 1 := Nat.find_min' hended hirq
  refine ⟨Nat.find hended, fun j hj => Nat.find_min hended hj, Nat.find_spec hended, ?_⟩
  have hspec := Nat.find_spec hended
  generalize Nat.find hended = k at hfirst hspec
  have hk := htracks k hfirst
  rw [hk.stored]
  congr 1
  rcases hspec with hraised | hfull
  · -- The interrupt comes after all words.
    have hn : n < k := by
      by_contra hle
      rw [hk.sm] at hraised
      exact hraised (h.quiet k (not_lt.mp hle))
    rw [h.pushed k hn.le]
  · -- The words so far fill the buffer.
    have hlen : len ≤ (rxRun sample k).pushed.length := by
      have := hk.read
      have := hk.count
      omega
    rw [List.prefix_iff_eq_take.mp (hgrow k hfirst), List.take_take, Nat.min_eq_left hlen]

/-- **Delivery.**  For every run of the driver of the sender, with any frame and any pace of its
DMA, any length of the high phase before the break, a break of at least ten bits, every clock ratio
within two percent and every phase at which the line has been idle so far: a reception into a buffer
that has room for the frame ends, and what it has stored is the frame, possibly with one zero after
it. -/
theorem frame_received (acts : List TxAct) (u : TxUnit)
    (hrun : exec TxUnit.step .initial acts = some u) (hexit : u.pc = .exited) (gap low : ℕ)
    (hlow : 80 ≤ low) (r φ : ℚ) (hlo : 98 / 100 ≤ r) (hhi : r ≤ 102 / 100)
    (hidle : ∀ t ≤ φ, lineAt (closingLine u.levels gap low) t = true) (len : ℕ)
    (hlen : u.frame.length ≤ len) :
    ∃ n, (∀ k < n, ¬(rxUnitRun len (samples (closingLine u.levels gap low) r φ) k).Ended) ∧
      (rxUnitRun len (samples (closingLine u.levels gap low) r φ) n).Ended ∧
      ((rxUnitRun len (samples (closingLine u.levels gap low) r φ) n).stored = u.frame ∨
        (rxUnitRun len (samples (closingLine u.levels gap low) r φ) n).stored =
          u.frame ++ [0]) := by
  have h : u.Inv := exec_inv (fun _ _ _ h hst => h.step hst) TxUnit.inv_initial hrun
  have hbytes : ∀ bs : List (BitVec 8), (bs.map rxWord).map dmaByte = bs := fun bs => by
    simp [Function.comp_def]
  obtain ⟨n, hn | hn⟩ := h.endsAt hexit hlow hlo hhi hidle
  · have hroom : (u.frame.map rxWord).length ≤ len + rxFifoSize := by
      rw [List.length_map]
      omega
    obtain ⟨k, hbefore, hended, hstored⟩ := hn.stored hroom
    refine ⟨k, hbefore, hended, .inl ?_⟩
    rw [hstored, List.take_of_length_le (by simpa using hlen), hbytes]
  · have hroom : (u.frame.map rxWord ++ [rxWord 0]).length ≤ len + rxFifoSize := by
      simp [rxFifoSize]
      omega
    obtain ⟨k, hbefore, hended, hstored⟩ := hn.stored hroom
    refine ⟨k, hbefore, hended, ?_⟩
    rcases hlen.eq_or_lt with heq | hlt
    · left
      rw [hstored, List.take_append_of_le_length (by simp [heq]),
        List.take_of_length_le (by simp [heq]), hbytes]
    · right
      rw [hstored, List.take_of_length_le (by simp; omega), List.map_append, hbytes]
      rfl

/-- Two bytes, the second one late, with a receiver two percent slow and a high phase that is too
short for a stop bit. -/
theorem frame_received_two_bytes :
    ∃ u, exec TxUnit.step .initial slowFrame = some u ∧ u.frame = [0x5a, 0x01] ∧
      ∃ n, (rxUnitRun 252 (samples (closingLine u.levels 3 88) (102 / 100) 0) n).Ended ∧
        ((rxUnitRun 252 (samples (closingLine u.levels 3 88) (102 / 100) 0) n).stored =
            [0x5a, 0x01] ∨
          (rxUnitRun 252 (samples (closingLine u.levels 3 88) (102 / 100) 0) n).stored =
            [0x5a, 0x01, 0]) := by
  have hrun : (exec TxUnit.step .initial slowFrame).map (fun u => (u.pc, u.frame, u.levels.head?)) =
      some (.exited, [0x5a, 0x01], some true) := by decide +kernel
  obtain ⟨u, hu, heq⟩ := Option.map_eq_some_iff.mp hrun
  simp only [Prod.mk.injEq] at heq
  obtain ⟨hpc, hframe, hhead⟩ := heq
  have hidle : ∀ t ≤ (0 : ℚ), lineAt (closingLine u.levels 3 88) t = true := by
    intro t ht
    rcases ht.lt_or_eq with hneg | rfl
    · rw [lineAt, if_pos hneg]
    · obtain ⟨levels, hlevels⟩ := List.head?_eq_some_iff.mp hhead
      simp [lineAt, closingLine, hlevels]
  obtain ⟨n, -, hended, hstored⟩ := frame_received slowFrame u hu hpc 3 88 (by omega) (102 / 100) 0
    (by norm_num) le_rfl hidle 252 (by simp [hframe])
  rw [hframe] at hstored
  exact ⟨u, hu, hframe, n, hended, hstored⟩

end JdPico
