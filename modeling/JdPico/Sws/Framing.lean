import JdPico.Sws.Resume

/-!
# Characters without a stop bit

The program of the receiver is made to deliver a character only if a stop bit follows, and to raise
an interrupt otherwise; this is how it finds the break at the end of a frame.  The interrupt is
raised as it should be.  But the state machine is configured to push by itself after eight bits, and
so every character is delivered, before its stop bit is looked at: a break arrives as a character
too.

The characters on the line are those a receiver with this timing sees (`CharAt`): a low level while
it waits is a start bit, the data bits are sampled 11, 19, … and 67 cycles later and the stop bit
75 cycles later.
-/

namespace JdPico

open Pio

/-! ### Characters on the line -/

/-- How far the receiver is before cycle `n`. -/
def rxPhase (sample : ℕ → Bool) : ℕ → RxPhase
  | 0 => .idle
  | n + 1 => (rxPhase sample n).next (sample n)

/-- A character starts in cycle `c`. -/
def CharAt (sample : ℕ → Bool) (c : ℕ) : Prop := rxPhase sample c = .idle ∧ sample c = false

instance (sample : ℕ → Bool) (c : ℕ) : Decidable (CharAt sample c) :=
  inferInstanceAs (Decidable (rxPhase sample c = .idle ∧ sample c = false))

/-- The data bits of the character that starts in cycle `c`. -/
def charByte (sample : ℕ → Bool) (c : ℕ) : BitVec 8 :=
  .ofBoolListLE [sample (c + 11), sample (c + 19), sample (c + 27), sample (c + 35),
    sample (c + 43), sample (c + 51), sample (c + 59), sample (c + 67)]

/-- The sample of its stop bit. -/
def stopBit (sample : ℕ → Bool) (c : ℕ) : Bool := sample (c + 75)

/-- The characters that start before cycle `n`, given by the cycles in which they start. -/
def charsBefore (sample : ℕ → Bool) (n : ℕ) : List ℕ :=
  (List.range n).filter fun c => CharAt sample c

/-- What a receiver should have done after `n` cycles.  A character counts from its last data bit
on, and as a framing error from the cycle after its stop bit on. -/
structure Framed (sample : ℕ → Bool) (n : ℕ) : Prop where
  /-- The characters with a stop bit are pushed, and nothing else. -/
  pushed : (rxRun sample n).pushed =
    ((charsBefore sample (n - 67)).filter fun c => stopBit sample c).map fun c =>
      rxWord (charByte sample c)
  /-- Each of the others raises the interrupt once. -/
  raised : (rxRun sample n).raised =
    ((charsBefore sample (n - 76)).filter fun c => !stopBit sample c).map fun _ => 1

variable {sample : ℕ → Bool} {n c k : ℕ}

lemma getLsbD_charByte {i : ℕ} (hi : i < 8) :
    (charByte sample c).getLsbD i = sample (c + 11 + 8 * i) := by
  rw [charByte, BitVec.getLsbD_ofBoolListLE]
  interval_cases i <;> rfl

lemma charsBefore_succ (sample : ℕ → Bool) (n : ℕ) :
    charsBefore sample (n + 1) = charsBefore sample n ++ if CharAt sample n then [n] else [] := by
  rw [charsBefore, List.range_succ, List.filter_append, ← charsBefore]
  by_cases hchar : CharAt sample n <;> simp [hchar]

/-! ### Phases -/

/-- The cycles of a character. -/
lemma rxPhase_of_charAt (h : CharAt sample c) (hk : k < 75) :
    rxPhase sample (c + 1 + k) = .char (k + 1) := by
  induction k with
  | zero => simp [rxPhase, h.1, h.2, RxPhase.next]
  | succ k ih =>
    have hne : k + 1 ≠ 75 := by omega
    rw [← Nat.add_assoc, rxPhase, ih (by omega), RxPhase.next, if_neg hne]

/-- The receiver is in a character that has started. -/
lemma charAt_of_rxPhase (h : rxPhase sample n = .char k) :
    1 ≤ k ∧ k ≤ 75 ∧ ∃ c, n = c + k ∧ CharAt sample c := by
  induction n generalizing k with
  | zero => exact absurd h (by simp [rxPhase])
  | succ n ih =>
    rw [rxPhase] at h
    cases hph : rxPhase sample n with
    | idle =>
      rw [hph, RxPhase.next] at h
      split_ifs at h with hline
      obtain rfl := RxPhase.char.inj h
      exact ⟨le_rfl, by omega, n, rfl, hph, Bool.eq_false_iff.mpr hline⟩
    | char j =>
      obtain ⟨hj, hj', c, rfl, hc⟩ := ih hph
      rw [hph, RxPhase.next] at h
      split_ifs at h with hlast hline
      obtain rfl := RxPhase.char.inj h
      exact ⟨by omega, by omega, c, by omega, hc⟩
    | broken =>
      rw [hph, RxPhase.next] at h
      split_ifs at h
    | good | bad | recover =>
      rw [hph] at h
      cases h

/-- The receiver finds no stop bit at the end of a character that has none. -/
lemma rxPhase_eq_bad_iff :
    rxPhase sample n = .bad ↔ ∃ c, n = c + 76 ∧ CharAt sample c ∧ stopBit sample c = false := by
  constructor
  · intro h
    cases n with
    | zero => exact absurd h (by simp [rxPhase])
    | succ n =>
      rw [rxPhase] at h
      cases hph : rxPhase sample n with
      | char j =>
        obtain ⟨-, -, c, rfl, hc⟩ := charAt_of_rxPhase hph
        rw [hph, RxPhase.next] at h
        split_ifs at h with hlast hline
        exact ⟨c, by omega, hc, by subst hlast; exact Bool.eq_false_iff.mpr hline⟩
      | idle | broken =>
        rw [hph, RxPhase.next] at h
        split_ifs at h
      | good | bad | recover =>
        rw [hph] at h
        cases h
  · rintro ⟨c, rfl, hc, hstop⟩
    have hlast : rxPhase sample (c + 75) = .char 75 := by
      rw [show c + 75 = c + 1 + 74 by omega]
      exact rxPhase_of_charAt hc (by omega)
    rw [stopBit] at hstop
    rw [rxPhase, hlast, RxPhase.next, hstop]
    rfl

/-! ### The receiver -/

lemma rxRun_succ (sample : ℕ → Bool) (n : ℕ) :
    rxRun sample (n + 1) = rxCycle (sample n) (rxRun sample n) := rfl

/-- The receiver is where the line tells. -/
lemma rxPhase_at (sample : ℕ → Bool) (n : ℕ) :
    (rxPhase sample n).At (rxCtl (rxRun sample n)) := by
  induction n with
  | zero => exact ⟨rfl, rfl, rfl⟩
  | succ n ih =>
    rw [rxRun_succ, rxCtl_rxCycle]
    exact ih.next (sample n)

/-- The shift register is empty when it holds no bits. -/
lemma isr_rxRun (sample : ℕ → Bool) (n : ℕ) :
    (rxRun sample n).isrCount = 0 → (rxRun sample n).isr = 0 := by
  induction n with
  | zero => exact fun _ => rfl
  | succ n ih => exact isr_rxCycle ih

/-- In a character, the next cycle shifts in a bit only when it is due. -/
lemma charCtl_in : ∀ k < 76, 2 ≤ k → (charCtl k).delay = 0 → (charCtl k).pc = 3 →
    k = 11 + 8 * (charCtl k).isrCount ∧ (charCtl k).isrCount < 8 := by
  decide +kernel

/-- The bits of a character are sampled every eight cycles, from 11 cycles after its start on. -/
lemma RxPhase.At.in_due {s : Sm} (h : (RxPhase.char k).At (rxCtl s)) (hd : s.delay = 0)
    (hpc : s.pc = 3) : k = 11 + 8 * s.isrCount ∧ s.isrCount < 8 := by
  rcases h.char_cases with ⟨-, h1⟩ | ⟨hlow, hhigh, hc⟩
  · have h1 : s.pc = 1 := h1
    omega
  · have hin := charCtl_in k (by omega) hlow
    rw [← hc] at hin
    exact hin hd hpc

/-- In the middle of a character the shift register holds the bits sampled so far. -/
lemma isr_of_charAt (h : CharAt sample c) (hk : k < 75) :
    (rxRun sample (c + 1 + k)).isr =
      isrAfter (charByte sample c) (rxRun sample (c + 1 + k)).isrCount := by
  induction k with
  | zero =>
    have hat := rxPhase_at sample (c + 1)
    rw [show rxPhase sample (c + 1) = .char 1 from rxPhase_of_charAt h hk] at hat
    have hcount : (rxRun sample (c + 1)).isrCount = 0 := hat.2.2
    rw [hcount, isr_rxRun _ _ hcount]
    rfl
  | succ k ih =>
    have hold := ih (by omega)
    have hat := rxPhase_at sample (c + 1 + k)
    rw [rxPhase_of_charAt h (by omega)] at hat
    rw [← Nat.add_assoc, rxRun_succ]
    by_cases hin : (rxRun sample (c + 1 + k)).delay = 0 ∧ (rxRun sample (c + 1 + k)).pc = 3
    · obtain ⟨hisr, hcount, -⟩ := rxCycle_in (sample (c + 1 + k)) hin.1 hin.2
      obtain ⟨hdue, hlt⟩ := hat.in_due hin.1 hin.2
      rw [hisr, hcount]
      split_ifs with hfull
      · rfl
      · rw [isrAfter, ← hold, getLsbD_charByte hlt]
        congr 2
        omega
    · obtain ⟨hisr, hcount, -⟩ := rxCycle_other (sample (c + 1 + k)) hin
      rw [hisr, hcount, hold]

/-- What the `in` of the last data bit pushes. -/
lemma pushed_rxRun_succ (sample : ℕ → Bool) (n : ℕ) :
    (rxRun sample (n + 1)).pushed = (rxRun sample n).pushed ++
      if rxPhase sample n = .char 67 then [shiftRight (rxRun sample n).isr (sample n)] else [] := by
  let u : RxUnit := { RxUnit.initial with sm := rxRun sample n }
  have hcomp : u.completes ↔ rxPhase sample n = .char 67 :=
    RxPhase.At.completes_iff (rxPhase_at sample n)
  rw [rxRun_succ, ← if_congr hcomp rfl rfl]
  exact pushed_rxCycle (sample n) u

/-- The register with the last data bit is the word of the character. -/
lemma shiftRight_last (h : CharAt sample c) (hn : n = c + 67) :
    shiftRight (rxRun sample n).isr (sample n) = rxWord (charByte sample c) := by
  have hph := rxPhase_of_charAt h (show 66 < 75 by omega)
  rw [show c + 1 + 66 = n by omega] at hph
  have hat := rxPhase_at sample n
  rw [hph] at hat
  obtain ⟨-, -, hc⟩ : 2 ≤ 67 ∧ 67 ≤ 75 ∧ rxCtl (rxRun sample n) = charCtl 67 := hat
  have hcount : (rxRun sample n).isrCount = 7 := congrArg RxCtl.isrCount hc
  have hisr := isr_of_charAt h (show 66 < 75 by omega)
  rw [show c + 1 + 66 = n by omega, hcount] at hisr
  have hbit : sample n = (charByte sample c).getLsbD 7 := by
    rw [getLsbD_charByte (by omega), hn]
  rw [hisr, hbit]
  exact isrAfter_eight _

/-- Every character is pushed with its last data bit. -/
lemma pushed_rxRun (sample : ℕ → Bool) (n : ℕ) :
    (rxRun sample n).pushed =
      (charsBefore sample (n - 67)).map fun c => rxWord (charByte sample c) := by
  induction n with
  | zero => rfl
  | succ n ih =>
    rw [pushed_rxRun_succ, ih]
    by_cases hn : 67 ≤ n
    · obtain ⟨c, rfl⟩ : ∃ c, n = c + 67 := ⟨n - 67, by omega⟩
      rw [show c + 67 + 1 - 67 = c + 1 by omega, show c + 67 - 67 = c by omega, charsBefore_succ,
        List.map_append]
      by_cases hc : CharAt sample c
      · have hph : rxPhase sample (c + 67) = .char 67 := by
          rw [show c + 67 = c + 1 + 66 by omega]
          exact rxPhase_of_charAt hc (by omega)
        rw [if_pos hph, if_pos hc, shiftRight_last hc rfl, List.map_singleton]
      · have hph : rxPhase sample (c + 67) ≠ .char 67 := by
          intro hph
          obtain ⟨-, -, c', heq, hc'⟩ := charAt_of_rxPhase hph
          obtain rfl : c = c' := by omega
          exact hc hc'
        rw [if_neg hph, if_neg hc, List.map_nil]
    · have hph : rxPhase sample n ≠ .char 67 := by
        intro hph
        obtain ⟨-, -, c, rfl, -⟩ := charAt_of_rxPhase hph
        omega
      rw [if_neg hph, List.append_nil, show n + 1 - 67 = n - 67 by omega]

/-! ### The interrupt -/

/-- Operations other than `irq` raise nothing. -/
lemma issue_raised {op : Op} (hop : ∀ m, op ≠ .irq m) (len delay : ℕ) (pin : Bool) (s : Sm) :
    (op.issue jdRxConfig len delay pin s).raised = s.raised := by
  cases op with
  | jmp cond target =>
    cases cond with
    | always => rfl
    | xDec | pin =>
      simp only [Op.issue]
      split <;> rfl
  | wait level =>
    simp only [Op.issue]
    split <;> rfl
  | inPin =>
    simp only [Op.issue, Sm.autopush]
    split <;> rfl
  | pull =>
    simp only [Op.issue]
    split <;> rfl
  | irq m => exact absurd rfl (hop m)
  | outPin | setX v | nop => rfl

/-- The `irq` is the eighth instruction of the receiver. -/
lemma jdRx_op_ne_irq {pc : ℕ} (hpc : pc ≠ 7) (m : ℕ) :
    (jdRx.getD pc ⟨.nop, none, 0⟩).op ≠ .irq m := by
  by_cases hlt : pc < 11
  · interval_cases pc <;> simp [jdRx] at hpc ⊢
  · have hnone : jdRx[pc]? = none := List.getElem?_eq_none (by simpa [jdRx] using hlt)
    simp [List.getD, hnone]

/-- What a cycle raises. -/
lemma raised_rxCycle (line : Bool) (s : Sm) :
    (rxCycle line s).raised = s.raised ++ if s.delay = 0 ∧ s.pc = 7 then [1] else [] := by
  have hside : ∀ side, (s.sideSet side).raised = s.raised := by
    intro side
    cases side <;> rfl
  unfold rxCycle cycle issue
  by_cases hd : s.delay = 0
  · rw [if_pos hd, Sm.feed_nil]
    by_cases hpc : s.pc = 7
    · rw [if_pos ⟨hd, hpc⟩, hpc]
      rfl
    · rw [if_neg (fun h => hpc h.2), List.append_nil, issue_raised (jdRx_op_ne_irq hpc), hside]
  · rw [if_neg hd, if_neg (fun h => hd h.1), Sm.feed_nil, List.append_nil]

/-- The `irq` is issued when no stop bit was found. -/
lemma RxPhase.At.irq_iff {s : Sm} {ph : RxPhase} (h : ph.At (rxCtl s)) :
    (s.delay = 0 ∧ s.pc = 7) ↔ ph = .bad := by
  have hchar : ∀ k < 76, 2 ≤ k → (charCtl k).pc ≠ 7 := by decide +kernel
  cases ph with
  | bad => exact ⟨fun _ => rfl, fun _ => ⟨h.2.1, h.1⟩⟩
  | char k =>
    have hne : s.pc ≠ 7 := by
      rcases h.char_cases with ⟨-, h1⟩ | ⟨hlow, hhigh, hc⟩
      · have h1 : s.pc = 1 := h1
        omega
      · have := hchar k (by omega) hlow
        rwa [← hc] at this
    simp [hne]
  | idle | good | broken | recover =>
    have hpc := h.1
    rw [show (rxCtl s).pc = s.pc from rfl] at hpc
    simp [hpc]

/-- A character without a stop bit raises the interrupt in the cycle after it was found. -/
lemma raised_rxRun (sample : ℕ → Bool) (n : ℕ) :
    (rxRun sample n).raised =
      ((charsBefore sample (n - 76)).filter fun c => !stopBit sample c).map fun _ => 1 := by
  induction n with
  | zero => rfl
  | succ n ih =>
    rw [rxRun_succ, raised_rxCycle, ih, if_congr (rxPhase_at sample n).irq_iff rfl rfl]
    by_cases hn : 76 ≤ n
    · obtain ⟨c, rfl⟩ : ∃ c, n = c + 76 := ⟨n - 76, by omega⟩
      rw [show c + 76 + 1 - 76 = c + 1 by omega, show c + 76 - 76 = c by omega, charsBefore_succ,
        List.filter_append, List.map_append]
      have hbad : rxPhase sample (c + 76) = .bad ↔ CharAt sample c ∧ stopBit sample c = false := by
        rw [rxPhase_eq_bad_iff]
        constructor
        · rintro ⟨c', heq, h⟩
          obtain rfl : c = c' := by omega
          exact h
        · exact fun h => ⟨c, rfl, h⟩
      by_cases hc : CharAt sample c <;> cases hstop : stopBit sample c <;>
        simp [hbad, hc, hstop]
    · have hph : rxPhase sample n ≠ .bad := by
        rw [Ne, rxPhase_eq_bad_iff]
        rintro ⟨c, rfl, -⟩
        omega
      rw [if_neg hph, List.append_nil, show n + 1 - 76 = n - 76 by omega]

/-! ### Every waveform -/

/-- Whatever the line does: in its first `n` cycles the receiver delivers the characters with a stop
bit only, and raises the interrupt for the others, exactly when all the characters it has sampled
have a stop bit. -/
theorem framed_iff (sample : ℕ → Bool) (n : ℕ) :
    Framed sample n ↔ ∀ c, c + 67 < n → CharAt sample c → stopBit sample c = true := by
  have hmem : ∀ c, c ∈ charsBefore sample (n - 67) ↔ c + 67 < n ∧ CharAt sample c := by
    intro c
    rw [charsBefore, List.mem_filter, List.mem_range, decide_eq_true_eq]
    exact and_congr_left' (by omega)
  constructor
  · intro h c hlt hc
    have hall := h.pushed
    rw [pushed_rxRun] at hall
    have hlen := congrArg List.length hall
    rw [List.length_map, List.length_map] at hlen
    have hfilter := List.length_filter_eq_length_iff.mp hlen.symm
    exact hfilter c ((hmem c).mpr ⟨hlt, hc⟩)
  · intro h
    refine ⟨?_, raised_rxRun sample n⟩
    rw [pushed_rxRun, List.filter_eq_self.mpr]
    intro c hc
    obtain ⟨hlt, hchar⟩ := (hmem c).mp hc
    exact h c hlt hchar

/-- A break of 88 cycles raises the interrupt once, but it is delivered as a zero byte too. -/
theorem break_not_framed :
    let sample : ℕ → Bool := fun n => 88 ≤ n
    (rxRun sample 100).pushed = [rxWord 0] ∧ (rxRun sample 100).raised = [1] ∧
      ¬Framed sample 100 := by
  refine ⟨by decide +kernel, by decide +kernel, fun h => ?_⟩
  exact absurd h.pushed (by decide +kernel)

end JdPico
