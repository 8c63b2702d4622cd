import JdPico.Sws.Receive

/-!
# The receiver inverts the transmitter

Transmitter and receiver on one line, each on its own clock.  Time is measured in cycles of the
transmitter, which starts at time `0`; the receiver's cycle `n` is at `φ + r * n`.  The phase `φ` is
any rational at which the line has been idle so far, and the ratio `r` of the cycle times is within
two percent of `1`.
-/

namespace JdPico

open Pio

/-- The level of a line at a time; before the transmitter starts the line is idle. -/
def lineAt (line : ℕ → Bool) (t : ℚ) : Bool :=
  if t < 0 then true else line ⌊t⌋₊

/-- The samples of a receiver with cycle time `r` that starts at time `φ`. -/
def samples (line : ℕ → Bool) (r φ : ℚ) (n : ℕ) : Bool :=
  lineAt line (φ + r * n)

variable {line : ℕ → Bool} {r φ t : ℚ} {c i n : ℕ} {out : List (BitVec 32)} {irqs : List ℕ}
  {bs : List (BitVec 8)}

/-- A level that the line has for `w` cycles is what it has at every time within them. -/
lemma lineAt_cell {w : ℕ} {v : Bool} (h : ∀ k < w, line (c + k) = v) (h₁ : (c : ℚ) ≤ t)
    (h₂ : t < c + w) : lineAt line t = v := by
  have ht : 0 ≤ t := (Nat.cast_nonneg c).trans h₁
  have hle : c ≤ ⌊t⌋₊ := Nat.le_floor h₁
  have hlt : ⌊t⌋₊ < c + w := (Nat.floor_lt ht).mpr (by exact_mod_cast h₂)
  have := h (⌊t⌋₊ - c) (by omega)
  rw [Nat.add_sub_cancel' hle] at this
  rw [lineAt, if_neg (not_lt.mpr ht), this]

/-- A line that is high from cycle `c` on is high at every later time. -/
lemma lineAt_of_high (h : ∀ k, c ≤ k → line k = true) (h₁ : (c : ℚ) ≤ t) :
    lineAt line t = true := by
  have ht : 0 ≤ t := (Nat.cast_nonneg c).trans h₁
  rw [lineAt, if_neg (not_lt.mpr ht)]
  exact h _ (Nat.le_floor h₁)

/-- The receiver waits through any number of high samples. -/
lemma RxIdle.wait_highs {sample : ℕ → Bool} (h : RxIdle sample i out irqs) (hi : i ≤ n)
    (hs : ∀ k, i ≤ k → k < n → sample k = true) : RxIdle sample n out irqs := by
  induction n, hi using Nat.le_induction with
  | base => exact h
  | succ n hn ih => exact (ih fun k hik hkn => hs k hik (by omega)).wait_high (hs n hn (by omega))

/-- The first sample at or after the start edge at `c` comes less than one cycle after it. -/
lemma exists_first_sample (hr : 0 < r) (hi : φ + r * i < c) :
    ∃ m, i ≤ m ∧ (c : ℚ) ≤ φ + r * m ∧ φ + r * m < c + r ∧ ∀ k, k < m → φ + r * k < c := by
  have hex : ∃ m : ℕ, (c : ℚ) ≤ φ + r * m := by
    obtain ⟨m, hm⟩ := exists_nat_gt ((c - φ) / r)
    rw [div_lt_iff₀ hr] at hm
    exact ⟨m, by linarith⟩
  classical
  have hmin : ∀ k, k < Nat.find hex → φ + r * k < c := fun k hk => not_le.mp (Nat.find_min hex hk)
  have hfind := Nat.find_spec hex
  generalize Nat.find hex = m at hmin hfind
  have him : i < m := by
    by_contra hle
    have : r * (m : ℚ) ≤ r * i := by
      gcongr
      exact_mod_cast not_lt.mp hle
    linarith
  obtain ⟨p, rfl⟩ : ∃ p, m = p + 1 := ⟨m - 1, by omega⟩
  have hprev := hmin p (by omega)
  refine ⟨p + 1, him.le, hfind, ?_, hmin⟩
  push_cast
  linarith

/-- **Reception.**  A receiver that waits on a line which is high until cycle `c` and then carries
`bs` pushes the bytes of `bs` and raises nothing. -/
lemma Serial.receive (hser : Serial line c bs) (hlo : 98 / 100 ≤ r) (hhi : r ≤ 102 / 100)
    (hrx : RxIdle (samples line r φ) i out irqs) (hbefore : φ + r * i < c)
    (hhigh : ∀ t, φ + r * i ≤ t → t < c → lineAt line t = true) :
    ∃ m, ∀ n, m ≤ n → (rxRun (samples line r φ) n).pushed = out ++ bs.map rxWord ∧
      (rxRun (samples line r φ) n).raised = irqs := by
  have hr : 0 < r := by linarith
  have hmono : ∀ {k l : ℕ}, k ≤ l → φ + r * k ≤ φ + r * l := by
    intro k l hkl
    gcongr
  induction hser generalizing i out with
  | idle h =>
    rename_i c
    refine ⟨i, ?_⟩
    intro n hn
    obtain ⟨x, hat⟩ := hrx.wait_highs hn fun k hik _ => by
      by_cases hk : φ + r * k < c
      · exact hhigh _ (hmono hik) hk
      · exact lineAt_of_high h (not_lt.mp hk)
    exact ⟨by simp [hat.pushed], hat.raised⟩
  | wait h _ ih =>
    rename_i c bs _
    refine ih hrx (by push_cast; linarith) ?_
    intro t ht₁ ht₂
    by_cases ht : t < c
    · exact hhigh t ht₁ ht
    · push_cast at ht₂
      exact lineAt_cell (w := 1) (fun k hk => by simpa [Nat.lt_one_iff.mp hk] using h)
        (not_lt.mp ht) (by push_cast; linarith)
  | frame start data stop _ ih =>
    rename_i c b bs _
    obtain ⟨m, him, hm₁, hm₂, hmin⟩ := exists_first_sample hr hbefore
    have hwait := hrx.wait_highs him fun k hik hkm => hhigh _ (hmono hik) (hmin k hkm)
    have hdata : ∀ i < 8, samples line r φ (m + 11 + 8 * i) = b.getLsbD i := by
      intro i hi
      have hi' : (i : ℚ) ≤ 7 := by exact_mod_cast (show i ≤ 7 by omega)
      have hri₁ : 98 / 100 * (i : ℚ) ≤ r * i := by gcongr
      have hri₂ : r * i ≤ 102 / 100 * (i : ℚ) := by gcongr
      refine lineAt_cell (w := 8) (data i hi) ?_ ?_ <;>
      · push_cast
        linarith
    have hframe := hwait.frame (lineAt_cell start hm₁ (by push_cast; linarith)) hdata
      (lineAt_cell stop (by push_cast; linarith) (by push_cast; linarith))
    obtain ⟨m', hm'⟩ := ih hframe (by push_cast; linarith) fun t ht₁ ht₂ => by
      push_cast at ht₁ ht₂
      exact lineAt_cell stop (by push_cast; linarith) (by push_cast; linarith)
    exact ⟨m', fun n hn => by simpa using hm' n hn⟩

/-- A line that is idle up to the time `φ` carries its bytes from some cycle after `φ` on. -/
lemma Serial.later (hser : Serial line c bs) (hφ : ∀ t ≤ φ, lineAt line t = true)
    (hhigh : ∀ t < (c : ℚ), lineAt line t = true) :
    ∃ c' : ℕ, φ < c' ∧ Serial line c' bs ∧ ∀ t < (c' : ℚ), lineAt line t = true := by
  induction hser with
  | idle h =>
    rename_i c
    have hlater : ∀ t, lineAt line t = true := fun t => by
      by_cases ht : t < c
      · exact hhigh t ht
      · exact lineAt_of_high h (not_lt.mp ht)
    refine ⟨max c (⌊φ⌋₊ + 1), ?_, .idle fun k hk => h k (by omega), fun t _ => hlater t⟩
    calc φ < ⌊φ⌋₊ + 1 := Nat.lt_floor_add_one φ
      _ ≤ (max c (⌊φ⌋₊ + 1) : ℕ) := by exact_mod_cast le_max_right _ _
  | wait h hrest ih =>
    rename_i c bs
    apply ih
    intro t ht
    by_cases htc : t < c
    · exact hhigh t htc
    · exact lineAt_cell (w := 1) (fun k hk => by simpa [Nat.lt_one_iff.mp hk] using h)
        (not_lt.mp htc) (by push_cast at ht ⊢; linarith)
  | frame start data stop hrest _ =>
    rename_i c b bs _
    refine ⟨c, ?_, .frame start data stop hrest, hhigh⟩
    by_contra hle
    have := hφ c (not_lt.mp hle)
    rw [lineAt_cell start le_rfl (by push_cast; linarith)] at this
    exact Bool.false_ne_true this

/-- **The receiver inverts the transmitter.**  For every schedule of bytes for the TX FIFO, every
clock ratio within two percent and every phase at which the line has been idle so far, the words
that the receiver has pushed are at all times the first of the sent bytes, each in bits 24 to 31; it
has raised no interrupt; and from some cycle on it has pushed them all. -/
theorem jdRx_inverts_jdTx (feed : ℕ → List (BitVec 8)) (m : ℕ) (hfeed : ∀ k, m ≤ k → feed k = [])
    (r φ : ℚ) (hlo : 98 / 100 ≤ r) (hhi : r ≤ 102 / 100)
    (hidle : ∀ t ≤ φ, lineAt (txLine feed) t = true) :
    (∀ n, (rxRun (samples (txLine feed) r φ) n).pushed <+:
        ((List.range m).flatMap feed).map rxWord ∧
      (rxRun (samples (txLine feed) r φ) n).raised = []) ∧
    ∃ n₀, ∀ n, n₀ ≤ n →
      (rxRun (samples (txLine feed) r φ) n).pushed = ((List.range m).flatMap feed).map rxWord ∧
      (rxRun (samples (txLine feed) r φ) n).pushed.map dmaByte = (List.range m).flatMap feed := by
  obtain ⟨hhigh, hser⟩ := txLine_serial feed m hfeed
  have hhigh' : ∀ t < ((8 : ℕ) : ℚ), lineAt (txLine feed) t = true := fun t ht => by
    by_cases ht₀ : t < 0
    · rw [lineAt, if_pos ht₀]
    · exact lineAt_cell (c := 0) (fun k hk => by simpa using hhigh k hk) (by simpa using ht₀)
        (by simpa using ht)
  obtain ⟨c, hφc, hser', hc⟩ := hser.later hidle hhigh'
  have hstart : RxIdle (samples (txLine feed) r φ) 0 [] [] := ⟨0, rfl, rfl, rfl, rfl, rfl, rfl, rfl⟩
  obtain ⟨n₀, hn₀⟩ := hser'.receive hlo hhi hstart (by simpa using hφc) fun t _ ht => hc t ht
  refine ⟨?_, n₀, fun n hn => ⟨(hn₀ n hn).1, by simp [(hn₀ n hn).1, Function.comp_def]⟩⟩
  intro n
  -- The logs only grow, so what holds in the end bounds every earlier cycle.
  obtain ⟨hpushed, hraised⟩ := logsLe_run jdRx jdRxConfig
    (rxInput (samples (txLine feed) r φ)) smStart (le_max_left n n₀)
  obtain ⟨hp, hi⟩ := hn₀ (max n n₀) (le_max_right n n₀)
  rw [List.nil_append] at hp
  exact ⟨hp ▸ hpushed, List.prefix_nil.mp (hi ▸ hraised)⟩

/-- Two bytes back to back and a third after a gap, with the receiver two percent slow. -/
theorem jdRx_inverts_jdTx_three_bytes :
    let feed : ℕ → List (BitVec 8) := fun n =>
      if n = 0 then [0xa5, 0x00] else if n = 300 then [0xff] else []
    ∃ n₀, ∀ n, n₀ ≤ n →
      (rxRun (samples (txLine feed) (102 / 100) 0) n).pushed.map dmaByte = [0xa5, 0x00, 0xff] := by
  intro feed
  have hfeed : ∀ k, 301 ≤ k → feed k = [] := by
    intro k hk
    simp only [feed]
    rw [if_neg (by omega), if_neg (by omega)]
  have hidle : ∀ t ≤ (0 : ℚ), lineAt (txLine feed) t = true := by
    intro t ht
    rcases ht.lt_or_eq with h | rfl
    · rw [lineAt, if_pos h]
    · rw [lineAt, if_neg (lt_irrefl 0), Nat.floor_zero]
      rfl
  obtain ⟨-, n₀, hn₀⟩ := jdRx_inverts_jdTx feed 301 hfeed (102 / 100) 0 (by norm_num) le_rfl hidle
  refine ⟨n₀, ?_⟩
  intro n hn
  rw [(hn₀ n hn).2]
  decide +kernel

end JdPico
