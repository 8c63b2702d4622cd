import Mathlib.Data.List.Basic
import Mathlib.Tactic

/-!
# PIO state machines

A cycle-accurate model of one state machine of a programmable I/O block, for the instructions that
serial line programs are made of.  In every cycle the machine either counts down the delay of its
last instruction or issues the instruction at `pc`.  Issuing takes one cycle and then the
instruction's delay; `wait` and a blocking `pull` that cannot proceed stall, which means that they
are issued again in the next cycle.  A side-set takes effect when the instruction is issued,
stalled or not.

The words pushed to the RX FIFO and the interrupts raised are kept as logs.  The environment
supplies, for each cycle, the level of the input pin and the words written to the TX FIFO (`Input`).
It reads the RX FIFO in time, so that a push never blocks, and does not write to a full TX FIFO.

`run_issue` is the rule by which programs are executed symbolically: it gives the state at every
cycle of an instruction and of its delay.
-/

namespace Pio

/-- The condition of a `jmp`. -/
inductive JmpCond where
  /-- Always jump. -/
  | always
  /-- `x--`: jump if `x` is not zero, and decrement it. -/
  | xDec
  /-- `pin`: jump if the jump pin is high. -/
  | pin
  deriving DecidableEq, Repr

/-- The operation of an instruction. -/
inductive Op where
  | jmp (cond : JmpCond) (target : ℕ)
  /-- `wait level pin 0`. -/
  | wait (level : Bool)
  /-- `in pins, 1`. -/
  | inPin
  /-- `out pins, 1`. -/
  | outPin
  /-- `pull`, blocking. -/
  | pull
  /-- `set x, v`. -/
  | setX (v : BitVec 32)
  /-- `irq n`. -/
  | irq (n : ℕ)
  | nop
  deriving DecidableEq, Repr

/-- An instruction: its operation, its optional side-set and its delay. -/
structure Instr where
  op : Op
  side : Option Bool
  delay : ℕ
  deriving DecidableEq, Repr

/-- A program wraps from its last instruction to its first. -/
abbrev Program := List Instr

/-- The shift configuration of a state machine. -/
structure ShiftConfig where
  /-- `in` shifts to the right, so that bits enter at the top. -/
  inRight : Bool
  /-- `out` shifts to the right, so that bits leave at the bottom. -/
  outRight : Bool
  /-- The number of bits after which `in` pushes, if it does so by itself. -/
  autopush : Option ℕ

/-- The state of a state machine. -/
structure Sm where
  pc : ℕ
  /-- The cycles of delay that are left. -/
  delay : ℕ
  x : BitVec 32
  isr : BitVec 32
  /-- The number of bits shifted into `isr`. -/
  isrCount : ℕ
  osr : BitVec 32
  txFifo : List (BitVec 32)
  /-- The level of the output pin. -/
  pin : Bool
  /-- The sticky flag of a `pull` that found the TX FIFO empty. -/
  txStall : Bool
  /-- Every word pushed to the RX FIFO so far. -/
  pushed : List (BitVec 32)
  /-- Every interrupt raised so far. -/
  raised : List ℕ

/-- What the environment does in one cycle. -/
structure Input where
  /-- The level of the input pin. -/
  pin : Bool
  /-- The words written to the TX FIFO. -/
  feed : List (BitVec 32)

namespace Sm

/-- Words arrive in the TX FIFO. -/
def feed (s : Sm) (ws : List (BitVec 32)) : Sm :=
  { s with txFifo := s.txFifo ++ ws }

/-- Apply a side-set. -/
def sideSet (s : Sm) : Option Bool → Sm
  | some v => { s with pin := v }
  | none => s

/-- Go on to the next instruction of a program of `len` instructions. -/
def next (s : Sm) (len delay : ℕ) : Sm :=
  { s with pc := if s.pc + 1 = len then 0 else s.pc + 1, delay := delay }

/-- Shift one bit into the input shift register. -/
def shiftIn (cfg : ShiftConfig) (s : Sm) (b : Bool) : Sm :=
  { s with
    isr := if cfg.inRight then (BitVec.cons b (s.isr.extractLsb' 1 31))
      else s.isr.concat b |>.setWidth 32
    isrCount := s.isrCount + 1 }

/-- Push the input shift register if it holds the configured number of bits. -/
def autopush (cfg : ShiftConfig) (s : Sm) : Sm :=
  if some s.isrCount = cfg.autopush then
    { s with pushed := s.pushed ++ [s.isr], isr := 0, isrCount := 0 }
  else s

/-- Shift one bit out of the output shift register to the pin. -/
def shiftOut (cfg : ShiftConfig) (s : Sm) : Sm :=
  if cfg.outRight then { s with pin := s.osr.getLsbD 0, osr := s.osr >>> 1 }
  else { s with pin := s.osr.msb, osr := s.osr <<< 1 }

end Sm

/-- Issue the operation of the instruction `i`, with the input pin at the level `pin`. -/
def Op.issue (cfg : ShiftConfig) (len delay : ℕ) (pin : Bool) (s : Sm) : Op → Sm
  | .jmp .always target => { s with pc := target, delay := delay }
  | .jmp .xDec target =>
    if s.x = 0 then Sm.next { s with x := s.x - 1 } len delay
    else { s with x := s.x - 1, pc := target, delay := delay }
  | .jmp .pin target => if pin then { s with pc := target, delay := delay } else s.next len delay
  | .wait level => if pin = level then s.next len delay else s
  | .inPin => ((s.shiftIn cfg pin).autopush cfg).next len delay
  | .outPin => (s.shiftOut cfg).next len delay
  | .pull =>
    match s.txFifo with
    | [] => { s with txStall := true }
    | w :: ws => Sm.next { s with osr := w, txFifo := ws } len delay
  | .setX v => Sm.next { s with x := v } len delay
  | .irq n => Sm.next { s with raised := s.raised ++ [n] } len delay
  | .nop => s.next len delay

/-- Issue the instruction at `pc`. -/
def issue (prog : Program) (cfg : ShiftConfig) (pin : Bool) (s : Sm) : Sm :=
  let i := prog.getD s.pc ⟨.nop, none, 0⟩
  i.op.issue cfg prog.length i.delay pin (s.sideSet i.side)

/-- One cycle of the state machine. -/
def cycle (prog : Program) (cfg : ShiftConfig) (inp : Input) (s : Sm) : Sm :=
  if s.delay = 0 then issue prog cfg inp.pin (s.feed inp.feed)
  else { s.feed inp.feed with delay := s.delay - 1 }

/-- The state before cycle `n`, for the given inputs. -/
def run (prog : Program) (cfg : ShiftConfig) (inp : ℕ → Input) (s : Sm) : ℕ → Sm
  | 0 => s
  | n + 1 => cycle prog cfg (inp n) (run prog cfg inp s n)

/-- The words written to the TX FIFO in the `d` cycles from cycle `n` on. -/
def fed (inp : ℕ → Input) (n : ℕ) : ℕ → List (BitVec 32)
  | 0 => []
  | d + 1 => fed inp n d ++ (inp (n + d)).feed

@[simp] lemma Sm.feed_nil (s : Sm) : s.feed [] = s := by
  simp [feed]

variable {prog : Program} {cfg : ShiftConfig} {inp : ℕ → Input} {s t : Sm} {n d k : ℕ}

lemma run_succ : run prog cfg inp s (n + 1) = cycle prog cfg (inp n) (run prog cfg inp s n) := rfl

lemma fed_add (n d k : ℕ) : fed inp n (d + k) = fed inp n d ++ fed inp (n + d) k := by
  induction k with
  | zero => simp [fed]
  | succ k ih => rw [← Nat.add_assoc, fed, ih, fed, List.append_assoc, Nat.add_assoc]

/-- The state while the delay of an instruction is counted down. -/
lemma run_delay (hs : run prog cfg inp s n = t) (hk : k ≤ t.delay) :
    run prog cfg inp s (n + k) = { t.feed (fed inp n k) with delay := t.delay - k } := by
  induction k with
  | zero => simp [hs, Sm.feed, fed]
  | succ k ih =>
    rw [← Nat.add_assoc, run_succ, ih (by omega), cycle, if_neg (by dsimp only; omega)]
    simp only [Sm.feed, fed, List.append_assoc, Nat.sub_sub]

/-- The cycles of one instruction: the machine issues it, and shows its effect while the delay is
counted down. -/
lemma run_issue (hs : run prog cfg inp s n = t) (ht : t.delay = 0) {u : Sm}
    (hu : issue prog cfg (inp n).pin (t.feed (inp n).feed) = u) (hk : k ≤ u.delay) :
    run prog cfg inp s (n + 1 + k) = { u.feed (fed inp (n + 1) k) with delay := u.delay - k } := by
  refine run_delay ?_ hk
  rw [run_succ, hs, cycle, if_pos ht, hu]

/-! ### The logs only grow -/

/-- `t` extends the logs of `s`. -/
def Sm.LogsLe (s t : Sm) : Prop :=
  s.pushed <+: t.pushed ∧ s.raised <+: t.raised

lemma Sm.LogsLe.refl (s : Sm) : s.LogsLe s := ⟨List.prefix_rfl, List.prefix_rfl⟩

lemma Sm.LogsLe.trans {s t u : Sm} (h₁ : s.LogsLe t) (h₂ : t.LogsLe u) : s.LogsLe u :=
  ⟨h₁.1.trans h₂.1, h₁.2.trans h₂.2⟩

lemma Sm.logsLe_autopush (s : Sm) : s.LogsLe (s.autopush cfg) := by
  unfold autopush
  split_ifs
  · exact ⟨List.prefix_append _ _, List.prefix_rfl⟩
  · exact .refl s

lemma Sm.logsLe_sideSet (s : Sm) (side : Option Bool) : s.LogsLe (s.sideSet side) := by
  cases side <;> exact .refl s

/-- Issuing an operation extends the logs. -/
lemma Op.logsLe_issue (op : Op) (len delay : ℕ) (pin : Bool) (s : Sm) :
    s.LogsLe (op.issue cfg len delay pin s) := by
  cases op with
  | jmp cond target =>
    cases cond with
    | always => exact .refl s
    | xDec =>
      simp only [issue]
      split_ifs <;> exact .refl s
    | pin =>
      simp only [issue]
      split_ifs <;> exact .refl s
  | wait level =>
    simp only [issue]
    split_ifs <;> exact .refl s
  | inPin => exact (s.shiftIn cfg pin).logsLe_autopush
  | outPin =>
    simp only [issue, Sm.shiftOut]
    split_ifs <;> exact .refl s
  | pull =>
    simp only [issue]
    split <;> exact .refl s
  | setX v => exact .refl s
  | irq n => exact ⟨List.prefix_rfl, List.prefix_append _ _⟩
  | nop => exact .refl s

lemma logsLe_cycle (i : Input) (s : Sm) : s.LogsLe (cycle prog cfg i s) := by
  unfold cycle issue
  split_ifs
  · exact ((s.feed i.feed).logsLe_sideSet _).trans (Op.logsLe_issue _ _ _ _ _)
  · exact .refl s

/-- The logs only grow along a run. -/
lemma logsLe_run (prog : Program) (cfg : ShiftConfig) (inp : ℕ → Input) (s : Sm) {m n : ℕ}
    (h : m ≤ n) : (run prog cfg inp s m).LogsLe (run prog cfg inp s n) := by
  induction n, h using Nat.le_induction with
  | base => exact .refl _
  | succ n _ ih => exact ih.trans (logsLe_cycle _ _)

end Pio
