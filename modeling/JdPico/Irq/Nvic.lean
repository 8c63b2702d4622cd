import JdPico.Lib.Run
import JdPico.Lib.Word

/-!
# The interrupt controller

`dma.c` has its own functions to enable interrupts and to set their priorities, because those of the
SDK are not in RAM.  Which interrupts are enabled and which are pending are bits of two words; the
priorities are bytes, four in a word, and can only be written a word at a time.

A call changes what it says for the interrupts it names, and nothing for the others; in particular
the priorities that share a word are kept.  So after any calls, with interrupts coming in between,
an interrupt is in the state that its own calls have left it in (`nvic_independent`).
-/

namespace JdPico

open Machine Word

/-! ### The registers -/

/-- The registers of the interrupt controller. -/
structure Nvic where
  /-- The interrupts that are enabled; written through `ISER` and `ICER`. -/
  enabled : BitVec 32
  /-- The interrupts that are pending; cleared through `ICPR`. -/
  pending : BitVec 32
  /-- The words `IPR0` to `IPR7`. -/
  ipr : Fin 8 → BitVec 32

/-- The word of an interrupt: `num & ~3`, as an offset in bytes. -/
def iprWord (num : Fin 32) : Fin 8 := ⟨num / 4, by omega⟩

/-- The lowest bit of an interrupt in its word: `8 * (num & 3)`. -/
def iprShift (num : Fin 32) : ℕ := 8 * (num % 4)

/-- `irq_set_mask_enabled_`. -/
def irqSetMaskEnabled (mask : BitVec 32) (enabled : Bool) (s : Nvic) : Nvic :=
  if enabled then
    { s with pending := clearBits s.pending mask, enabled := setBits s.enabled mask }
  else { s with enabled := clearBits s.enabled mask }

/-- `ram_irq_set_enabled`. -/
def ramIrqSetEnabled (num : Fin 32) (enabled : Bool) (s : Nvic) : Nvic :=
  irqSetMaskEnabled (1#32 <<< num.val) enabled s

/-- `ram_irq_set_priority`. -/
def ramIrqSetPriority (num : Fin 32) (hardwarePriority : BitVec 8) (s : Nvic) : Nvic :=
  let p := s.ipr (iprWord num)
  { s with
    ipr := Function.update s.ipr (iprWord num)
      (p &&& ~~~(0xff#32 <<< iprShift num) ||| hardwarePriority.setWidth 32 <<< iprShift num) }

/-- The calls, and interrupts that become pending. -/
inductive NvicAct where
  | setMaskEnabled (mask : BitVec 32) (enabled : Bool)
  | setEnabled (num : Fin 32) (enabled : Bool)
  | setPriority (num : Fin 32) (hardwarePriority : BitVec 8)
  | raised (num : Fin 32)
  deriving DecidableEq, Repr

/-- One of them. -/
def Nvic.act (s : Nvic) : NvicAct → Nvic
  | .setMaskEnabled mask enabled => irqSetMaskEnabled mask enabled s
  | .setEnabled num enabled => ramIrqSetEnabled num enabled s
  | .setPriority num hardwarePriority => ramIrqSetPriority num hardwarePriority s
  | .raised num => { s with pending := setBits s.pending (1#32 <<< num.val) }

/-! ### One interrupt -/

/-- The state of an interrupt. -/
structure IrqView where
  enabled : Bool
  pending : Bool
  priority : BitVec 8
  deriving DecidableEq, Repr

/-- The state of an interrupt in the registers. -/
def Nvic.view (num : Fin 32) (s : Nvic) : IrqView where
  enabled := s.enabled.getLsbD num
  pending := s.pending.getLsbD num
  priority := (s.ipr (iprWord num)).extractLsb' (iprShift num) 8

/-- It is about the interrupt. -/
def NvicAct.names (num : Fin 32) : NvicAct → Bool
  | .setMaskEnabled mask _ => mask.getLsbD num
  | .setEnabled n _ => n = num
  | .setPriority n _ => n = num
  | .raised n => n = num

/-- An interrupt that is enabled is not pending any more. -/
def IrqView.setEnabled (v : IrqView) (enabled : Bool) : IrqView :=
  { v with enabled := enabled, pending := v.pending && !enabled }

/-- What is done to an interrupt that is named. -/
def IrqView.act (v : IrqView) : NvicAct → IrqView
  | .setMaskEnabled _ enabled => v.setEnabled enabled
  | .setEnabled _ enabled => v.setEnabled enabled
  | .setPriority _ hardwarePriority => { v with priority := hardwarePriority }
  | .raised _ => { v with pending := true }

namespace Nvic

variable {s : Nvic} {n m : Fin 32}

/-- The mask of an interrupt has the bit of this interrupt only. -/
lemma getLsbD_irq_mask (n m : Fin 32) : (1#32 <<< n.val).getLsbD m = decide (n = m) := by
  rw [getLsbD_one_shiftLeft m.isLt]
  exact decide_eq_decide.mpr (by omega)

lemma view_irqSetMaskEnabled (mask : BitVec 32) (enabled : Bool) :
    (irqSetMaskEnabled mask enabled s).view m =
      if mask.getLsbD m then (s.view m).setEnabled enabled else s.view m := by
  cases enabled with
  | false =>
    simp only [irqSetMaskEnabled, Bool.false_eq_true, if_false, view, IrqView.setEnabled,
      getLsbD_clearBits]
    cases mask.getLsbD m with
    | false => simp
    | true => simp
  | true =>
    simp only [irqSetMaskEnabled, if_true, view, IrqView.setEnabled, getLsbD_setBits,
      getLsbD_clearBits]
    cases mask.getLsbD m with
    | false => simp
    | true => simp

lemma view_ramIrqSetPriority (hardwarePriority : BitVec 8) :
    (ramIrqSetPriority n hardwarePriority s).view m =
      if n = m then { s.view m with priority := hardwarePriority } else s.view m := by
  have hwrite : ramIrqSetPriority n hardwarePriority s =
      { s with
        ipr := Function.update s.ipr (iprWord n)
          (writeField (s.ipr (iprWord n)) (iprShift n) hardwarePriority) } := rfl
  have hfit : ∀ k : Fin 32, iprShift k + 8 ≤ 32 := fun k => by
    unfold iprShift
    omega
  rw [hwrite]
  by_cases hnm : n = m
  · subst hnm
    simp [view, extractLsb'_writeField_self hardwarePriority (hfit n)]
  · rw [if_neg hnm]
    by_cases hword : iprWord m = iprWord n
    · -- Two interrupts of one word have different bytes.
      have hdisj : iprShift n + 8 ≤ iprShift m ∨ iprShift m + 8 ≤ iprShift n := by
        have hdiv : (m : ℕ) / 4 = n / 4 := congrArg Fin.val hword
        have hne : (n : ℕ) ≠ m := fun h => hnm (Fin.ext h)
        unfold iprShift
        omega
      simp [view, hword, extractLsb'_writeField_of_disjoint hardwarePriority (hfit m) hdisj]
    · simp [view, hword]

/-- What is done is done to the interrupts that are named, and to no others. -/
lemma view_act (s : Nvic) (a : NvicAct) :
    (s.act a).view m = if a.names m then (s.view m).act a else s.view m := by
  cases a with
  | setMaskEnabled mask enabled => exact view_irqSetMaskEnabled mask enabled
  | setEnabled n enabled =>
    rw [act, ramIrqSetEnabled, view_irqSetMaskEnabled, getLsbD_irq_mask]
    rfl
  | setPriority n hardwarePriority =>
    simp only [act, view_ramIrqSetPriority, NvicAct.names, IrqView.act, decide_eq_true_eq]
  | raised n =>
    simp only [act, view, NvicAct.names, IrqView.act, getLsbD_setBits, getLsbD_irq_mask]
    by_cases h : n = m <;> simp [h]

end Nvic

/-! ### Sequences -/

/-- **Interrupts are independent.**  For all registers, all sequences of calls and all interrupts
that come in between, the state of an interrupt is what those that name it make of its state. -/
theorem nvic_independent (s : Nvic) (acts : List NvicAct) (num : Fin 32) :
    (acts.foldl Nvic.act s).view num =
      (acts.filter (NvicAct.names num)).foldl IrqView.act (s.view num) :=
  foldl_view (fun s a => s.view_act a) s acts

end JdPico
