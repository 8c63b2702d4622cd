import JdPico.Lib.Word
import Mathlib.Data.BitVec

/-!
# The outputs of the PIO

Which outputs a PIO block drives, and at which levels, are latches that its state machines share.
The driver writes them through instructions that it has a state machine execute: a `set` takes at
most five pins, and which they are is a field of `PINCTRL`.  So `uart.c` has functions that go
through the bits of a mask, one pin at a time, or through consecutive pins, five at a time, and that
restore `PINCTRL` at their end.

They set the pins that they are given and no others, also if consecutive pins go on at pin zero
(`pio_set_pins`).
-/

namespace JdPico

open Word

/-! ### The registers -/

/-- The registers of a PIO block that its outputs come from. -/
@[ext] structure PioPins where
  /-- `pinctrl` of the state machines. -/
  pinctrl : BitVec 2 → BitVec 32
  /-- The levels of the outputs. -/
  out : BitVec 32
  /-- The directions: one for the pins that are driven. -/
  oe : BitVec 32

/-- What a `set` writes: `pio_pins` or `pio_pindirs`. -/
inductive SetDest where
  | pins
  | pindirs
  deriving DecidableEq, Repr

/-- A write to the block. -/
inductive PioWrite where
  /-- `pio->sm[sm].pinctrl = value`. -/
  | pinctrl (sm : BitVec 2) (value : BitVec 32)
  /-- `pio_sm_exec(pio, sm, pio_encode_set(dest, value))`. -/
  | execSet (sm : BitVec 2) (dest : SetDest) (value : BitVec 5)
  deriving DecidableEq, Repr

/-- The field `SET_BASE` of `PINCTRL`. -/
def setBase (pinctrl : BitVec 32) : ℕ := (pinctrl.extractLsb' 5 5).toNat

/-- The field `SET_COUNT` of `PINCTRL`. -/
def setCount (pinctrl : BitVec 32) : ℕ := (pinctrl.extractLsb' 26 3).toNat

/-- The latch after a `set` of `count` pins from `base` on; after pin 31 follows pin zero. -/
def setPins (r : BitVec 32) (base count : ℕ) (value : BitVec 5) : BitVec 32 :=
  writeMasked r ((value.setWidth 32).rotateLeft base)
    (((BitVec.allOnes count).setWidth 32).rotateLeft base)

namespace PioPins

/-- One of the latches. -/
def latch (s : PioPins) : SetDest → BitVec 32
  | .pins => s.out
  | .pindirs => s.oe

/-- A write. -/
def write (s : PioPins) : PioWrite → PioPins
  | .pinctrl sm value => { s with pinctrl := Function.update s.pinctrl sm value }
  | .execSet sm .pins value =>
    { s with out := setPins s.out (setBase (s.pinctrl sm)) (setCount (s.pinctrl sm)) value }
  | .execSet sm .pindirs value =>
    { s with oe := setPins s.oe (setBase (s.pinctrl sm)) (setCount (s.pinctrl sm)) value }

end PioPins

/-! ### The functions of `uart.c`, with the writes that they make -/

/-- The loop of `pio_sm_set_pins_with_mask_` and `pio_sm_set_pindirs_with_mask_`. -/
def withMaskLoop (sm : BitVec 2) (dest : SetDest) (values pinMask : BitVec 32) : List PioWrite :=
  if pinMask = 0#32 then []
  else
    .pinctrl sm (1#32 <<< 26 ||| pinMask.ctz <<< 5) ::
      .execSet sm dest ((values >>> pinMask.ctz.toNat &&& 1#32).setWidth 5) ::
      withMaskLoop sm dest values (pinMask &&& (pinMask - 1#32))
  termination_by pinMask.toNat
  decreasing_by exact and_sub_one_lt ‹_›

/-- A function that goes through a mask, called with `PINCTRL` as it is in `s`. -/
def setWithMask (dest : SetDest) (sm : BitVec 2) (values pinMask : BitVec 32) (s : PioPins) :
    List PioWrite :=
  withMaskLoop sm dest values pinMask ++ [.pinctrl sm (s.pinctrl sm)]

/-- `pio_sm_set_pins_with_mask_`. -/
def pioSmSetPinsWithMask : BitVec 2 → BitVec 32 → BitVec 32 → PioPins → List PioWrite :=
  setWithMask .pins

/-- `pio_sm_set_pindirs_with_mask_`. -/
def pioSmSetPindirsWithMask : BitVec 2 → BitVec 32 → BitVec 32 → PioPins → List PioWrite :=
  setWithMask .pindirs

/-- The loop of `pio_sm_set_consecutive_pindirs_` and what follows it. -/
def consecutiveLoop (sm : BitVec 2) (pindirVal : BitVec 5) (pin : BitVec 5) (count : ℕ) :
    List PioWrite :=
  if 5 < count then
    .pinctrl sm (5#32 <<< 26 ||| pin.setWidth 32 <<< 5) :: .execSet sm .pindirs pindirVal ::
      consecutiveLoop sm pindirVal (pin + 5#5) (count - 5)
  else
    [.pinctrl sm (BitVec.ofNat 32 count <<< 26 ||| pin.setWidth 32 <<< 5),
      .execSet sm .pindirs pindirVal]

/-- `pio_sm_set_consecutive_pindirs_`.  A pin is a number below 32. -/
def pioSmSetConsecutivePindirs (sm : BitVec 2) (pin : BitVec 5) (count : ℕ) (isOut : Bool)
    (s : PioPins) : List PioWrite :=
  consecutiveLoop sm (if isOut then 0x1f#5 else 0#5) pin count ++ [.pinctrl sm (s.pinctrl sm)]

/-! ### One instruction -/

variable {s : PioPins} {sm : BitVec 2} {dest : SetDest} {i : ℕ}

/-- The fields of `PINCTRL`. -/
lemma setBase_fields (c b : BitVec 32) (hb : b.toNat < 32) :
    setBase (c <<< 26 ||| b <<< 5) = b.toNat := by
  have hfield : (c <<< 26 ||| b <<< 5).extractLsb' 5 5 = b.setWidth 5 := by
    ext i hi
    simp [← BitVec.getLsbD_eq_getElem, hi, show 5 + i < 26 by omega, show 5 + i < 32 by omega]
  rw [setBase, hfield, BitVec.toNat_setWidth, Nat.mod_eq_of_lt hb]

lemma setCount_fields (c b : BitVec 32) (hc : c.toNat < 8) (hb : b.toNat < 32) :
    setCount (c <<< 26 ||| b <<< 5) = c.toNat := by
  have hfield : (c <<< 26 ||| b <<< 5).extractLsb' 26 3 = c.setWidth 3 := by
    ext i hi
    have hhigh : b.getLsbD (26 + i - 5) = false := by
      have hpow : 2 ^ 5 ≤ 2 ^ (26 + i - 5) := Nat.pow_le_pow_right (by decide) (by omega)
      exact Nat.testBit_lt_two_pow (hb.trans_le hpow)
    simp [← BitVec.getLsbD_eq_getElem, hi, hhigh, show 26 + i < 32 by omega]
  rw [setCount, hfield, BitVec.toNat_setWidth, Nat.mod_eq_of_lt hc]

/-- The number of a pin, counted from `base` on. -/
def pinOffset (base i : ℕ) : ℕ := (i + (32 - base)) % 32

lemma getLsbD_rotateLeft_pin (x : BitVec 32) {base : ℕ} (hbase : base < 32) (hi : i < 32) :
    (x.rotateLeft base).getLsbD i = x.getLsbD (pinOffset base i) := by
  rw [BitVec.getLsbD_rotateLeft, Nat.mod_eq_of_lt hbase]
  by_cases h : i < base
  · rw [pinOffset, show (i + (32 - base)) % 32 = 32 - base + i by omega, decide_eq_true h,
      cond_true]
  · rw [pinOffset, show (i + (32 - base)) % 32 = i - base by omega, decide_eq_false h, cond_false,
      decide_eq_true hi, Bool.true_and]

/-- A bit of the latch after a `set`. -/
lemma getLsbD_setPins (r : BitVec 32) {base : ℕ} (hbase : base < 32) (count : ℕ)
    (value : BitVec 5) (hi : i < 32) :
    (setPins r base count value).getLsbD i =
      if pinOffset base i < count then value.getLsbD (pinOffset base i) else r.getLsbD i := by
  have hoffset : pinOffset base i < 32 := Nat.mod_lt _ (by decide)
  rw [setPins, getLsbD_writeMasked, getLsbD_rotateLeft_pin _ hbase hi,
    getLsbD_rotateLeft_pin _ hbase hi]
  simp [hoffset]

lemma setBase_lt (pinctrl : BitVec 32) : setBase pinctrl < 32 :=
  (pinctrl.extractLsb' 5 5).isLt

namespace PioPins

/-- Only `PINCTRL` of the state machine and one of the latches are written. -/
def SameElse (sm : BitVec 2) (dest : SetDest) (s t : PioPins) : Prop :=
  (∀ sm' ≠ sm, t.pinctrl sm' = s.pinctrl sm') ∧ ∀ dest' ≠ dest, t.latch dest' = s.latch dest'

/-- A `set` right after the write to `PINCTRL` that it needs. -/
lemma write_execSet (s : PioPins) (sm : BitVec 2) (dest : SetDest) (value : BitVec 5)
    (pinctrl : BitVec 32) :
    s.SameElse sm dest ((s.write (.pinctrl sm pinctrl)).write (.execSet sm dest value)) ∧
      ∀ i < 32,
        (((s.write (.pinctrl sm pinctrl)).write (.execSet sm dest value)).latch dest).getLsbD i =
          if pinOffset (setBase pinctrl) i < setCount pinctrl then
            value.getLsbD (pinOffset (setBase pinctrl) i)
          else (s.latch dest).getLsbD i := by
  have hother : ∀ sm' ≠ sm, Function.update s.pinctrl sm pinctrl sm' = s.pinctrl sm' :=
    fun sm' h => Function.update_of_ne h _ _
  cases dest with
  | pins =>
    refine ⟨⟨hother, fun dest' h => ?_⟩, fun i hi => ?_⟩
    · cases dest' with
      | pins => exact absurd rfl h
      | pindirs => rfl
    · simp [write, latch, getLsbD_setPins _ (setBase_lt _) _ _ hi]
  | pindirs =>
    refine ⟨⟨hother, fun dest' h => ?_⟩, fun i hi => ?_⟩
    · cases dest' with
      | pins => rfl
      | pindirs => exact absurd rfl h
    · simp [write, latch, getLsbD_setPins _ (setBase_lt _) _ _ hi]

lemma SameElse.trans {t u : PioPins} (hst : s.SameElse sm dest t) (htu : t.SameElse sm dest u) :
    s.SameElse sm dest u :=
  ⟨fun sm' h => (htu.1 sm' h).trans (hst.1 sm' h),
    fun dest' h => (htu.2 dest' h).trans (hst.2 dest' h)⟩

/-- Restoring `PINCTRL` leaves the latches as they are. -/
lemma latch_write_pinctrl (s : PioPins) (sm : BitVec 2) (value : BitVec 32) (dest : SetDest) :
    (s.write (.pinctrl sm value)).latch dest = s.latch dest := by
  cases dest <;> rfl

/-- So a function that restores it writes one of the latches only. -/
lemma SameElse.restore {t : PioPins} (h : s.SameElse sm dest t) :
    (t.write (.pinctrl sm (s.pinctrl sm))).pinctrl = s.pinctrl ∧
      ∀ dest' ≠ dest, (t.write (.pinctrl sm (s.pinctrl sm))).latch dest' = s.latch dest' := by
  refine ⟨?_, fun dest' hne => (latch_write_pinctrl t sm _ dest').trans (h.2 dest' hne)⟩
  funext sm'
  by_cases hsm : sm' = sm
  · subst hsm
    exact Function.update_self sm' _ _
  · exact (Function.update_of_ne hsm _ _).trans (h.1 sm' hsm)

end PioPins

/-! ### The loops -/

/-- The loop over a mask, by induction on the mask: each round deals with its lowest bit. -/
lemma withMaskLoop_spec (sm : BitVec 2) (dest : SetDest) (values pinMask : BitVec 32)
    (s : PioPins) :
    s.SameElse sm dest ((withMaskLoop sm dest values pinMask).foldl PioPins.write s) ∧
      ∀ i < 32, (((withMaskLoop sm dest values pinMask).foldl PioPins.write s).latch dest).getLsbD i
        = if pinMask.getLsbD i then values.getLsbD i else (s.latch dest).getLsbD i := by
  induction pinMask using withMaskLoop.induct generalizing s with
  | case1 =>
    rw [withMaskLoop, if_pos rfl]
    exact ⟨⟨fun _ _ => rfl, fun _ _ => rfl⟩, fun i _ => by simp⟩
  | case2 pinMask hmask ih =>
    have hlt : pinMask.ctz.toNat < 32 :=
      BitVec.lt_of_getLsbD (BitVec.getLsbD_true_ctz_of_ne_zero hmask)
    have hbase := setBase_fields 1#32 pinMask.ctz hlt
    have hcount := setCount_fields 1#32 pinMask.ctz (by decide) hlt
    rw [withMaskLoop, if_neg hmask, List.foldl_cons, List.foldl_cons]
    obtain ⟨hfirst, hbit⟩ := s.write_execSet sm dest
      ((values >>> pinMask.ctz.toNat &&& 1#32).setWidth 5) (1#32 <<< 26 ||| pinMask.ctz <<< 5)
    obtain ⟨hrest, hbits⟩ := ih ((s.write (.pinctrl sm (1#32 <<< 26 ||| pinMask.ctz <<< 5))).write
      (.execSet sm dest ((values >>> pinMask.ctz.toNat &&& 1#32).setWidth 5)))
    refine ⟨hfirst.trans hrest, fun i hi => ?_⟩
    rw [hbits i hi, hbit i hi, getLsbD_and_sub_one hmask, hbase, hcount]
    by_cases hik : i = pinMask.ctz.toNat
    · subst hik
      have htrue := BitVec.getLsbD_true_ctz_of_ne_zero hmask
      have hoffset : pinOffset pinMask.ctz.toNat pinMask.ctz.toNat = 0 := by
        rw [pinOffset]
        omega
      simp [hoffset, htrue]
    · have hoffset : pinOffset pinMask.ctz.toNat i ≠ 0 := by
        rw [pinOffset]
        omega
      simp [hoffset, hik]

/-- The loop over consecutive pins, five at a time. -/
lemma consecutiveLoop_spec (sm : BitVec 2) (isOut : Bool) (pin : BitVec 5) (count : ℕ)
    (s : PioPins) :
    s.SameElse sm .pindirs ((consecutiveLoop sm (if isOut then 0x1f#5 else 0#5) pin count).foldl
        PioPins.write s) ∧
      ∀ i < 32, ((consecutiveLoop sm (if isOut then 0x1f#5 else 0#5) pin count).foldl
          PioPins.write s).oe.getLsbD i =
        if pinOffset pin.toNat i < count then isOut else s.oe.getLsbD i := by
  have hvalue : ∀ k < 5, (if isOut then 0x1f#5 else 0#5).getLsbD k = isOut := by
    cases isOut <;> decide
  have hpin : ∀ pin : BitVec 5, (pin.setWidth 32).toNat = pin.toNat := fun pin => by
    rw [BitVec.toNat_setWidth, Nat.mod_eq_of_lt (by omega)]
  generalize (if isOut then 0x1f#5 else 0#5) = value at hvalue
  induction pin, count using consecutiveLoop.induct generalizing s with
  | case1 pin count hmore ih =>
    have hbase := setBase_fields 5#32 (pin.setWidth 32) (by rw [hpin]; omega)
    have hcount := setCount_fields 5#32 (pin.setWidth 32) (by decide) (by rw [hpin]; omega)
    rw [consecutiveLoop, if_pos hmore, List.foldl_cons, List.foldl_cons]
    obtain ⟨hfirst, hbit⟩ := s.write_execSet sm .pindirs value
      (5#32 <<< 26 ||| pin.setWidth 32 <<< 5)
    obtain ⟨hrest, hbits⟩ := ih ((s.write (.pinctrl sm
      (5#32 <<< 26 ||| pin.setWidth 32 <<< 5))).write (.execSet sm .pindirs value))
    refine ⟨hfirst.trans hrest, fun i hi => (hbits i hi).trans ?_⟩
    -- the pins of the first round are the first five, and the others come after them
    have hnext : pinOffset (pin + 5#5).toNat i = (pinOffset pin.toNat i + 27) % 32 := by
      rw [pinOffset, pinOffset, BitVec.toNat_add, show (5#5).toNat = 5 from rfl]
      omega
    have hlt : pinOffset pin.toNat i < 32 := Nat.mod_lt _ (by decide)
    have hround := hbit i hi
    rw [hbase, hcount, hpin, show (5#32).toNat = 5 from rfl] at hround
    rw [hnext]
    by_cases hfirst : pinOffset pin.toNat i < 5
    · rw [if_pos hfirst, hvalue _ hfirst] at hround
      rw [if_pos (show pinOffset pin.toNat i < count by omega)]
      split_ifs
      · rfl
      · exact hround
    · rw [if_neg hfirst] at hround
      simp only [show (pinOffset pin.toNat i + 27) % 32 < count - 5 ↔ pinOffset pin.toNat i < count
        by omega]
      split_ifs
      · rfl
      · exact hround
  | case2 pin count hless =>
    have hbase := setBase_fields (BitVec.ofNat 32 count) (pin.setWidth 32) (by rw [hpin]; omega)
    have hcount := setCount_fields (BitVec.ofNat 32 count) (pin.setWidth 32)
      (by rw [BitVec.toNat_ofNat]; omega) (by rw [hpin]; omega)
    rw [consecutiveLoop, if_neg hless]
    obtain ⟨hfirst, hbit⟩ := s.write_execSet sm .pindirs value
      (BitVec.ofNat 32 count <<< 26 ||| pin.setWidth 32 <<< 5)
    refine ⟨hfirst, fun i hi => (hbit i hi).trans ?_⟩
    rw [hbase, hcount, hpin, BitVec.toNat_ofNat, Nat.mod_eq_of_lt (by omega)]
    split_ifs with h
    · exact hvalue _ (by omega)
    · rfl

/-! ### The functions -/

/-- What a function that goes through a mask leaves. -/
lemma setWithMask_spec (dest : SetDest) (sm : BitVec 2) (values pinMask : BitVec 32) (s : PioPins) :
    ((setWithMask dest sm values pinMask s).foldl PioPins.write s).pinctrl = s.pinctrl ∧
      ((setWithMask dest sm values pinMask s).foldl PioPins.write s).latch dest =
        writeMasked (s.latch dest) values pinMask ∧
      ∀ dest' ≠ dest,
        ((setWithMask dest sm values pinMask s).foldl PioPins.write s).latch dest' =
          s.latch dest' := by
  obtain ⟨hsame, hbits⟩ := withMaskLoop_spec sm dest values pinMask s
  rw [setWithMask, List.foldl_append, List.foldl_cons, List.foldl_nil]
  refine ⟨hsame.restore.1, ?_, hsame.restore.2⟩
  rw [PioPins.latch_write_pinctrl]
  ext i hi
  rw [← BitVec.getLsbD_eq_getElem, ← BitVec.getLsbD_eq_getElem, hbits i hi, getLsbD_writeMasked]

/-- **Setting pins of the PIO.**  The functions with a mask write the levels or the directions of
the pins in the mask, and `pio_sm_set_consecutive_pindirs_` writes the directions of `count` pins
from `pin` on, where pin zero follows pin 31.  Other pins, the other latch and `PINCTRL` of all
state machines are afterwards as they were. -/
theorem pio_set_pins (s : PioPins) (sm : BitVec 2) :
    (∀ values pinMask, (pioSmSetPinsWithMask sm values pinMask s).foldl PioPins.write s =
      { s with out := writeMasked s.out values pinMask }) ∧
    (∀ dirs pinMask, (pioSmSetPindirsWithMask sm dirs pinMask s).foldl PioPins.write s =
      { s with oe := writeMasked s.oe dirs pinMask }) ∧
    ∀ pin count isOut, ∃ oe, (pioSmSetConsecutivePindirs sm pin count isOut s).foldl
        PioPins.write s = { s with oe := oe } ∧
      (∀ k < count, oe.getLsbD ((pin.toNat + k) % 32) = isOut) ∧
      ∀ i < 32, (∀ k < count, i ≠ (pin.toNat + k) % 32) → oe.getLsbD i = s.oe.getLsbD i := by
  refine ⟨fun values pinMask => ?_, fun dirs pinMask => ?_, fun pin count isOut => ?_⟩
  · obtain ⟨hctrl, hlatch, hother⟩ := setWithMask_spec .pins sm values pinMask s
    exact PioPins.ext hctrl hlatch (hother .pindirs (by decide))
  · obtain ⟨hctrl, hlatch, hother⟩ := setWithMask_spec .pindirs sm dirs pinMask s
    exact PioPins.ext hctrl (hother .pins (by decide)) hlatch
  · obtain ⟨hsame, hbits⟩ := consecutiveLoop_spec sm isOut pin count s
    rw [pioSmSetConsecutivePindirs, List.foldl_append, List.foldl_cons, List.foldl_nil]
    generalize (consecutiveLoop sm _ pin count).foldl PioPins.write s = t at hsame hbits ⊢
    refine ⟨t.oe, PioPins.ext hsame.restore.1 (hsame.restore.2 .pins (by decide)) rfl,
      fun k hk => ?_, fun i hi hne => ?_⟩
    · refine (hbits _ (Nat.mod_lt _ (by decide))).trans (if_pos ?_)
      rw [pinOffset]
      omega
    · refine (hbits i hi).trans (if_neg fun hlt => hne _ hlt ?_)
      rw [pinOffset]
      omega

end JdPico
