import Mathlib.Data.List.Basic
import Mathlib.Tactic

/-!
# Writes to the I2C bus

`i2c.c` uses one of the two I2C blocks, chosen by its pins.  `i2c_write_ex2` writes two buffers one
after the other, with `i2c_write_blocking` of the SDK called for each of them and told not to end
the transaction after the first.

The SDK is not part of the repository and is a parameter (`I2cSdk`).  What is known of it is how
it writes to a device that acknowledges everything (`I2cSdk.Acknowledges`): a start condition, the
address, the bytes, and a stop condition unless the caller wants none; and if the previous call on
the block had wanted none, the start condition is a repeated one.

So the second buffer does not follow the first one on the bus: it is preceded by a repeated start
condition and by the address.  The two buffers are one write exactly when the second is empty
(`i2c_write_ex2_one_write_iff`).
-/

namespace JdPico

/-- The two I2C blocks. -/
inductive I2cInst where
  | i2c0
  | i2c1
  deriving DecidableEq, Repr

/-- What is seen on the bus. -/
inductive I2cSignal where
  | start
  | repeatedStart
  /-- The address of a device, and whether it is to be read. -/
  | address (addr : UInt8) (read : Bool)
  | byte (b : UInt8)
  | stop
  deriving DecidableEq, Repr

/-- A block and its bus. -/
structure I2cBus where
  /-- The previous call did not end its transaction. -/
  restartOnNext : Bool
  /-- What was seen on the bus so far. -/
  trace : List I2cSignal
  deriving DecidableEq, Repr

/-- The calls of the SDK, with what they return. -/
structure I2cSdk where
  /-- `i2c_write_blocking(i2c, addr, src, len, nostop)`. -/
  writeBlocking : I2cBus → UInt8 → List UInt8 → Bool → ℤ × I2cBus
  /-- `i2c_read_blocking(i2c, addr, dst, len, nostop)`, with the bytes stored in `dst`. -/
  readBlocking : I2cBus → UInt8 → ℕ → Bool → ℤ × List UInt8 × I2cBus

/-- What a write of `src` looks like on the bus. -/
def I2cBus.transaction (bus : I2cBus) (addr : UInt8) (src : List UInt8) (nostop : Bool) :
    List I2cSignal :=
  [if bus.restartOnNext then I2cSignal.repeatedStart else .start, .address addr false] ++
    src.map I2cSignal.byte ++ if nostop then [] else [.stop]

/-- The device at `addr` acknowledges everything that is written to it. -/
def I2cSdk.Acknowledges (sdk : I2cSdk) (addr : UInt8) : Prop :=
  ∀ bus src nostop, src ≠ [] →
    sdk.writeBlocking bus addr src nostop =
      ((src.length : ℤ), ⟨nostop, bus.trace ++ bus.transaction addr src nostop⟩)

/-- The state of the driver and the two blocks. -/
structure I2cState where
  /-- `i2c_inst`; `none` is the null pointer. -/
  i2cInst : Option I2cInst
  bus : I2cInst → I2cBus

/-- `I2C_INST`: the block that a pin belongs to. -/
def i2cInstOf (pin : UInt8) : I2cInst := if pin >>> 1 &&& 1 ≠ 0 then .i2c1 else .i2c0

/-- `i2c_init_`, as far as it chooses the block; `sda` and `scl` are the pins of the device
configuration, `0xff` if there is none. -/
def i2cInit (s : I2cState) (sda scl : UInt8) : ℤ × I2cState :=
  if s.i2cInst.isSome then (0, s)
  else if sda = 0xff ∨ scl = 0xff then (-1, s)
  else if i2cInstOf sda ≠ i2cInstOf scl then (-2, s)
  else if sda &&& 1 ≠ 0 ∨ scl &&& 1 = 0 then (-3, s)
  else (0, { s with i2cInst := some (i2cInstOf sda) })

namespace I2cState

/-- `i2c_write_blocking` on a block. -/
def writeBlocking (sdk : I2cSdk) (inst : I2cInst) (addr : UInt8) (src : List UInt8) (nostop : Bool)
    (s : I2cState) : ℤ × I2cState :=
  let (r, bus) := sdk.writeBlocking (s.bus inst) addr src nostop
  (r, { s with bus := Function.update s.bus inst bus })

end I2cState

/-- `i2c_read_ex`, with the bytes stored. -/
def i2cReadEx (sdk : I2cSdk) (s : I2cState) (addr : UInt8) (len : ℕ) :
    ℤ × List UInt8 × I2cState :=
  match s.i2cInst with
  | none => (-1, [], s)
  | some inst =>
    let (r, dst, bus) := sdk.readBlocking (s.bus inst) addr len false
    (if r < 0 then r else 0, dst, { s with bus := Function.update s.bus inst bus })

/-- `i2c_write_ex2`. -/
def i2cWriteEx2 (sdk : I2cSdk) (s : I2cState) (addr : UInt8) (src src2 : List UInt8)
    (repeated : Bool) : ℤ × I2cState :=
  match s.i2cInst with
  | none => (-1, s)
  | some inst =>
    let (r, s) := s.writeBlocking sdk inst addr src (repeated || 0 < src2.length)
    if r < 0 then (r, s)
    else
      let (r, s) := if 0 < src2.length then s.writeBlocking sdk inst addr src2 repeated else (r, s)
      (if r < 0 then r else 0, s)

variable {sdk : I2cSdk} {s : I2cState} {inst : I2cInst} {addr : UInt8} {src src2 : List UInt8}
  {repeated : Bool}

/-- The two buffers are written as one: what is seen on the bus is one start condition, one address,
all the bytes and at most one stop condition, as if there were only one buffer. -/
structure OneBusWrite (sdk : I2cSdk) (s : I2cState) (inst : I2cInst) (addr : UInt8)
    (src src2 : List UInt8) (repeated : Bool) : Prop where
  shape : ((i2cWriteEx2 sdk s addr src src2 repeated).2.bus inst).trace =
    (s.bus inst).trace ++ (s.bus inst).transaction addr (src ++ src2) repeated
  same : ((i2cWriteEx2 sdk s addr src src2 repeated).2.bus inst).trace =
    ((i2cWriteEx2 sdk s addr (src ++ src2) [] repeated).2.bus inst).trace

lemma I2cState.writeBlocking_of_acknowledges (h : sdk.Acknowledges addr) (hsrc : src ≠ [])
    (nostop : Bool) :
    s.writeBlocking sdk inst addr src nostop =
      ((src.length : ℤ), { s with
        bus := Function.update s.bus inst
          ⟨nostop, (s.bus inst).trace ++ (s.bus inst).transaction addr src nostop⟩ }) := by
  simp [writeBlocking, h _ _ _ hsrc]

/-- One buffer is one write. -/
lemma i2cWriteEx2_one (h : sdk.Acknowledges addr) (hinst : s.i2cInst = some inst)
    (hsrc : src ≠ []) :
    i2cWriteEx2 sdk s addr src [] repeated =
      (0, { s with
        bus := Function.update s.bus inst
          ⟨repeated, (s.bus inst).trace ++ (s.bus inst).transaction addr src repeated⟩ }) := by
  have hok : ¬(src.length : ℤ) < 0 := by omega
  simp [i2cWriteEx2, hinst, I2cState.writeBlocking_of_acknowledges h hsrc, hok]

/-- Two buffers are two writes: the second starts with a repeated start condition. -/
lemma i2cWriteEx2_two (h : sdk.Acknowledges addr) (hinst : s.i2cInst = some inst) (hsrc : src ≠ [])
    (hsrc2 : src2 ≠ []) :
    ((i2cWriteEx2 sdk s addr src src2 repeated).2.bus inst).trace =
      (s.bus inst).trace ++ (s.bus inst).transaction addr src true ++
        ([I2cSignal.repeatedStart, .address addr false] ++ src2.map I2cSignal.byte ++
          if repeated then [] else [.stop]) := by
  have hlen : 0 < src2.length := List.length_pos_iff.mpr hsrc2
  have hok : ¬(src.length : ℤ) < 0 := by omega
  simp [i2cWriteEx2, hinst, I2cState.writeBlocking_of_acknowledges h hsrc,
    I2cState.writeBlocking_of_acknowledges h hsrc2, hlen, hok, I2cBus.transaction]

/-- **Two-part writes.**  On a device that acknowledges everything, `i2c_write_ex2` writes its two
buffers as one exactly when the second is empty. -/
theorem i2c_write_ex2_one_write_iff (sdk : I2cSdk) (addr : UInt8) (h : sdk.Acknowledges addr)
    (s : I2cState) (inst : I2cInst) (hinst : s.i2cInst = some inst) (src src2 : List UInt8)
    (hsrc : src ≠ []) (repeated : Bool) :
    OneBusWrite sdk s inst addr src src2 repeated ↔ src2 = [] := by
  constructor
  · intro hone
    by_contra hsrc2
    -- the second part brings two signals more
    have hshape := congrArg List.length hone.shape
    rw [i2cWriteEx2_two h hinst hsrc hsrc2] at hshape
    cases repeated <;> simp [I2cBus.transaction] at hshape <;> omega
  · rintro rfl
    refine ⟨?_, by rw [List.append_nil]⟩
    rw [i2cWriteEx2_one h hinst hsrc, List.append_nil]
    simp

/-- An SDK with one device, which acknowledges everything and reads as zeros. -/
def acknowledgingSdk : I2cSdk where
  writeBlocking bus addr src nostop :=
    (src.length, ⟨nostop, bus.trace ++ bus.transaction addr src nostop⟩)
  readBlocking bus addr len nostop :=
    (len, List.replicate len 0, ⟨nostop, bus.trace ++
      ([if bus.restartOnNext then I2cSignal.repeatedStart else .start, .address addr true] ++
        List.replicate len (I2cSignal.byte 0) ++ if nostop then [] else [.stop])⟩)

/-- The driver after `i2c_init_` on the pins 4 and 5. -/
def i2cStarted : I2cState := (i2cInit ⟨none, fun _ => ⟨false, []⟩⟩ 4 5).2

theorem i2c_write_ex2_one_write_register :
    OneBusWrite acknowledgingSdk i2cStarted .i2c0 0x3c [0x00, 0xaf] [] false := by
  exact (i2c_write_ex2_one_write_iff acknowledgingSdk 0x3c (fun _ _ _ _ => rfl) i2cStarted .i2c0
    (by decide) _ _ (by decide) _).mpr rfl

/-- A register number and its value: the value is addressed again. -/
theorem i2c_write_ex2_two_writes :
    ¬OneBusWrite acknowledgingSdk i2cStarted .i2c0 0x3c [0x01] [0x02] false := by
  intro h
  exact absurd h.shape (by decide)

end JdPico
