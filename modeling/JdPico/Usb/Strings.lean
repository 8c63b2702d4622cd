import JdPico.Lib.Run
import Mathlib.Data.List.GetD

/-!
# String descriptors

The host asks for strings by number, and `tud_descriptor_string_cb` answers with a string
descriptor: its length in bytes and its type, then the characters, sixteen bits each.  All answers
are made in one array, so that of an answer before may still be in it, behind the end of the new
one.  The serial number is made from the device identifier, when the first string is asked for.

Whatever was asked for before, an answer reads as the string with the number, and the serial number
stays the same (`usb_string_answers`).
-/

namespace JdPico

open Machine

/-! ### The code -/

/-- `jd_to_hex` on a device identifier, without the zero at the end.  It is not part of the
repository; what it writes is characters. -/
structure HexDigits where
  digits : UInt64 → Vector UInt8 16
  nonzero : ∀ devid, ∀ c ∈ digits devid, c ≠ 0

/-- The number of words of `_desc_str`. -/
abbrev descStrSize : ℕ := 32

/-- The static variables. -/
structure UsbStrings where
  serialStr : Vector UInt8 19
  descStr : Vector UInt16 descStrSize

/-- The variables at start-up. -/
def UsbStrings.initial : UsbStrings := ⟨.replicate 19 0, .replicate descStrSize 0⟩

/-- The text of a string literal. -/
def asciiText (s : String) : List UInt8 := s.toList.map fun c => c.toNat.toUInt8

/-- `string_descriptors`; `none` is the null pointer. -/
def stringDescriptors (serialStr : Vector UInt8 19) : List (Option (List UInt8)) :=
  [none, some (asciiText "Raspberry Pi"), some (asciiText "RP2040"), some serialStr.toList,
    some (asciiText "Jacdac CDC"), some (asciiText "Jacdac Gamepad"),
    some (asciiText "Jacdac Keyboard"), some (asciiText "Jacdac Mouse")]

/-- `TUSB_DESC_STRING`. -/
def tusbDescString : UInt16 := 3

/-- The loop that copies a string, with `n` characters of room left, and the final `len`. -/
def copyString (str : List UInt8) :
    (n len : ℕ) → len + n + 1 = descStrSize → Vector UInt16 descStrSize →
    ℕ × Vector UInt16 descStrSize
  | 0, len, _, descStr => (len, descStr)
  | n + 1, len, h, descStr =>
    if str.getD len 0 ≠ 0 then
      copyString str n (len + 1) (by omega) (descStr.set (1 + len) (str.getD len 0).toUInt16)
    else (len, descStr)

/-- `serial_str` once it is made: `JD`, the digits and a zero. -/
def serialOf (hex : HexDigits) (devid : UInt64) : Vector UInt8 19 :=
  (#v[0x4a, 0x44] : Vector UInt8 2) ++ hex.digits devid ++ (#v[0] : Vector UInt8 1)

/-- The serial number is made from the device identifier, unless it was before. -/
def UsbStrings.assignSerial (hex : HexDigits) (devid : UInt64) (s : UsbStrings) : UsbStrings :=
  if s.serialStr[0] = 0 then
    { s with serialStr := serialOf hex devid }
  else s

/-- The end of `tud_descriptor_string_cb`: the first word is written. -/
def UsbStrings.answer (s : UsbStrings) (copied : ℕ × Vector UInt16 descStrSize) :
    Option (Vector UInt16 descStrSize) × UsbStrings :=
  let descStr := copied.2.set 0 (tusbDescString <<< 8 ||| (2 * copied.1 + 2).toUInt16)
  (some descStr, { s with descStr := descStr })

/-- `tud_descriptor_string_cb`, with the array that it returns; `devid` is what `jd_device_id`
returns if it is called. -/
def tudDescriptorStringCb (hex : HexDigits) (s : UsbStrings) (devid : UInt64) (index : UInt8) :
    Option (Vector UInt16 descStrSize) × UsbStrings :=
  let s := s.assignSerial hex devid
  if index = 0 then s.answer (1, s.descStr.set 1 0x0409)
  else
    match (stringDescriptors s.serialStr)[index.toNat]? with
    | some (some str) => s.answer (copyString str 31 0 rfl s.descStr)
    | _ => (none, s)

/-- A request for a string. -/
abbrev StringRequest := UInt64 × UInt8

/-- The variables after a request. -/
def UsbStrings.next (hex : HexDigits) (s : UsbStrings) (r : StringRequest) : UsbStrings :=
  (tudDescriptorStringCb hex s r.1 r.2).2

/-! ### What the host reads -/

/-- A string descriptor as the host reads it: as many bytes as the first one says. -/
def readStringDescriptor (d : Vector UInt16 descStrSize) : Option (List UInt16) :=
  let bLength := (d[0] &&& 0xff).toNat
  if d[0] >>> 8 = tusbDescString ∧ bLength % 2 = 0 ∧ 2 ≤ bLength ∧ bLength ≤ 64 then
    some ((d.toList.take (bLength / 2)).drop 1)
  else none

/-- The strings of a device by their numbers; the first one is the list of languages. -/
def usbStrings (hex : HexDigits) (devid : UInt64) : List (List UInt16) :=
  [0x0409] :: [asciiText "Raspberry Pi", asciiText "RP2040",
    asciiText "JD" ++ (hex.digits devid).toList, asciiText "Jacdac CDC",
    asciiText "Jacdac Gamepad", asciiText "Jacdac Keyboard", asciiText "Jacdac Mouse"].map
      fun text => text.map UInt8.toUInt16

/-! ### Copying -/

/-- The characters of a C string, up to the zero at its end. -/
def cString (s : List UInt8) : List UInt8 := s.takeWhile (· ≠ 0)

/-- A C string goes on as long as the character is not zero. -/
lemma cString_drop {str : List UInt8} {len : ℕ} (h : str.getD len 0 ≠ 0) :
    cString (str.drop len) = str.getD len 0 :: cString (str.drop (len + 1)) := by
  have hlen : len < str.length := by
    by_contra hlen
    exact h (List.getD_eq_default _ _ (not_lt.mp hlen))
  rw [List.getD_eq_getElem _ _ hlen] at h ⊢
  rw [List.drop_eq_getElem_cons hlen, cString, List.takeWhile_cons_of_pos (by simpa using h),
    cString]

/-- It ends there otherwise. -/
lemma cString_drop_eq_nil {str : List UInt8} {len : ℕ} (h : str.getD len 0 = 0) :
    cString (str.drop len) = [] := by
  rcases lt_or_ge len str.length with hlen | hlen
  · rw [List.getD_eq_getElem _ _ hlen] at h
    rw [List.drop_eq_getElem_cons hlen, cString, List.takeWhile_cons_of_neg (by simpa using h)]
  · rw [List.drop_of_length_le hlen]
    rfl

/-- The loop appends the string, as far as there is room, to what it has copied. -/
lemma copyString_spec (str : List UInt8) (n len : ℕ) (h : len + n + 1 = descStrSize)
    (d : Vector UInt16 descStrSize) :
    (copyString str n len h d).1 < descStrSize ∧
      (copyString str n len h d).2.toList.take (1 + (copyString str n len h d).1) =
        d.toList.take (1 + len) ++ ((cString (str.drop len)).take n).map UInt8.toUInt16 := by
  induction n generalizing len d with
  | zero =>
    rw [copyString]
    exact ⟨by omega, by simp⟩
  | succ n ih =>
    by_cases hc : str.getD len 0 = 0
    · rw [copyString, if_neg (not_not.mpr hc), cString_drop_eq_nil hc]
      exact ⟨by omega, by simp⟩
    · rw [copyString, if_pos hc, cString_drop hc]
      obtain ⟨hle, htake⟩ := ih (len + 1) (by omega) (d.set (1 + len) (str.getD len 0).toUInt16)
      refine ⟨hle, ?_⟩
      have hset : (d.set (1 + len) (str.getD len 0).toUInt16).toList.take (1 + (len + 1)) =
          d.toList.take (1 + len) ++ [(str.getD len 0).toUInt16] := by
        rw [Vector.toList_set, ← Nat.add_assoc, List.take_add_one, List.take_set_of_le (by omega)]
        simp [show 1 + len < descStrSize by omega]
      rw [htake, hset, List.take_succ_cons, List.map_cons, List.append_assoc,
        List.singleton_append]

/-! ### Answers -/

/-- The first word says how long the answer is. -/
lemma header_spec : ∀ len < descStrSize,
    (tusbDescString <<< 8 ||| (2 * len + 2).toUInt16) >>> 8 = tusbDescString ∧
      ((tusbDescString <<< 8 ||| (2 * len + 2).toUInt16) &&& 0xff).toNat = 2 * len + 2 := by
  decide

/-- An answer reads as what was copied. -/
lemma read_answer {s : UsbStrings} {copied : ℕ × Vector UInt16 descStrSize} {text : List UInt16}
    (hlen : copied.1 < descStrSize)
    (htext : (copied.2.toList.take (1 + copied.1)).drop 1 = text) :
    (s.answer copied).1.map readStringDescriptor = some (some text) := by
  obtain ⟨htype, hbytes⟩ := header_spec copied.1 hlen
  have hbLength : 2 * copied.1 + 2 ≤ 64 := by
    unfold descStrSize at hlen
    omega
  have hread : ((copied.2.set 0 (tusbDescString <<< 8 ||| (2 * copied.1 + 2).toUInt16)).toList.take
      ((2 * copied.1 + 2) / 2)).drop 1 = text := by
    rw [Vector.toList_set, show (2 * copied.1 + 2) / 2 = 1 + copied.1 by omega, List.take_set,
      List.drop_set, if_pos one_pos, htext]
  simp only [UsbStrings.answer, readStringDescriptor, Option.map_some, Vector.getElem_set_self]
  rw [htype, hbytes, if_pos ⟨rfl, by omega, by omega, hbLength⟩, hread]

/-- A string that is copied whole reads as it is. -/
lemma read_copyString {s : UsbStrings} {str : List UInt8} (hlen : (cString str).length ≤ 31) :
    (s.answer (copyString str 31 0 rfl s.descStr)).1.map readStringDescriptor =
      some (some ((cString str).map UInt8.toUInt16)) := by
  obtain ⟨hle, htake⟩ := copyString_spec str 31 0 rfl s.descStr
  refine read_answer hle ?_
  rw [htake, List.drop_zero, List.take_of_length_le hlen, List.drop_left' (by simp)]

/-- The serial number has no zero but the one at its end. -/
lemma cString_serialOf (hex : HexDigits) (devid : UInt64) :
    cString (serialOf hex devid).toList = asciiText "JD" ++ (hex.digits devid).toList := by
  have hdigits : ∀ c ∈ (hex.digits devid).toList, decide (c ≠ 0) = true := by
    intro c hc
    exact decide_eq_true (hex.nonzero devid c (Vector.mem_toList_iff.mp hc))
  have hlist : (serialOf hex devid).toList =
      asciiText "JD" ++ ((hex.digits devid).toList ++ [0]) := by
    simp only [serialOf, Vector.toList_append]
    rfl
  have hletters : ∀ c ∈ asciiText "JD", decide (c ≠ 0) = true := by
    simp [asciiText]
  rw [hlist, cString, List.takeWhile_append_of_pos hletters,
    List.takeWhile_append_of_pos hdigits]
  simp

/-- A number other than zero stands for the same string in the table and for the host, or for none
in either. -/
lemma stringDescriptors_cases (hex : HexDigits) (devid : UInt64) {i : ℕ} (hi : i ≠ 0) :
    ((stringDescriptors (serialOf hex devid))[i]? = none ∧ (usbStrings hex devid)[i]? = none) ∨
      ∃ str, (stringDescriptors (serialOf hex devid))[i]? = some (some str) ∧
        (cString str).length ≤ 31 ∧
        (usbStrings hex devid)[i]? = some ((cString str).map UInt8.toUInt16) := by
  rcases lt_or_ge i 8 with hlt | hge
  · right
    by_cases hserial : i = 3
    · subst hserial
      refine ⟨(serialOf hex devid).toList, rfl, ?_, ?_⟩
      · simp [cString_serialOf, asciiText]
      · rw [cString_serialOf]
        rfl
    · interval_cases i <;>
        first | contradiction | exact ⟨_, rfl, by decide, rfl⟩
  · left
    exact ⟨List.getElem?_eq_none hge, List.getElem?_eq_none hge⟩

/-! ### All requests -/

/-- The serial number is not made yet, or it is that of the first request. -/
def UsbStrings.SerialOfFirst (hex : HexDigits) (before : List StringRequest) (s : UsbStrings) :
    Prop :=
  s.serialStr = before.head?.elim (.replicate 19 0) fun r => serialOf hex r.1

/-- After the next request it is made. -/
lemma UsbStrings.SerialOfFirst.assignSerial {hex : HexDigits} {before : List StringRequest}
    {s : UsbStrings} (h : s.SerialOfFirst hex before) (r : StringRequest) :
    (s.assignSerial hex r.1).serialStr = serialOf hex (before.head?.getD r).1 := by
  unfold UsbStrings.assignSerial
  cases before with
  | nil => rw [if_pos (by rw [h]; rfl), List.head?_nil, Option.getD_none]
  | cons first before =>
    have hserial : s.serialStr = serialOf hex first.1 := h
    have hmade : (serialOf hex first.1)[0] ≠ 0 := by
      rw [serialOf, Vector.getElem_append_left (by decide), Vector.getElem_append_left (by decide)]
      decide
    rw [if_neg (by rw [hserial]; exact hmade), hserial, List.head?_cons, Option.getD_some]

/-- A request makes the serial number and nothing else of it. -/
lemma serialStr_tudDescriptorStringCb (hex : HexDigits) (s : UsbStrings) (devid : UInt64)
    (index : UInt8) : (tudDescriptorStringCb hex s devid index).2.serialStr =
      (s.assignSerial hex devid).serialStr := by
  unfold tudDescriptorStringCb
  by_cases hindex : index = 0
  · rw [if_pos hindex]
    rfl
  · rw [if_neg hindex]
    split <;> rfl

/-- Requests keep the serial number of the first one. -/
lemma serialOfFirst_foldl (hex : HexDigits) (before : List StringRequest) :
    (before.foldl (UsbStrings.next hex) .initial).SerialOfFirst hex before := by
  have hs : UsbStrings.initial.SerialOfFirst hex [] := rfl
  refine foldl_history (P := fun before s => UsbStrings.SerialOfFirst hex before s) ?_ hs before
  intro before s r h
  have hnext : (s.next hex r).serialStr = serialOf hex (before.head?.getD r).1 := by
    rw [UsbStrings.next, serialStr_tudDescriptorStringCb, h.assignSerial]
  rw [UsbStrings.SerialOfFirst, hnext]
  cases before <;> rfl

/-- **The host reads the strings.**  Whatever was asked for before, the answer to a request is a
string descriptor with the string that has the number, and there is no answer if no string has it.
The serial number is that of the device identifier at the time of the first request. -/
theorem usb_string_answers (hex : HexDigits) (before : List StringRequest) (r : StringRequest) :
    (tudDescriptorStringCb hex (before.foldl (UsbStrings.next hex) .initial) r.1 r.2).1.map
        readStringDescriptor =
      ((usbStrings hex (before.head?.getD r).1)[r.2.toNat]?).map some := by
  have hserial := (serialOfFirst_foldl hex before).assignSerial r
  generalize before.foldl (UsbStrings.next hex) .initial = s at hserial
  generalize (before.head?.getD r).1 = first at hserial
  obtain ⟨devid, index⟩ := r
  unfold tudDescriptorStringCb
  by_cases hindex : index = 0
  · subst hindex
    rw [if_pos rfl]
    refine read_answer (show 1 < descStrSize by decide) ?_
    rw [Vector.toList_set, List.take_add_one, List.take_set_of_le le_rfl]
    simp
  · have hi : index.toNat ≠ 0 := fun h => hindex (UInt8.toNat_inj.mp h)
    rw [if_neg hindex, hserial]
    rcases stringDescriptors_cases hex first hi with ⟨hnone, hhost⟩ | ⟨str, hsome, hlen, hhost⟩
    · rw [hnone, hhost]
      rfl
    · rw [hsome, hhost]
      exact read_copyString hlen

/-- `RP2040`, after the longer name of the manufacturer. -/
example :
    let hex : HexDigits := ⟨fun _ => .replicate 16 0x30, fun _ c hc => by
      rw [(Vector.mem_replicate.mp hc).2]
      decide⟩
    ((tudDescriptorStringCb hex (UsbStrings.next hex .initial (7, 1)) 7 2).1.bind
      readStringDescriptor) = some [0x52, 0x50, 0x32, 0x30, 0x34, 0x30] := by
  decide

end JdPico
