import JdPico.Lib.Run
import Mathlib.Data.List.Basic

/-!
# The USB bridge

`usb.c` connects the Jacdac bridge with the serial port of TinyUSB.  `jd_usb_process`, which the
main loop calls, takes pieces of at most 64 bytes from `jd_usb_pull` and writes them to the TX FIFO
of the port, as long as the FIFO has room for the largest piece.  It ignores how much
`tud_cdc_n_write` has taken.  `tud_cdc_rx_cb`, which `tud_task` calls when bytes have come, reads
them in pieces of at most 64 and gives them to `jd_usb_push`.

TinyUSB is represented by what its documentation says of the calls: two FIFOs, of the sizes in
`tusb_config.h`, and an endpoint that takes up to 64 bytes from the TX FIFO when it is free and the
device is ready.  A bus reset, which empties the FIFOs, is left out.

The bytes that go each way are kept, so that what comes out can be compared with what went in.
-/

namespace JdPico

open Machine

/-- `CFG_TUD_CDC_TX_BUFSIZE`. -/
def cdcTxBufSize : ℕ := 128

/-- The size of a packet, and of the buffers of `usb.c`. -/
def usbPacketSize : ℕ := 64

/-- What `jd_usb_pull` gives when it gives something. -/
abbrev UsbPiece := { piece : List UInt8 // 0 < piece.length ∧ piece.length ≤ usbPacketSize }

/-- The serial port, with the bytes that have come and gone. -/
structure UsbCdc where
  /-- `tud_cdc_connected`. -/
  connected : Bool
  txFifo : List UInt8
  /-- What the endpoint is sending; it is free if there is nothing. -/
  epIn : List UInt8
  rxFifo : List UInt8
  /-- What `jd_usb_pull` has to give. -/
  source : List UsbPiece
  /-- What was given to `jd_usb_pull` to hand out so far. -/
  supplied : List UInt8
  /-- What the host has read. -/
  delivered : List UInt8
  /-- What the host has sent. -/
  received : List UInt8
  /-- What was given to `jd_usb_push`, piece by piece. -/
  pushed : List (List UInt8)

namespace UsbCdc

/-- `tud_cdc_n_write_available`. -/
def writeAvailable (s : UsbCdc) : ℕ := cdcTxBufSize - s.txFifo.length

/-- `tud_cdc_n_write`: the FIFO takes what it has room for. -/
def write (bytes : List UInt8) (s : UsbCdc) : UsbCdc :=
  { s with txFifo := s.txFifo ++ bytes.take s.writeAvailable }

/-- `tud_cdc_n_write_flush`: the endpoint takes a packet, if it is free and the device is ready. -/
def flush (ready : Bool) (s : UsbCdc) : UsbCdc :=
  if ready ∧ s.epIn = [] then
    { s with epIn := s.txFifo.take usbPacketSize, txFifo := s.txFifo.drop usbPacketSize }
  else s

/-- The loop of `jd_usb_process`, with what `jd_usb_pull` has to give. -/
def pump (ready : Bool) : List UsbPiece → UsbCdc → UsbCdc
  | [], s => { s with source := [] }
  | piece :: rest, s =>
    if usbPacketSize ≤ s.writeAvailable then pump ready rest ((s.write piece).flush ready)
    else { s with source := piece :: rest }

/-- `jd_usb_process`, between the two calls of `tud_task`. -/
def jdUsbProcess (ready : Bool) (s : UsbCdc) : UsbCdc :=
  if s.connected then s.pump ready s.source else s

/-- `tud_cdc_rx_cb`. -/
def tudCdcRxCb (s : UsbCdc) : UsbCdc :=
  if s.rxFifo = [] then s
  else tudCdcRxCb { s with
    pushed := s.pushed ++ [s.rxFifo.take usbPacketSize], rxFifo := s.rxFifo.drop usbPacketSize }
termination_by s.rxFifo.length
decreasing_by
  rename_i hne
  have := List.length_pos_iff.mpr hne
  simp only [List.length_drop, usbPacketSize]
  omega

end UsbCdc

/-- The steps of the system. -/
inductive UsbAct where
  /-- The bridge has something to send. -/
  | supply (piece : UsbPiece)
  /-- `tud_task` notes that the host has opened or closed the port. -/
  | connect (connected : Bool)
  /-- `tud_task` gets a packet from the host and calls `tud_cdc_rx_cb`. -/
  | packet (bytes : List UInt8)
  /-- `tud_task` notes that the host has read what was in the endpoint, and flushes. -/
  | sent (ready : Bool)
  /-- `jd_usb_process`. -/
  | process (ready : Bool)

namespace UsbCdc

/-- The port at start-up. -/
def initial : UsbCdc := ⟨false, [], [], [], [], [], [], [], []⟩

/-- One step of the system. -/
def step (s : UsbCdc) : UsbAct → Option UsbCdc
  | .supply piece =>
    some { s with source := s.source ++ [piece], supplied := s.supplied ++ piece }
  | .connect connected => some { s with connected := connected }
  | .packet bytes =>
    some (tudCdcRxCb { s with received := s.received ++ bytes, rxFifo := s.rxFifo ++ bytes })
  | .sent ready => some (flush ready { s with delivered := s.delivered ++ s.epIn, epIn := [] })
  | .process ready => some (s.jdUsbProcess ready)

/-! ### To the host -/

variable {s t : UsbCdc} {ready : Bool}

/-- The bytes that `jd_usb_pull` has to give. -/
def waiting (s : UsbCdc) : List UInt8 := (s.source.map Subtype.val).flatten

/-- What is on the way from `jd_usb_pull` to the host. -/
def underway (s : UsbCdc) : List UInt8 := s.epIn ++ s.txFifo

/-- A flush moves bytes on, in their order. -/
lemma underway_flush (s : UsbCdc) (ready : Bool) : (s.flush ready).underway = s.underway := by
  rw [flush]
  split_ifs with h
  · simp [underway, h.2]
  · rfl

/-- A piece for which there is room is written as a whole. -/
lemma write_of_room {piece : List UInt8} (h : piece.length ≤ s.writeAvailable) :
    s.write piece = { s with txFifo := s.txFifo ++ piece } := by
  rw [write, List.take_of_length_le h]

/-- The parts of the port that have nothing to do with sending. -/
structure SameElse (s t : UsbCdc) : Prop where
  connected : t.connected = s.connected
  rxFifo : t.rxFifo = s.rxFifo
  supplied : t.supplied = s.supplied
  delivered : t.delivered = s.delivered
  received : t.received = s.received
  pushed : t.pushed = s.pushed

lemma SameElse.refl (s : UsbCdc) : s.SameElse s := ⟨rfl, rfl, rfl, rfl, rfl, rfl⟩

lemma sameElse_flush (s : UsbCdc) (ready : Bool) : s.SameElse (s.flush ready) := by
  rw [flush]
  split_ifs
  · exact ⟨rfl, rfl, rfl, rfl, rfl, rfl⟩
  · exact .refl s

lemma SameElse.trans {u : UsbCdc} (h₁ : s.SameElse t) (h₂ : t.SameElse u) : s.SameElse u :=
  ⟨h₂.connected.trans h₁.connected, h₂.rxFifo.trans h₁.rxFifo, h₂.supplied.trans h₁.supplied,
    h₂.delivered.trans h₁.delivered, h₂.received.trans h₁.received, h₂.pushed.trans h₁.pushed⟩

/-- The FIFO does not grow when it is flushed. -/
lemma length_txFifo_flush (s : UsbCdc) (ready : Bool) :
    (s.flush ready).txFifo.length ≤ s.txFifo.length := by
  rw [flush]
  split_ifs
  · simp
  · exact le_rfl

/-- The bytes the FIFO and the endpoint can still take before the endpoint has sent something. -/
def capacity (s : UsbCdc) : ℕ := s.writeAvailable + if s.epIn = [] then usbPacketSize else 0

/-- A flush does not make room for more. -/
lemma capacity_flush_le (h : s.txFifo.length ≤ cdcTxBufSize) :
    (s.flush ready).capacity ≤ s.capacity := by
  rw [flush]
  split_ifs with hfree
  · rw [capacity, capacity, if_pos hfree.2]
    by_cases hempty : s.txFifo = []
    · simp [writeAvailable, hempty]
    · have htake : s.txFifo.take usbPacketSize ≠ [] := by simp [usbPacketSize, hempty]
      simp only [if_neg htake, writeAvailable, List.length_drop]
      omega
  · exact le_rfl

/-- One turn of the loop. -/
structure Turn (piece : UsbPiece) (s t : UsbCdc) : Prop extends s.SameElse t where
  underway : t.underway = s.underway ++ piece
  room : t.txFifo.length ≤ cdcTxBufSize
  capacity : t.capacity + piece.val.length ≤ s.capacity

/-- With room for a packet, a turn passes the piece on as a whole. -/
lemma turn_of_room (ready : Bool) (piece : UsbPiece) (hroom : usbPacketSize ≤ s.writeAvailable) :
    Turn piece s ((s.write piece).flush ready) := by
  have hpiece := piece.property.2
  rw [write_of_room (hpiece.trans hroom)]
  have hfits : (s.txFifo ++ piece.val).length ≤ cdcTxBufSize := by
    simp only [writeAvailable, usbPacketSize, cdcTxBufSize] at hroom hpiece ⊢
    rw [List.length_append]
    omega
  have hwrite : s.SameElse { s with txFifo := s.txFifo ++ piece } := ⟨rfl, rfl, rfl, rfl, rfl, rfl⟩
  refine ⟨hwrite.trans (sameElse_flush _ ready), ?_, ?_, ?_⟩
  · rw [underway_flush]
    simp [UsbCdc.underway]
  · exact (length_txFifo_flush _ _).trans hfits
  · refine le_trans (Nat.add_le_add_right (capacity_flush_le hfits) _) ?_
    simp only [UsbCdc.capacity, writeAvailable, List.length_append] at hroom ⊢
    rw [List.length_append] at hfits
    omega

/-- What the loop does with the pieces: it passes some on and leaves the others, and it stops only
when there is no piece or no room. -/
structure Pumped (pieces : List UsbPiece) (s t : UsbCdc) : Prop extends s.SameElse t where
  underway : t.underway ++ t.waiting = s.underway ++ (pieces.map Subtype.val).flatten
  room : t.txFifo.length ≤ cdcTxBufSize
  taken : ∃ taken, pieces = taken ++ t.source ∧ t.capacity + taken.length ≤ s.capacity
  full : t.source = [] ∨ t.writeAvailable < usbPacketSize

/-- The loop, by induction on the pieces. -/
lemma pumped_pump (ready : Bool) (pieces : List UsbPiece)
    (h : s.txFifo.length ≤ cdcTxBufSize) :
    Pumped pieces s (s.pump ready pieces) := by
  induction pieces generalizing s with
  | nil =>
    exact ⟨⟨rfl, rfl, rfl, rfl, rfl, rfl⟩, rfl, h, ⟨[], rfl, le_rfl⟩, .inl rfl⟩
  | cons piece rest ih =>
    rw [pump]
    split_ifs with hroom
    · have hturn := turn_of_room ready piece hroom
      have hrest := ih hturn.room
      obtain ⟨taken, htaken, hcap⟩ := hrest.taken
      refine ⟨hturn.toSameElse.trans hrest.toSameElse, ?_, hrest.room, ⟨piece :: taken, ?_, ?_⟩,
        hrest.full⟩
      · rw [hrest.underway, hturn.underway]
        simp
      · rw [List.cons_append, ← htaken]
      · have := hturn.capacity
        have := piece.property.1
        rw [List.length_cons]
        omega
    · exact ⟨⟨rfl, rfl, rfl, rfl, rfl, rfl⟩, rfl, h, ⟨[], rfl, le_rfl⟩, .inr (not_le.mp hroom)⟩

/-! ### From the host -/

/-- The callback gives everything in the FIFO to `jd_usb_push`, in pieces that are not empty and fit
into its buffer. -/
lemma tudCdcRxCb_eq (s : UsbCdc) :
    ∃ pieces : List (List UInt8),
      s.tudCdcRxCb = { s with pushed := s.pushed ++ pieces, rxFifo := [] } ∧
      pieces.flatten = s.rxFifo ∧
      ∀ piece ∈ pieces, 0 < piece.length ∧ piece.length ≤ usbPacketSize := by
  induction s using tudCdcRxCb.induct with
  | case1 s hempty =>
    refine ⟨[], ?_, by simp [hempty], by simp⟩
    rw [tudCdcRxCb, if_pos hempty, List.append_nil, ← hempty]
  | case2 s hne ih =>
    obtain ⟨pieces, heq, hflat, hsize⟩ := ih
    refine ⟨s.rxFifo.take usbPacketSize :: pieces, ?_, ?_, ?_⟩
    · rw [tudCdcRxCb, if_neg hne, heq]
      simp
    · rw [List.flatten_cons, hflat, List.take_append_drop]
    · refine List.forall_mem_cons.mpr ⟨?_, hsize⟩
      have := List.length_pos_iff.mpr hne
      simp only [List.length_take, usbPacketSize]
      omega

/-- The invariant. -/
structure Inv (s : UsbCdc) : Prop where
  room : s.txFifo.length ≤ cdcTxBufSize
  supplied : s.supplied = s.delivered ++ (s.underway ++ s.waiting)
  received : s.received = s.pushed.flatten ++ s.rxFifo
  drained : s.rxFifo = []
  pieces : ∀ piece ∈ s.pushed, 0 < piece.length ∧ piece.length ≤ usbPacketSize

lemma inv_initial : initial.Inv := ⟨by decide, rfl, rfl, rfl, by simp [initial]⟩

lemma Inv.jdUsbProcess (h : s.Inv) (ready : Bool) : (s.jdUsbProcess ready).Inv := by
  rw [UsbCdc.jdUsbProcess]
  split_ifs
  · have hpump := pumped_pump ready s.source h.room
    refine ⟨hpump.room, ?_, ?_, hpump.rxFifo.trans h.drained, ?_⟩
    · rw [hpump.supplied, hpump.delivered, hpump.underway]
      exact h.supplied
    · rw [hpump.received, hpump.pushed, hpump.rxFifo]
      exact h.received
    · rw [hpump.pushed]
      exact h.pieces
  · exact h

/-- What the host has read is not underway any more. -/
lemma Inv.sent (h : s.Inv) (ready : Bool) :
    (flush ready { s with delivered := s.delivered ++ s.epIn, epIn := [] }).Inv := by
  have hflush := sameElse_flush { s with delivered := s.delivered ++ s.epIn, epIn := [] } ready
  refine ⟨(length_txFifo_flush _ ready).trans h.room, ?_, ?_, hflush.rxFifo.trans h.drained, ?_⟩
  · have hwaiting : (flush ready { s with
        delivered := s.delivered ++ s.epIn, epIn := [] }).waiting = s.waiting := by
      rw [flush]
      split_ifs <;> rfl
    rw [hflush.supplied, hflush.delivered, underway_flush, hwaiting, h.supplied]
    simp [underway]
  · rw [hflush.received, hflush.pushed, hflush.rxFifo]
    exact h.received
  · rw [hflush.pushed]
    exact h.pieces

/-- A packet is pushed at once. -/
lemma Inv.packet (h : s.Inv) (bytes : List UInt8) :
    (tudCdcRxCb { s with received := s.received ++ bytes, rxFifo := s.rxFifo ++ bytes }).Inv := by
  obtain ⟨pieces, heq, hflat, hsize⟩ :=
    tudCdcRxCb_eq { s with received := s.received ++ bytes, rxFifo := s.rxFifo ++ bytes }
  rw [heq]
  refine ⟨h.room, h.supplied, ?_, rfl, ?_⟩
  · rw [List.flatten_append, hflat, List.append_nil, h.received]
    simp
  · intro piece hpiece
    rcases List.mem_append.mp hpiece with hold | hnew
    · exact h.pieces piece hold
    · exact hsize piece hnew

/-- Every step keeps the invariant. -/
lemma Inv.step (h : s.Inv) {a : UsbAct} (hst : s.step a = some t) : t.Inv := by
  cases a with
  | supply piece =>
    obtain rfl := Option.some.inj hst
    refine ⟨h.room, ?_, h.received, h.drained, h.pieces⟩
    simp [h.supplied, underway, waiting]
  | connect connected =>
    obtain rfl := Option.some.inj hst
    exact ⟨h.room, h.supplied, h.received, h.drained, h.pieces⟩
  | packet bytes =>
    obtain rfl := Option.some.inj hst
    exact h.packet bytes
  | sent ready =>
    obtain rfl := Option.some.inj hst
    exact h.sent ready
  | process ready =>
    obtain rfl := Option.some.inj hst
    exact h.jdUsbProcess ready

end UsbCdc

end JdPico
