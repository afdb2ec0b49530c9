import FrameIndex.Proofs.Capture.Layout

/-!
# Stored packets

A packet is stored in a record of a classic capture, or in a block for enhanced or simple packets.
Behind the packet's bytes a block has bytes that fill these up to a multiple of four. Frames are
read with the filler, so a frame has exactly the packet's bytes if these come from a record, or need
no filler (`StoredPacket.exact_iff`).
-/

namespace FrameIndex

inductive PacketLayout where
  | record
  | enhanced
  | simple
  deriving DecidableEq

/-- The bytes of a packet's record or block, and their byte order. -/
structure StoredPacket where
  layout : PacketLayout
  order : ByteOrder
  bytes : Bytes

namespace StoredPacket

open CaptureBlock (align)

def dataOffset (p : StoredPacket) : Nat :=
  match p.layout with
  | .record => 16
  | .enhanced => 28
  | .simple => 12

/-- The number of bytes that is stated. Of a simple packet it is the number on the wire, and that of
the bytes captured is not stated. -/
def stated (p : StoredPacket) : Nat :=
  match p.layout with
  | .record => p.bytes.num p.order 8 4
  | .enhanced => p.bytes.num p.order 20 4
  | .simple => p.bytes.num p.order 8 4

def packet (p : StoredPacket) : Bytes := p.bytes.slice p.dataOffset p.stated

/-- The record or block is whole, and has room for the packet. -/
def IsWhole (p : StoredPacket) : Prop :=
  match p.layout with
  | .record => ClassicRecord.IsWhole p.order p.bytes
  | .enhanced => CaptureBlock.IsWhole p.order p.order .enhanced p.bytes ∧
      32 + align p.stated ≤ p.bytes.length
  | .simple => CaptureBlock.IsWhole p.order p.order .simple p.bytes

/-- A simple packet is not truncated if its block is made for all bytes that were on the wire. -/
def Untruncated (p : StoredPacket) : Prop :=
  p.layout = .simple → p.bytes.length = 16 + align p.stated

/-- The number of bytes in the place of the packet: those of a block are filled up. -/
def held (p : StoredPacket) : Nat :=
  match p.layout with
  | .record => p.stated
  | .enhanced => align p.stated
  | .simple => p.bytes.length - 16

/-- What is read of the packet: all bytes in its place, which a simple packet also counts as
captured. -/
structure ReadAs (p : StoredPacket) (frame : Frame) : Prop where
  captured_eq : frame.captured = if p.layout = .simple then p.held else p.stated
  data_eq : frame.data = p.bytes.slice p.dataOffset p.held

structure Exact (p : StoredPacket) (frame : Frame) : Prop where
  captured_eq : frame.captured = p.stated
  data_eq : frame.data = p.packet
  length_eq : frame.data.length = p.stated

theorem align_eq_iff {n : Nat} : align n = n ↔ 4 ∣ n := by
  rw [align]
  omega

variable {p : StoredPacket} {frame : Frame}

theorem IsWhole.held_le (h : p.IsWhole) : p.dataOffset + p.held ≤ p.bytes.length := by
  obtain ⟨layout, order, bytes⟩ := p
  cases layout with
  | record => exact Nat.le_of_eq (Eq.symm h)
  | enhanced =>
    have hroom : 32 + align (bytes.num order 20 4) ≤ bytes.length := h.2
    show 28 + align (bytes.num order 20 4) ≤ bytes.length
    omega
  | simple =>
    have hmin : 16 ≤ bytes.length := h.minLength_le
    show 12 + (bytes.length - 16) ≤ bytes.length
    omega

theorem ReadAs.length_data (h : p.ReadAs frame) (hwhole : p.IsWhole) :
    frame.data.length = p.held := by
  have := hwhole.held_le
  rw [h.data_eq, Bytes.length_slice]
  omega

theorem of_means_enhanced {order : ByteOrder} {bs : Bytes} {packet : EnhancedPacket}
    (hwhole : CaptureBlock.IsWhole order order .enhanced bs)
    (hmeans : CaptureBlock.Means order .enhanced (CaptureBlock.body bs) (.enhanced packet))
    (hcaptured : frame.captured = packet.captured) (hdata : frame.data = packet.data) :
    IsWhole ⟨.enhanced, order, bs⟩ ∧ ReadAs ⟨.enhanced, order, bs⟩ frame := by
  obtain ⟨-, hstated, hroom, hheld⟩ := hmeans
  have hmin : 32 ≤ bs.length := hwhole.minLength_le
  rw [CaptureBlock.length_body (by omega)] at hroom
  have hnum : packet.captured = bs.num order 20 4 := hstated.trans (Bytes.num_slice (by omega))
  rw [CaptureBlock.body, Bytes.slice_slice (by omega)] at hheld
  rw [hnum] at hroom hheld
  refine ⟨⟨hwhole, ?_⟩, ⟨hcaptured.trans hnum, hdata.trans hheld⟩⟩
  show 32 + align (bs.num order 20 4) ≤ bs.length
  omega

theorem of_means_simple {order : ByteOrder} {bs data : Bytes} {onWire : Nat}
    (hwhole : CaptureBlock.IsWhole order order .simple bs)
    (hmeans : CaptureBlock.Means order .simple (CaptureBlock.body bs) (.simple onWire data))
    (hcaptured : frame.captured = data.length) (hdata : frame.data = data) :
    IsWhole ⟨.simple, order, bs⟩ ∧ ReadAs ⟨.simple, order, bs⟩ frame := by
  obtain ⟨-, rfl⟩ := hmeans
  have hmin : 16 ≤ bs.length := hwhole.minLength_le
  rw [CaptureBlock.body, Bytes.drop_slice] at hcaptured hdata
  refine ⟨hwhole, ⟨?_, hdata⟩⟩
  rw [hcaptured, Bytes.length_slice, if_pos rfl]
  show min (bs.length - 12 - 4) (bs.length - (8 + 4)) = bs.length - 16
  omega

theorem held_eq_stated_iff (huntruncated : p.Untruncated) :
    p.held = p.stated ↔ p.layout = .record ∨ 4 ∣ p.stated := by
  obtain ⟨layout, order, bytes⟩ := p
  rw [← align_eq_iff]
  cases layout with
  | record => exact ⟨fun _ => .inl rfl, fun _ => rfl⟩
  | enhanced => exact ⟨.inr, fun h => h.resolve_left nofun⟩
  | simple =>
    have hlen : bytes.length = 16 + align (bytes.num order 8 4) := huntruncated rfl
    have hheld : bytes.length - 16 = align (bytes.num order 8 4) := by omega
    show bytes.length - 16 = bytes.num order 8 4 ↔ _
    rw [hheld]
    exact ⟨.inr, fun h => h.resolve_left nofun⟩

theorem exact_iff (hwhole : p.IsWhole) (huntruncated : p.Untruncated) (hread : p.ReadAs frame) :
    p.Exact frame ↔ p.layout = .record ∨ 4 ∣ p.stated := by
  rw [← held_eq_stated_iff huntruncated]
  constructor
  · intro h
    rw [← hread.length_data hwhole, h.length_eq]
  · intro h
    constructor
    case captured_eq => rw [hread.captured_eq, h, ite_self]
    case data_eq => rw [hread.data_eq, h, packet]
    case length_eq => rw [hread.length_data hwhole, h]

end StoredPacket

end FrameIndex
