import FrameIndex.PlainLayouts
import FrameIndex.Type2

/-!
Descriptors: encoded bytes that fit their layout. A descriptor is bound to such bytes or to none,
and one that is bound to none reads as if all its fields were zero.
-/

namespace FrameIndex

/-- Accepts the byte strings of a layout. -/
def Layout.check : Layout → Bytes → Except LayoutError Unit
  | .pcap => CaptureSummary.check
  | .type2 => Type2.check
  | .ipf => FragmentPlace.check

/-- A layout, and bytes that fit it if the descriptor is bound. -/
structure Descriptor where
  layout : Layout
  image : Option Bytes
  accepted : ∀ bs, image = some bs → layout.check bs = .ok ()

namespace Descriptor

@[ext] theorem ext {a b : Descriptor} (hl : a.layout = b.layout) (hi : a.image = b.image) :
    a = b := by
  obtain ⟨la, ia, _⟩ := a
  obtain ⟨lb, ib, _⟩ := b
  cases hl
  cases hi
  rfl

def unbound (layout : Layout) : Descriptor := ⟨layout, none, nofun⟩

/-- The descriptor of a layout bound to bytes, if they fit it. -/
def ofBytes (layout : Layout) (bs : Bytes) : Except LayoutError Descriptor :=
  match h : layout.check bs with
  | .ok () => .ok ⟨layout, some bs, fun _ hb => Option.some.inj hb ▸ h⟩
  | .error refusal => .error refusal

/-- Binds to other bytes of the same layout. -/
def bind (d : Descriptor) (bs : Bytes) : Except LayoutError Descriptor := ofBytes d.layout bs

def unbind (d : Descriptor) : Descriptor := unbound d.layout

/-- A descriptor of the same layout, bound to the same bytes if these still fit. -/
def clone (d : Descriptor) : Descriptor :=
  match d.image with
  | none => unbound d.layout
  | some bs => ((unbound d.layout).bind bs).toOption.getD (unbound d.layout)

def isBound (d : Descriptor) : Bool := d.image.isSome

/-- The bytes that are read: none of them when the descriptor is unbound. -/
def bytes (d : Descriptor) : Bytes := d.image.getD []

/-- The bytes that the layout gives a meaning to. -/
def byteSize (d : Descriptor) : Nat :=
  match d.image with
  | none => 0
  | some bs =>
    match d.layout with
    | .pcap => CaptureSummary.size
    | .type2 => Type2.sizeFor (Type2.recordCount bs)
    | .ipf => FragmentPlace.size

/-- The header index that the bytes of a layout encode. Fragment data indexes nothing. -/
def indexOf (layout : Layout) (bs : Bytes) : HeaderIndex :=
  match layout with
  | .pcap => {
      layout
      captureLength := CaptureSummary.captureLengthOf bs
      wireLength := CaptureSummary.wireLengthOf bs
      timestamp := CaptureSummary.timestampOf bs
      presence := 0
      records := [] }
  | .type2 => {
      layout
      captureLength := Type2.captureLength bs
      wireLength := Type2.wireLength bs
      timestamp := Type2.timestamp bs
      presence := Type2.presence bs
      records := Type2.records bs }
  | .ipf => {
      layout, captureLength := 0, wireLength := 0, timestamp := 0, presence := 0, records := [] }

def index (d : Descriptor) : HeaderIndex := indexOf d.layout d.bytes

theorem ofBytes_eq_ok_iff {layout : Layout} {bs : Bytes} {d : Descriptor} :
    ofBytes layout bs = .ok d ↔
      layout.check bs = .ok () ∧ d.layout = layout ∧ d.image = some bs := by
  unfold ofBytes
  split
  · rename_i h
    constructor
    · intro he
      cases he
      exact ⟨h, rfl, rfl⟩
    · rintro ⟨-, hl, hi⟩
      exact congrArg Except.ok (Descriptor.ext hl.symm hi.symm)
  · rename_i h
    simp [h]

/-- Bytes that were accepted once are accepted again. -/
theorem clone_eq (d : Descriptor) : d.clone = d := by
  unfold clone
  split
  · rename_i h
    exact Descriptor.ext rfl h.symm
  · rename_i bs h
    have hb : (unbound d.layout).bind bs = .ok d :=
      ofBytes_eq_ok_iff.2 ⟨d.accepted bs h, rfl, h⟩
    simp [hb, Except.toOption]

end Descriptor

end FrameIndex
