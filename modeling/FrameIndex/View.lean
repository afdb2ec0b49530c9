import FrameIndex.HeaderIndex

/-!
Header views: objects that are bound onto the range of a header and later let go of it, and the raw
view, which holds the header's bytes and those of its options.

A view may refuse a range. Whoever binds a view decides what becomes of a refusal.
-/

namespace FrameIndex

/-- Why a view refuses a range. -/
inductive BindRefusal where
  | outOfRange (offset stop length : Nat)
  | rejected (text : String)
  deriving DecidableEq

/-- The text of a refusal. -/
def BindRefusal.message : BindRefusal → String
  | .outOfRange offset stop length => s!"range {offset}..{stop} outside {length} bytes"
  | .rejected text => text

/-- What can be bound onto a header. The bytes given are those of the whole frame. -/
class Bindable (V : Type) where
  /-- The header that the view is for. -/
  id : V → HeaderId
  /-- Binds onto a header. -/
  bind : Bytes → Placement → V → V × Except BindRefusal Unit
  /-- Binds the options of a header that is bound already. -/
  bindOptions : Bytes → OptionRun → V → V × Except BindRefusal Unit
  /-- Lets go of the header and its options. -/
  unbind : V → V
  /-- Whether the view is bound. -/
  isBound : V → Bool
  /-- Where the header lies that the view is bound to. -/
  placement : V → Option Placement
  /-- The bytes of the header, if the view holds them. -/
  data : V → Option Bytes

/-- The name of the header that a view is for. -/
def Bindable.name {V : Type} [Bindable V] (v : V) : String := (Bindable.id v).name

/-- The bytes of a range that lies within the frame. -/
def Bytes.range? (frame : Bytes) (offset length : Nat) : Except BindRefusal Bytes :=
  if frame.length < offset + length then
    .error (.outOfRange offset (offset + length) frame.length)
  else .ok (frame.slice offset length)

/-- A view that holds the bytes of a header and of its options. -/
structure RawView where
  id : HeaderId
  placement : Option Placement := none
  bytes : Option Bytes := none
  options : Option Bytes := none
  run : Option OptionRun := none
  deriving DecidableEq

namespace RawView

/-- Binds onto a header that lies within the frame; otherwise nothing changes. -/
def bind (frame : Bytes) (l : Placement) (v : RawView) : RawView × Except BindRefusal Unit :=
  match frame.range? l.offset l.length with
  | .ok bytes => ({ v with bytes := some bytes, placement := some l }, .ok ())
  | .error fault => (v, .error fault)

/-- Binds the options if they lie within the frame; otherwise nothing changes. -/
def bindOptions (frame : Bytes) (run : OptionRun) (v : RawView) :
    RawView × Except BindRefusal Unit :=
  match frame.range? run.offset run.length with
  | .ok bytes => ({ v with options := some bytes, run := some run }, .ok ())
  | .error fault => (v, .error fault)

/-- The view of the same header with nothing bound. -/
def unbind (v : RawView) : RawView := { id := v.id }

instance : Bindable RawView where
  id := id
  bind := bind
  bindOptions := bindOptions
  unbind := unbind
  isBound v := v.placement.isSome
  placement := placement
  data := bytes

end RawView

end FrameIndex
