import FrameIndex.Chain
import FrameIndex.Timestamp
import FrameIndex.ViewCache

/-!
Packets: captured bytes, the chain of descriptors that describe them, and a cache of header views.

A packet is bound to one frame after another. Binding starts by letting go of the frame before, so
that nothing of it is left; a failed binding leaves the packet unbound. The first descriptor of the
chain is the packet's own, and the header index it encodes answers every lookup.
-/

namespace FrameIndex

inductive PacketError where
  | headerNotFound (name : String) (depth : Nat)
  | binding (header summary : String) (fault : BindRefusal)
  | descriptor (refusal : LayoutError)
  deriving DecidableEq

def PacketError.message : PacketError → String
  | .headerNotFound name depth => s!"Header not found: {name} (depth {depth})"
  | .binding header summary fault =>
    s!"Failed to bind {header} in packet [{summary}]: {fault.message}"
  | .descriptor refusal => s!"Descriptor error: {refusal.message}"

/-- The layout of a packet's own descriptor, and the unit of its timestamp. -/
structure PacketSetup where
  layout : Layout := .type2
  unit : ClockUnit := .micros
  deriving DecidableEq

/-- A frame, its descriptors, and a cache of views onto it. -/
structure Packet (V : Type) where
  setup : PacketSetup
  data : Bytes
  chain : Chain
  cache : ViewCache V

namespace Packet

variable {V : Type}

def unbound (setup : PacketSetup) (factory : ViewFactory V) : Packet V where
  setup
  data := []
  chain := .last (.unbound setup.layout)
  cache := { factory }

/-- The unbound packet of a configuration, if its layout can describe a packet. -/
def create (setup : PacketSetup) (factory : ViewFactory V) : Except PacketError (Packet V) :=
  if setup.layout.isPacket then .ok (unbound setup factory)
  else .error (.descriptor (.notPacketDescriptor setup.layout))

def index (p : Packet V) : HeaderIndex := p.chain.head.index

def isBound (p : Packet V) : Bool := p.chain.head.isBound

/-- Chains a descriptor directly behind the packet's own. -/
def attach (p : Packet V) (d : Descriptor) : Packet V :=
  { p with chain := p.chain.attach (.last d) }

/-- Chains a descriptor that is bound to the given bytes. -/
def attachEncoded (p : Packet V) (layout : Layout) (bs : Bytes) : Except PacketError (Packet V) :=
  ((Descriptor.ofBytes layout bs).mapError PacketError.descriptor).map p.attach

def chained? (p : Packet V) (layout : Layout) : Option Descriptor :=
  (p.chain.find? layout).map Chain.head

/-- A packet with the same frame and descriptors, and an empty cache of the same factory. -/
def clone (p : Packet V) : Packet V :=
  { p with chain := p.chain.clone, cache := { factory := p.cache.factory } }

/-- The range of the header at a depth. Frame and payload are derived, at depth 0 only. -/
def locate? (p : Packet V) (id : HeaderId) (depth : Nat) : Option Placement :=
  if !p.isBound then none
  else if id.isFrame then if depth = 0 then some (p.index.restFrom 0) else none
  else if id.isPayload then
    if depth = 0 then some (p.index.restFrom p.index.payloadStart) else none
  else p.index.header? id depth

def hasHeader (p : Packet V) (id : HeaderId) (depth : Nat) : Bool := (p.locate? id depth).isSome

def hasExtension (p : Packet V) (id ext : HeaderId) (depth : Nat) : Bool :=
  (p.index.extension? id ext depth none).isSome

/-- The time of the frame in nanoseconds since the epoch, if it fits in 63 bits. -/
def nanos? (p : Packet V) : Option Nat :=
  (p.setup.unit.toNanos? p.index.timestamp).filter (2 * · < UInt64.size)

/-- The time of the frame as text. -/
def time? (p : Packet V) : Option String := p.nanos?.map Rfc3339.format

/-- The options that are bound along with a header: those of its record, unless the record is an
option itself. -/
def ownOptions? (ix : HeaderIndex) (l : Placement) : Option OptionRun :=
  l.record.bind fun index =>
    match ix.records[index]? with
    | some r => if r.id.isOption then none else ix.options? index
    | none => none

variable [Bindable V]

/-- Binds a view onto a range, and then onto the options if there are any. A view that refuses
either is left unbound, and its refusal is reported with the packet's summary. -/
def bindOnto (data : Bytes) (ix : HeaderIndex) (options : Option OptionRun) (l : Placement)
    (v : V) : V × Except PacketError Unit :=
  let refuse (v : V) (fault : BindRefusal) : V × Except PacketError Unit :=
    (Bindable.unbind v, .error (.binding (Bindable.name v) ix.summary fault))
  match Bindable.bind data l v with
  | (v, .error fault) => refuse v fault
  | (v, .ok ()) =>
    match options with
    | none => (v, .ok ())
    | some run =>
      match Bindable.bindOptions data run v with
      | (v, .error fault) => refuse v fault
      | (v, .ok ()) => (v, .ok ())

/-- Lets go of the views, the descriptors and the frame. -/
def unbind (p : Packet V) : Packet V :=
  { p with cache := p.cache.releaseInUse, chain := p.chain.release, data := [] }

/-- Binds to a frame and to the bytes of its descriptor. -/
def bind (p : Packet V) (data descriptor : Bytes) : Packet V × Except PacketError Unit :=
  let p := p.unbind
  match p.chain.head.bind descriptor with
  | .error refusal => (p, .error (.descriptor refusal))
  | .ok d =>
    if data.length < d.index.captureLength then
      (p, .error (.descriptor (.captureLengthMismatch d.index.captureLength data.length)))
    else ({ p with chain := p.chain.mapHead fun _ => d, data }, .ok ())

/-- Binds a caller's view to a range that was looked up: unbound first, and left so without one. -/
def bindCaller (p : Packet V) (options : Placement → Option OptionRun) (l : Option Placement)
    (v : V) : V × Except PacketError Bool :=
  let v := Bindable.unbind v
  match l with
  | none => (v, .ok false)
  | some l =>
    match bindOnto p.data p.index (options l) l v with
    | (v, .error e) => (v, .error e)
    | (v, .ok ()) => (v, .ok true)

/-- Turns absence into an error. -/
def required (name : String) (depth : Nat) : Except PacketError Bool → Except PacketError Unit
  | .error e => .error e
  | .ok false => .error (.headerNotFound name depth)
  | .ok true => .ok ()

/-- Binds a caller's view to its header at a depth, and tells whether the header is there. -/
def bindHeaderIfAny (p : Packet V) (v : V) (depth : Nat) : V × Except PacketError Bool :=
  p.bindCaller (ownOptions? p.index) (p.locate? (Bindable.id v) depth) v

/-- Binds a caller's view to its header at a depth. -/
def bindHeader (p : Packet V) (v : V) (depth : Nat) : V × Except PacketError Unit :=
  (p.bindHeaderIfAny v depth).map id (required (Bindable.name v) depth)

/-- Binds a caller's view to its extension of a header, and tells whether the extension is there. -/
def bindExtensionIfAny (p : Packet V) (parent : HeaderId) (v : V) (depth : Nat)
    (hint : Option Nat) : V × Except PacketError Bool :=
  p.bindCaller (fun _ => none) (p.index.extension? parent (Bindable.id v) depth hint) v

/-- Binds a caller's view to its extension of a header. -/
def bindExtension (p : Packet V) (parent : HeaderId) (v : V) (depth : Nat) :
    V × Except PacketError Unit :=
  (p.bindExtensionIfAny parent v depth none).map id (required (Bindable.name v) depth)

/-- Binds a cached view that was acquired. A view that refuses is released again. -/
def bindCached (p : Packet V) (key : CacheKey) (acquired : ViewCache V × V)
    (options : Option OptionRun) (l : Placement) : Packet V × Except PacketError (Option V) :=
  let (cache, v) := acquired
  let (v, result) := bindOnto p.data p.index options l (Bindable.unbind v)
  let cache := cache.updateView key fun _ => v
  match result with
  | .error e => ({ p with cache := cache.release key }, .error e)
  | .ok () => ({ p with cache }, .ok (some v))

/-- The cached view of the header at a depth, bound and in use. -/
def cachedHeader (p : Packet V) (id : HeaderId) (depth : Nat) :
    Packet V × Except PacketError (Option V) :=
  match p.locate? id depth with
  | none => (p, .ok none)
  | some l => p.bindCached (.ofHeader id) (p.cache.acquireHeader id) (ownOptions? p.index l) l

/-- The cached view of the header at a depth, whose absence is an error. -/
def demandHeader (p : Packet V) (id : HeaderId) (depth : Nat) :
    Packet V × Except PacketError V :=
  match p.cachedHeader id depth with
  | (p, .error e) => (p, .error e)
  | (p, .ok none) => (p, .error (.headerNotFound id.name depth))
  | (p, .ok (some v)) => (p, .ok v)

/-- The cached view of an extension of the header at a depth, bound and in use. -/
def cachedExtension (p : Packet V) (parent ext : HeaderId) (depth : Nat) :
    Packet V × Except PacketError (Option V) :=
  match p.index.extension? parent ext depth none with
  | none => (p, .ok none)
  | some l =>
    p.bindCached (.ofExtension parent ext) (p.cache.acquireExtension parent ext) none l

/-- Returns a cached view. -/
def release (p : Packet V) (key : CacheKey) : Packet V :=
  { p with cache := p.cache.release key }

end Packet

end FrameIndex
