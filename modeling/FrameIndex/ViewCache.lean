import FrameIndex.View

/-!
A cache of header views. Each header has one view, created when it is first asked for and kept from
then on; only whether it is in use changes. Views are keyed by pack and protocol, and views of
extensions by those of the header they extend as well.

The cache keeps a log of what it asked its factory for, so that creations and releases can be told.
-/

namespace FrameIndex

/-- Creates the views of a cache, and takes back the ones that are released. -/
structure ViewFactory (V : Type) where
  make : HeaderId → V
  /-- Creates the view of an extension, given the header it extends. -/
  makeExtension : HeaderId → HeaderId → V
  /-- Whether released views are handed over. -/
  takesBack : Bool
  /-- What becomes of a view that is handed over. -/
  release : V → V

/-- The factory that creates a raw view for every header and takes none back. -/
def ViewFactory.raw : ViewFactory RawView where
  make id := { id }
  makeExtension _ ext := { id := ext }
  takesBack := false
  release := id

/-- What a cache asked of its factory. -/
inductive FactoryCall (V : Type) where
  | created (view : V)
  | released (view : V)

/-- What a view is kept under. -/
inductive CacheKey where
  | header (ordinal : Nat)
  | extension (parent ext : Nat)
  deriving DecidableEq

namespace CacheKey

/-- The key of a header's view. -/
def ofHeader (id : HeaderId) : CacheKey := header id.ordinal

/-- The key of the view of an extension of a header. -/
def ofExtension (parent ext : HeaderId) : CacheKey := extension parent.ordinal ext.ordinal

end CacheKey

/-- A view, and whether it is in use. -/
structure CacheSlot (V : Type) where
  view : V
  inUse : Bool

/-- The figures of a cache. -/
structure CacheFigures where
  hits : Nat
  misses : Nat
  entries : Nat
  inUse : Nat
  deriving DecidableEq

namespace CacheFigures

/-- The share of accesses that found their view; 0 before the first access. -/
def hitRatio (s : CacheFigures) : Float :=
  if s.hits + s.misses = 0 then 0 else s.hits.toFloat / (s.hits + s.misses).toFloat

/-- The cache that has these figures, in one line. -/
def describe (s : CacheFigures) : String :=
  s!"HeaderCache \x7b stats: CacheStats \x7b hits: {s.hits}, misses: {s.misses}, " ++
    s!"entries: {s.entries}, in_use: {s.inUse} \x7d, .. \x7d"

end CacheFigures

/-- The views of a cache by key, its counters, and its calls to the factory, latest first. -/
structure ViewCache (V : Type) where
  factory : ViewFactory V
  slots : List (CacheKey × CacheSlot V) := []
  hits : Nat := 0
  misses : Nat := 0
  /-- Counted as views are put under new keys. -/
  entries : Nat := 0
  calls : List (FactoryCall V) := []

namespace ViewCache

variable {V : Type}

/-- The slot under a key. -/
def slot? (c : ViewCache V) (key : CacheKey) : Option (CacheSlot V) := c.slots.lookup key

/-- The view under a key. -/
def view? (c : ViewCache V) (key : CacheKey) : Option V := (c.slot? key).map (·.view)

/-- Whether the view under a key is in use. -/
def isInUse (c : ViewCache V) (key : CacheKey) : Bool := (c.slot? key).any (·.inUse)

/-- The list with the entry under a key changed, if there is one. -/
def updateSlots (key : CacheKey) (f : CacheSlot V → CacheSlot V) :
    List (CacheKey × CacheSlot V) → List (CacheKey × CacheSlot V)
  | [] => []
  | (k, slot) :: rest =>
    if k = key then (k, f slot) :: rest else (k, slot) :: updateSlots key f rest

/-- Changes the view under a key, if there is one. -/
def updateView (c : ViewCache V) (key : CacheKey) (f : V → V) : ViewCache V :=
  { c with slots := updateSlots key (fun slot => { slot with view := f slot.view }) c.slots }

/-- Puts a newly created view under a key, in use. -/
def install (c : ViewCache V) (key : CacheKey) (view : V) : ViewCache V :=
  { c with
    slots :=
      if (c.slot? key).isSome then updateSlots key (fun _ => ⟨view, true⟩) c.slots
      else c.slots ++ [(key, ⟨view, true⟩)]
    misses := c.misses + 1
    entries := if (c.slot? key).isSome then c.entries else c.entries + 1
    calls := .created view :: c.calls }

/-- The view under a key, in use from now on. A view that does not fit is replaced. -/
def acquire (c : ViewCache V) (key : CacheKey) (fits : V → Bool) (make : V) :
    ViewCache V × V :=
  match c.slot? key with
  | some slot =>
    if fits slot.view then
      ({ c with
          slots := updateSlots key (fun slot => { slot with inUse := true }) c.slots
          hits := c.hits + 1 }, slot.view)
    else (c.install key make, make)
  | none => (c.install key make, make)

/-- The view of a header. -/
def acquireHeader (c : ViewCache V) (id : HeaderId) : ViewCache V × V :=
  c.acquire (.ofHeader id) (fun _ => true) (c.factory.make id)

/-- Starts counting hits and misses again. -/
def restartCounts (c : ViewCache V) : ViewCache V := { c with hits := 0, misses := 0 }

/-- The figures of the cache. -/
def figures (c : ViewCache V) : CacheFigures where
  hits := c.hits
  misses := c.misses
  entries := c.entries
  inUse := c.slots.countP (·.2.inUse)

variable [Bindable V]

/-- The view of an extension of a header. A view for another header is replaced. -/
def acquireExtension (c : ViewCache V) (parent ext : HeaderId) : ViewCache V × V :=
  c.acquire (.ofExtension parent ext) (fun v => (Bindable.id v).agrees ext)
    (c.factory.makeExtension parent ext)

/-- The slot of a view that is let go of. -/
def releasedSlot (factory : ViewFactory V) (slot : CacheSlot V) : CacheSlot V :=
  let view := Bindable.unbind slot.view
  ⟨if factory.takesBack then factory.release view else view, false⟩

/-- The call that hands a view over, if the factory takes it. -/
def releaseCall (factory : ViewFactory V) (slot : CacheSlot V) : List (FactoryCall V) :=
  if factory.takesBack then [.released (Bindable.unbind slot.view)] else []

/-- Lets go of the view under a key, in use or not. -/
def release (c : ViewCache V) (key : CacheKey) : ViewCache V :=
  match c.slot? key with
  | none => c
  | some slot =>
    { c with
      slots := updateSlots key (releasedSlot c.factory) c.slots
      calls := releaseCall c.factory slot ++ c.calls }

/-- Lets go of every view that is in use. -/
def releaseInUse (c : ViewCache V) : ViewCache V :=
  { c with
    slots := c.slots.map fun (key, slot) =>
      (key, if slot.inUse then releasedSlot c.factory slot else slot)
    calls := ((c.slots.filter (·.2.inUse)).flatMap fun (_, slot) =>
      releaseCall c.factory slot).reverse ++ c.calls }

end ViewCache

end FrameIndex
