import FrameIndex.Descriptor

/-!
Chains of descriptors. A chain is never empty: a descriptor, and the chain linked behind it if any.
`toList` is the view that every operation is stated on.
-/

namespace FrameIndex

/-- A descriptor and the chain behind it. -/
inductive Chain where
  | last (descriptor : Descriptor)
  | link (descriptor : Descriptor) (next : Chain)

namespace Chain

def toList : Chain → List Descriptor
  | last d => [d]
  | link d next => d :: next.toList

def head : Chain → Descriptor
  | last d => d
  | link d _ => d

def tail? : Chain → Option Chain
  | last _ => none
  | link _ next => some next

/-- A descriptor in front of a chain, if there is one. -/
def ofHead (d : Descriptor) : Option Chain → Chain
  | none => last d
  | some next => link d next

def append : Chain → Chain → Chain
  | last d, rest => link d rest
  | link d next, rest => link d (next.append rest)

/-- Puts a chain directly behind the first descriptor, in front of what was there. -/
def attach (c node : Chain) : Chain :=
  match c with
  | last d => link d node
  | link d next => link d (node.append next)

def length : Chain → Nat
  | last _ => 1
  | link _ next => next.length + 1

/-- The chain from the first descriptor of a layout on. -/
def find? (layout : Layout) : Chain → Option Chain
  | last d => if d.layout = layout then some (last d) else none
  | link d next => if d.layout = layout then some (link d next) else next.find? layout

/-- Replaces the chain from the first descriptor of a layout on. -/
def update? (layout : Layout) (f : Chain → Chain) : Chain → Option Chain
  | last d => if d.layout = layout then some (f (last d)) else none
  | link d next =>
    if d.layout = layout then some (f (link d next))
    else (next.update? layout f).map (link d)

def mapHead (f : Descriptor → Descriptor) : Chain → Chain
  | last d => last (f d)
  | link d next => link (f d) next

/-- Lets go of everything: the first descriptor stays, unbound and alone. -/
def release (c : Chain) : Chain := last c.head.unbind

def clone : Chain → Chain
  | last d => last d.clone
  | link d next => link d.clone next.clone

@[simp] theorem toList_append (c rest : Chain) :
    (c.append rest).toList = c.toList ++ rest.toList := by
  induction c with
  | last d => rfl
  | link d next ih => simp [append, toList, ih]

theorem clone_eq (c : Chain) : c.clone = c := by
  induction c with
  | last d => simp [clone, Descriptor.clone_eq]
  | link d next ih => simp [clone, Descriptor.clone_eq, ih]

end Chain

end FrameIndex
