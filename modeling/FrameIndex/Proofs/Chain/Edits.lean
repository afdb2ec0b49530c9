import FrameIndex.Chain
import Mathlib.Data.List.TakeWhile
import Mathlib.Logic.Function.Iterate

/-!
# A chain is a list of descriptors

Whoever reads a chain, node by node or for the first of a layout, reads the list of its descriptors
(`Chain.ReadsAs`). Chains are edited in place: one node is looked up, another one behind it, and so
on, and the node at the end of that path is changed (`Chain.editAt`). To the list this is one edit
at one place: the path splits the list (`splitAlong`), the front stays, and the rest is changed as
the node says (`NodeEdit.onList`). So a run of edits does to the list what it does to the chain
(`Chain.toList_run`).

The path depends on layouts alone, so a node that is released is found where it was
(`splitAlong_replace`). It can be bound again, and have other chains attached
(`Chain.ReleasesAlong`).
-/

namespace FrameIndex

inductive NodeEdit where
  | attach (node : Chain)
  /-- To change the descriptor of the node, its layout included. -/
  | change (f : Descriptor → Descriptor)
  | release

namespace NodeEdit

/-- Binds the descriptor to bytes. It stays as it is if they do not fit its layout. -/
def bind (bs : Bytes) : NodeEdit := change fun d => (d.bind bs).toOption.getD d

/-- The node after the edit, and all that is behind it. -/
def apply : NodeEdit → Chain → Chain
  | attach node, c => c.attach node
  | change f, c => c.mapHead f
  | release, c => c.release

def onList : NodeEdit → List Descriptor → List Descriptor
  | _, [] => []
  | attach node, d :: rest => d :: (node.toList ++ rest)
  | change f, d :: rest => f d :: rest
  | release, d :: _ => [d.unbind]

end NodeEdit

/-- An edit of the node that a path of layouts leads to. -/
structure ChainEdit where
  path : List Layout
  edit : NodeEdit

/-- Splits a list of descriptors where the path ends: in front of the first descriptor of the first
layout, from there on in front of the first one of the second layout, and so on. If there is none,
everything is in front. -/
def splitAlong : List Layout → List Descriptor → List Descriptor × List Descriptor
  | [], ds => ([], ds)
  | t :: path, ds =>
    let split := splitAlong path (ds.dropWhile fun d => d.layout ≠ t)
    (ds.takeWhile (fun d => d.layout ≠ t) ++ split.1, split.2)

def ChainEdit.onList (e : ChainEdit) (ds : List Descriptor) : List Descriptor :=
  let split := splitAlong e.path ds
  split.1 ++ e.edit.onList split.2

namespace Chain

/-- The descriptors from a node on, if there is one. -/
def listFrom (node : Option Chain) : List Descriptor := node.elim [] toList

/-- What is left of a chain after some nodes were read. -/
def walk (n : Nat) (node : Option Chain) : Option Chain := (fun it => it.bind tail?)^[n] node

/-- The node that a path leads to. -/
def nodeAt? : List Layout → Chain → Option Chain
  | [], c => some c
  | t :: path, c => (c.find? t).bind (nodeAt? path)

/-- Changes the node that a path leads to, and what is behind it. Without such a node nothing
changes. -/
def editAt : List Layout → (Chain → Chain) → Chain → Chain
  | [], f, c => f c
  | t :: path, f, c => (c.update? t (editAt path f)).getD c

def edit (c : Chain) (e : ChainEdit) : Chain := c.editAt e.path e.edit.apply

def run (c : Chain) (edits : List ChainEdit) : Chain := edits.foldl edit c

variable {c node : Chain} {t : Layout} {path : List Layout}

/-! ## Reads -/

theorem toList_eq_cons (c : Chain) : c.toList = c.head :: listFrom c.tail? := by
  cases c <;> rfl

theorem head?_listFrom (node : Option Chain) : (listFrom node).head? = node.map head := by
  cases node with
  | none => rfl
  | some c => rw [listFrom, Option.elim_some, toList_eq_cons]; rfl

theorem listFrom_walk (n : Nat) (node : Option Chain) :
    listFrom (walk n node) = (listFrom node).drop n := by
  induction n generalizing node with
  | zero => rfl
  | succ n ih =>
    rw [walk, Function.iterate_succ_apply]
    refine (ih (node.bind tail?)).trans ?_
    cases node with
    | none => exact List.drop_nil.trans List.drop_nil.symm
    | some c =>
      show (listFrom c.tail?).drop n = c.toList.drop (n + 1)
      rw [toList_eq_cons, List.drop_succ_cons]

theorem length_eq (c : Chain) : c.length = c.toList.length := by
  induction c with
  | last d => rfl
  | link d next ih => rw [length, toList, List.length_cons, ih]

theorem listFrom_find? (c : Chain) (t : Layout) :
    listFrom (c.find? t) = c.toList.dropWhile fun d => d.layout ≠ t := by
  induction c with
  | last d => by_cases h : d.layout = t <;> simp [find?, toList, listFrom, h]
  | link d next ih =>
    by_cases h : d.layout = t
    · simp [find?, toList, listFrom, h]
    · simpa [find?, toList, h] using ih

/-- The node that may be changed is the one that is found. What is in front of it stays. -/
theorem toList_update? (c : Chain) (t : Layout) (f : Chain → Chain) :
    (c.update? t f).map toList =
      (c.find? t).map fun node =>
        c.toList.takeWhile (fun d => d.layout ≠ t) ++ (f node).toList := by
  induction c with
  | last d => by_cases h : d.layout = t <;> simp [find?, update?, toList, h]
  | link d next ih =>
    by_cases h : d.layout = t
    · simp [find?, update?, toList, h]
    · have hnext := congrArg (Option.map (d :: ·)) ih
      simpa [find?, update?, toList, h, Function.comp_def] using hnext

/-! ## Edits -/

theorem toList_apply (e : NodeEdit) (c : Chain) : (e.apply c).toList = e.onList c.toList := by
  cases e with
  | attach node => cases c <;> simp [NodeEdit.apply, NodeEdit.onList, attach, toList]
  | change f => cases c <;> rfl
  | release => cases c <;> rfl

theorem splitAlong_nil (path : List Layout) : splitAlong path [] = ([], []) := by
  induction path with
  | nil => rfl
  | cons t path ih => simp [splitAlong, ih]

theorem listFrom_nodeAt? (path : List Layout) (c : Chain) :
    listFrom (c.nodeAt? path) = (splitAlong path c.toList).2 := by
  induction path generalizing c with
  | nil => rfl
  | cons t path ih =>
    rw [nodeAt?, splitAlong, ← listFrom_find?]
    cases c.find? t with
    | none => simp [listFrom, splitAlong_nil]
    | some node => exact ih node

theorem toList_editAt (path : List Layout) (f : Chain → Chain) (c : Chain) :
    (c.editAt path f).toList =
      (splitAlong path c.toList).1 ++ listFrom ((c.nodeAt? path).map f) := by
  induction path generalizing c with
  | nil => rfl
  | cons t path ih =>
    have hupdate := c.toList_update? t (editAt path f)
    have hsplit := List.takeWhile_append_dropWhile (p := fun d => d.layout ≠ t) (l := c.toList)
    rw [editAt, nodeAt?, splitAlong]
    rw [← listFrom_find?] at hsplit ⊢
    cases hfind : c.find? t with
    | none =>
      rw [hfind, Option.map_none, Option.map_eq_none_iff] at hupdate
      rw [hfind] at hsplit
      simpa [hupdate, listFrom, splitAlong_nil] using hsplit.symm
    | some node =>
      rw [hfind] at hupdate
      obtain ⟨changed, hchanged, htoList⟩ := Option.map_eq_some_iff.1 hupdate
      rw [hchanged, Option.getD_some, List.append_assoc]
      exact htoList.trans (congrArg (_ ++ ·) (ih node))

theorem toList_edit (c : Chain) (e : ChainEdit) : (c.edit e).toList = e.onList c.toList := by
  rw [edit, toList_editAt, ChainEdit.onList, ← listFrom_nodeAt?]
  cases c.nodeAt? e.path with
  | none => cases e.edit <;> rfl
  | some node => exact congrArg (_ ++ ·) (toList_apply e.edit node)

theorem toList_run (c : Chain) (edits : List ChainEdit) :
    (c.run edits).toList = edits.foldl (fun ds e => e.onList ds) c.toList := by
  induction edits generalizing c with
  | nil => rfl
  | cons e rest ih =>
    have hrest := ih (c.edit e)
    rw [toList_edit] at hrest
    exact hrest

/-! ## Paths -/

theorem splitAlong_append (path : List Layout) (ds : List Descriptor) :
    (splitAlong path ds).1 ++ (splitAlong path ds).2 = ds := by
  induction path generalizing ds with
  | nil => rfl
  | cons t path ih =>
    rw [splitAlong, List.append_assoc, ih, List.takeWhile_append_dropWhile]

theorem takeWhile_dropWhile_append {α : Type} {p : α → Bool} {front back : List α}
    (hfront : ∀ a ∈ front, p a = true) (hback : ∀ a, back.head? = some a → p a = false) :
    (front ++ back).takeWhile p = front ∧ (front ++ back).dropWhile p = back := by
  rw [List.takeWhile_append_of_pos hfront, List.dropWhile_append_of_pos hfront]
  cases back with
  | nil => exact ⟨List.append_nil _, rfl⟩
  | cons a back => simp [hback a rfl]

/-- Another descriptor of the same layout is found where the first one was, whatever is behind it.
-/
theorem splitAlong_replace {ds before rest rest' : List Descriptor} {d d' : Descriptor}
    (hlayout : d'.layout = d.layout) (h : splitAlong path ds = (before, d :: rest)) :
    splitAlong path (before ++ d' :: rest') = (before, d' :: rest') := by
  induction path generalizing ds before with
  | nil =>
    obtain ⟨rfl, -⟩ := Prod.mk.inj h
    rfl
  | cons t path ih =>
    let skip : Descriptor → Bool := fun d => d.layout ≠ t
    obtain ⟨rfl, hafter⟩ := Prod.mk.inj h
    have hfront : ∀ d ∈ ds.takeWhile skip, skip d = true := fun d => List.mem_takeWhile_imp
    -- what is left after skipping begins with the layout, before the change and after it
    have hback : ∀ first, ((splitAlong path (ds.dropWhile skip)).1 ++ d' :: rest').head? =
        some first → skip first = false := by
      have hfirst := List.head?_dropWhile_not skip ds
      rw [← splitAlong_append path (ds.dropWhile skip), hafter] at hfirst
      rintro first hhead
      cases hinner : (splitAlong path (ds.dropWhile skip)).1 with
      | nil =>
        rw [hinner] at hfirst hhead
        obtain rfl := Option.some.inj hhead
        simpa [skip, hlayout] using hfirst
      | cons d'' inner =>
        rw [hinner] at hfirst hhead
        obtain rfl := Option.some.inj hhead
        exact hfirst
    obtain ⟨htake, hdrop⟩ := takeWhile_dropWhile_append hfront hback
    rw [splitAlong, List.append_assoc, htake, hdrop, ih (Prod.ext rfl hafter)]

/-! ## The chain as a list -/

/-- To read the chain is to read the list. -/
structure ReadsAs (c : Chain) (ds : List Descriptor) : Prop where
  toList_eq : c.toList = ds
  /-- Node by node, up to the end. -/
  walk : ∀ n, (walk n (some c)).map head = ds[n]?
  length : c.length = ds.length
  find : ∀ t, (c.find? t).map head = ds.find? fun d => d.layout = t
  /-- The node that is found can be changed, along with what is behind it. -/
  update : ∀ t f node, c.find? t = some node → ∃ before, ds = before ++ node.toList ∧
    (c.update? t f).map toList = some (before ++ (f node).toList)
  /-- There is no other node to change. -/
  update_none : ∀ t f, c.find? t = none → c.update? t f = none

theorem readsAs_toList (c : Chain) : c.ReadsAs c.toList where
  toList_eq := rfl
  walk n := by
    rw [← head?_listFrom, listFrom_walk, List.head?_drop]
    rfl
  length := c.length_eq
  find t := by
    rw [← head?_listFrom, listFrom_find?, ← List.find?_not_eq_head?_dropWhile]
    simp
  update t f node hfind := by
    refine ⟨c.toList.takeWhile fun d => d.layout ≠ t, ?_, ?_⟩
    · have hlist := listFrom_find? c t
      rw [hfind] at hlist
      show c.toList = _ ++ listFrom (some node)
      rw [hlist, List.takeWhile_append_dropWhile]
    · rw [toList_update?, hfind]
      rfl
  update_none t f hfind := by
    rw [← Option.map_eq_none_iff (f := toList), toList_update?, hfind]
    rfl

/-- To release a node that is reached is to cut the list behind it. The path leads to it again, and
whatever is done to it then is done to an unbound descriptor at the end of the list. -/
structure ReleasesAlong (c : Chain) (path : List Layout) : Prop where
  of_nodeAt? : ∀ node, c.nodeAt? path = some node → ∃ before,
    let released := c.edit ⟨path, .release⟩
    let d := node.head.unbind
    c.toList = before ++ node.toList ∧ released.toList = before ++ [d] ∧ d.isBound = false ∧
      released.nodeAt? path = some (last d) ∧
      (∀ e, (released.edit ⟨path, e⟩).toList = before ++ e.onList [d]) ∧
      ∀ bs bound, node.head.bind bs = .ok bound →
        (released.edit ⟨path, .bind bs⟩).toList = before ++ [bound]

theorem eq_last_of_listFrom {node : Option Chain} {d : Descriptor} (h : listFrom node = [d]) :
    node = some (last d) := by
  cases node with
  | none => cases h
  | some c =>
    cases c with
    | last d' => rw [(List.cons.inj h).1]
    | link d' next => simp [listFrom, toList, toList_eq_cons next] at h

theorem releasesAlong (c : Chain) (path : List Layout) : c.ReleasesAlong path where
  of_nodeAt? node hnode := by
    have hafter := listFrom_nodeAt? path c
    rw [hnode] at hafter
    have hsplit : splitAlong path c.toList =
        ((splitAlong path c.toList).1, node.head :: listFrom node.tail?) := by
      refine Prod.ext rfl ?_
      rw [← hafter, ← toList_eq_cons]
      rfl
    generalize (splitAlong path c.toList).1 = before at hsplit
    refine ⟨before, ?_⟩
    intro released d
    have hreleased : released.toList = before ++ [d] := by
      rw [toList_edit, ChainEdit.onList, hsplit]
      rfl
    have hagain : splitAlong path (before ++ [d]) = (before, [d]) :=
      splitAlong_replace (d := node.head) rfl hsplit
    have hedit : ∀ e, (released.edit ⟨path, e⟩).toList = before ++ e.onList [d] := by
      intro e
      rw [toList_edit, hreleased, ChainEdit.onList, hagain]
    refine ⟨?_, hreleased, rfl, ?_, hedit, ?_⟩
    · rw [← splitAlong_append path c.toList, hsplit, ← toList_eq_cons]
    · refine eq_last_of_listFrom ?_
      rw [listFrom_nodeAt?, hreleased, hagain]
    · intro bs bound hbind
      have hbound : d.bind bs = .ok bound := hbind
      rw [hedit, NodeEdit.bind, NodeEdit.onList, hbound]
      rfl

/-- **A chain is the list of its descriptors, whatever is done to it.** Edits of its nodes are edits
of the list, the list is what is read, and a node that is released can be used again. -/
theorem list_of_edits (c : Chain) (edits : List ChainEdit) :
    (c.run edits).ReadsAs (edits.foldl (fun ds e => e.onList ds) c.toList) ∧
      ∀ path, (c.run edits).ReleasesAlong path := by
  refine ⟨?_, releasesAlong _⟩
  rw [← toList_run]
  exact readsAs_toList _

end Chain

end FrameIndex
