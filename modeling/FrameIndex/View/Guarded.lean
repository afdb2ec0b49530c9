import FrameIndex.ViewCache

/-!
Views under rules: some headers are refused, some are only bookmarked. A refused header has a raw
view that answers with a given text instead of binding. A bookmark keeps the place of a header, and
never its bytes.
-/

namespace FrameIndex

/-- A raw view that may refuse, or a bookmark. -/
inductive GuardedView where
  | raw (view : RawView) (refusal optionsRefusal : Option String)
  | bookmark (id : HeaderId) (placement : Option Placement)
  deriving DecidableEq

namespace GuardedView

/-- Answers with a refusal if there is one, and otherwise does as the raw view does. -/
def guarded (refusal : Option String)
    (act : RawView → RawView × Except BindRefusal Unit) (v : RawView) :
    RawView × Except BindRefusal Unit :=
  match refusal with
  | some text => (v, .error (.rejected text))
  | none => act v

instance : Bindable GuardedView where
  id
    | raw v _ _ => v.id
    | bookmark id _ => id
  bind frame l
    | raw v refusal optionsRefusal =>
      let (v, result) := guarded refusal (RawView.bind frame l) v
      (raw v refusal optionsRefusal, result)
    | bookmark id _ => (bookmark id (some l), .ok ())
  bindOptions frame run
    | raw v refusal optionsRefusal =>
      let (v, result) := guarded optionsRefusal (RawView.bindOptions frame run) v
      (raw v refusal optionsRefusal, result)
    | bookmark id l => (bookmark id l, .ok ())
  unbind
    | raw v refusal optionsRefusal => raw v.unbind refusal optionsRefusal
    | bookmark id _ => bookmark id none
  isBound
    | raw v _ _ => v.placement.isSome
    | bookmark _ l => l.isSome
  placement
    | raw v _ _ => v.placement
    | bookmark _ l => l
  data
    | raw v _ _ => v.bytes
    | bookmark _ _ => none

end GuardedView

/-- A header that is refused, with the texts for the header and for its options. -/
structure Refusal where
  id : HeaderId
  text : Option String
  optionsText : Option String

/-- Which headers are refused and which are bookmarked. -/
structure GuardRules where
  refusals : List Refusal := []
  bookmarks : List HeaderId := []
  /-- The header that every extension view is made for, in place of its own. -/
  extensionAs : Option HeaderId := none
  takesBack : Bool := false

namespace GuardRules

/-- The view that the rules ask for. -/
def viewFor (rules : GuardRules) (id : HeaderId) : GuardedView :=
  if rules.bookmarks.any (·.agrees id) then .bookmark id none
  else
    match rules.refusals.find? (·.id.agrees id) with
    | some refusal => .raw { id } refusal.text refusal.optionsText
    | none => .raw { id } none none

/-- The factory of views under the rules. -/
def factory (rules : GuardRules) : ViewFactory GuardedView where
  make := rules.viewFor
  makeExtension _ ext := rules.viewFor (rules.extensionAs.getD ext)
  takesBack := rules.takesBack
  release := id

end GuardRules

end FrameIndex
