import FrameIndex.Type2

/-!
Remembering what was read. The records, the presence bits and the flow hash of a descriptor are
derived from its bytes when they are first read and kept from then on; other bytes start afresh.

`Memo.Sound` says that what is kept is what the bytes say. Every operation keeps it, so a read
answers as if nothing were remembered.
-/

namespace FrameIndex

/-- A flow hash: its whole word, the part without the type, and the type. -/
structure FlowHash where
  word : Nat
  low : Nat
  type : FlowHashType
  deriving DecidableEq

namespace Type2

/-- The flow hash of a descriptor. -/
def flowHash (bs : Bytes) : FlowHash where
  word := hashWord bs
  low := hash24 bs
  type := hashType bs

/-- The bytes that a descriptor is bound to, and what has been read of them so far. -/
structure Memo where
  image : Option Bytes := none
  keptRecords : Option (List HeaderRecord) := none
  keptPresence : Option Nat := none
  keptHash : Option FlowHash := none
  deriving DecidableEq

namespace Memo

/-- Binds to bytes that fit the layout, and remembers nothing of the bytes before. -/
def bind (m : Memo) (bs : Bytes) : Memo × Except LayoutError Unit :=
  match check bs with
  | .ok () => ({ image := some bs }, .ok ())
  | .error refusal => (m, .error refusal)

/-- Lets go of the bytes, and of what was read of them. -/
def unbind (_ : Memo) : Memo := {}

/-- What was kept, or else what the bytes say. -/
def remembered {α : Type} (kept : Option α) (derive : Bytes → α) (bs : Bytes) : α :=
  kept.getD (derive bs)

/-- Reads the records; none without bytes. -/
def records (m : Memo) : Memo × List HeaderRecord :=
  match m.image with
  | none => (m, [])
  | some bs =>
    let value := remembered m.keptRecords Type2.records bs
    ({ m with keptRecords := some value }, value)

/-- Reads the presence bits; 0 without bytes. -/
def presence (m : Memo) : Memo × Nat :=
  match m.image with
  | none => (m, 0)
  | some bs =>
    let value := remembered m.keptPresence Type2.presence bs
    ({ m with keptPresence := some value }, value)

/-- Reads the flow hash; the zero hash without bytes. -/
def hash (m : Memo) : Memo × FlowHash :=
  match m.image with
  | none => (m, ⟨0, 0, .none⟩)
  | some bs =>
    let value := remembered m.keptHash Type2.flowHash bs
    ({ m with keptHash := some value }, value)

/-- Everything that is kept is what the bytes say. -/
def Sound (m : Memo) : Prop :=
  ∀ bs, m.image = some bs →
    m.keptRecords.all (· = Type2.records bs) ∧
    m.keptPresence.all (· = Type2.presence bs) ∧
    m.keptHash.all (· = Type2.flowHash bs)

theorem remembered_eq {α : Type} [DecidableEq α] {kept : Option α} {derive : Bytes → α} {bs : Bytes}
    (h : kept.all (· = derive bs)) : remembered kept derive bs = derive bs := by
  cases kept with
  | none => rfl
  | some value => simpa [remembered] using h

theorem sound_bind {m : Memo} (h : m.Sound) (bs : Bytes) : (m.bind bs).1.Sound := by
  unfold bind
  split
  · intro _ _
    simp
  · exact h

theorem sound_unbind (m : Memo) : m.unbind.Sound := nofun

theorem sound_records {m : Memo} (h : m.Sound) : m.records.1.Sound := by
  unfold records
  split
  · exact h
  · rename_i bs hb
    intro bs' hb'
    obtain rfl : bs = bs' := Option.some.inj (hb.symm.trans hb')
    simpa [remembered_eq (h bs hb).1] using (h bs hb).2

theorem sound_presence {m : Memo} (h : m.Sound) : m.presence.1.Sound := by
  unfold presence
  split
  · exact h
  · rename_i bs hb
    intro bs' hb'
    obtain rfl : bs = bs' := Option.some.inj (hb.symm.trans hb')
    have := h bs hb
    simpa [remembered_eq this.2.1] using And.intro this.1 this.2.2

theorem sound_hash {m : Memo} (h : m.Sound) : m.hash.1.Sound := by
  unfold hash
  split
  · exact h
  · rename_i bs hb
    intro bs' hb'
    obtain rfl : bs = bs' := Option.some.inj (hb.symm.trans hb')
    have := h bs hb
    simpa [remembered_eq this.2.2] using And.intro this.1 this.2.1

end Memo

end Type2

end FrameIndex
