import FrameIndex.Proofs.Packet.Requests
import FrameIndex.View.Guarded

/-!
# Views of one key

What a view was bound to before shows in nothing once it is unbound: all views that were made for
one key are then bound alike (`ViewFactory.Uniform`), however they were used in between
(`ViewFactory.Stems`). This is supposed of a factory, and it holds of the factories here: their
views have a kind that no operation changes and that decides how they are bound
(`ViewFactory.Sorted`).
-/

namespace FrameIndex

variable {V : Type} [Bindable V]

namespace ViewFactory

/-- The view was made for the key, whatever was done with it since. -/
inductive Stems (f : ViewFactory V) (key : CacheKey) : V → Prop where
  | made {v : V} (h : f.Makes key v) : Stems f key v
  | bound {v : V} (h : Stems f key v) (data : Bytes) (l : Placement) :
      Stems f key (Bindable.bind data l v).1
  | boundOptions {v : V} (h : Stems f key v) (data : Bytes) (run : OptionRun) :
      Stems f key (Bindable.bindOptions data run v).1
  | unbound {v : V} (h : Stems f key v) : Stems f key (Bindable.unbind v)
  | released {v : V} (h : Stems f key v) : Stems f key (f.release v)

def observed (bound : V × Except BindRefusal Unit) : Sight × Except BindRefusal Unit :=
  (Bindable.sight bound.1, bound.2)

/-- Once they are unbound, the views of a key are bound alike. -/
structure Uniform (f : ViewFactory V) : Prop where
  bind : ∀ {key v w}, f.Stems key v → f.Stems key w → ∀ data l,
    observed (Bindable.bind data l (Bindable.unbind v)) =
      observed (Bindable.bind data l (Bindable.unbind w))
  bindOptions : ∀ {key v w}, f.Stems key v → f.Stems key w → ∀ data l run,
    observed (Bindable.bindOptions data run (Bindable.bind data l (Bindable.unbind v)).1) =
      observed (Bindable.bindOptions data run (Bindable.bind data l (Bindable.unbind w)).1)

variable {f : ViewFactory V} {key : CacheKey} {v w : V}

theorem Stems.bindOnto (h : f.Stems key v) (data : Bytes) (ix : HeaderIndex)
    (options : Option OptionRun) (l : Placement) :
    f.Stems key (Packet.bindOnto data ix options l v).1 := by
  have hbound := h.bound data l
  unfold Packet.bindOnto
  split
  · rename_i v' fault heq
    rw [heq] at hbound
    exact hbound.unbound
  · rename_i v' heq
    rw [heq] at hbound
    cases options with
    | none => exact hbound
    | some run =>
      have hoptions := hbound.boundOptions data run
      simp only
      split
      · rename_i heq
        rw [heq] at hoptions
        exact hoptions.unbound
      · rename_i heq
        rw [heq] at hoptions
        exact hoptions

theorem Stems.releasedSlot (slot : CacheSlot V) (h : f.Stems key slot.view) :
    f.Stems key (ViewCache.releasedSlot f slot).view := by
  rcases ViewCache.releasedSlot_cases f slot with hview | hview <;> rw [hview]
  · exact h.unbound
  · exact h.unbound.released

theorem stems_of_acquired (h : f.Makes key v ∨ ∃ slot : CacheSlot V, f.Stems key slot.view ∧
    v = slot.view) : f.Stems key v := by
  rcases h with hmade | ⟨slot, hslot, rfl⟩
  · exact .made hmade
  · exact hslot

theorem Stems.settled (h : f.Stems key v) (data : Bytes) (ix : HeaderIndex)
    (options : Option OptionRun) (l : Placement) :
    f.Stems key (Packet.settled f
      (Packet.bindOnto data ix options l (Bindable.unbind v))).view := by
  have hbound := h.unbound.bindOnto data ix options l
  exact Packet.settled_cases (C := fun slot => f.Stems key slot.view) (fun _ => hbound)
    (hbound.releasedSlot ⟨_, true⟩)

theorem name_eq_of_sight_eq (h : Bindable.sight v = Bindable.sight w) :
    Bindable.name v = Bindable.name w := by
  have hordinal : (Bindable.id v).ordinal = (Bindable.id w).ordinal := congrArg Sight.ordinal h
  simp only [Bindable.name, HeaderId.name, HeaderId.agrees, hordinal]

theorem Uniform.bindOnto (h : f.Uniform) (hv : f.Stems key v) (hw : f.Stems key w) (data : Bytes)
    (ix : HeaderIndex) (options : Option OptionRun) (l : Placement) :
    let x := Packet.bindOnto data ix options l (Bindable.unbind v)
    let y := Packet.bindOnto data ix options l (Bindable.unbind w)
    x.2.map (fun _ => Bindable.sight x.1) = y.2.map (fun _ => Bindable.sight y.1) := by
  intro x y
  have hbind := h.bind hv hw data l
  have hoptions := h.bindOptions hv hw data l
  obtain ⟨v₁, r₁, hv₁⟩ : ∃ v₁ r₁, Bindable.bind data l (Bindable.unbind v) = (v₁, r₁) := ⟨_, _, rfl⟩
  obtain ⟨w₁, s₁, hw₁⟩ : ∃ w₁ s₁, Bindable.bind data l (Bindable.unbind w) = (w₁, s₁) := ⟨_, _, rfl⟩
  rw [hv₁, hw₁] at hbind hoptions
  obtain ⟨hsight, rfl⟩ := Prod.mk.inj hbind
  simp only [x, y, Packet.bindOnto, hv₁, hw₁]
  cases r₁ with
  | error fault => simp only [name_eq_of_sight_eq hsight, Except.map]
  | ok _ =>
    cases options with
    | none => simp only [hsight]
    | some run =>
      have hoptions := hoptions run
      obtain ⟨v₂, r₂, hv₂⟩ : ∃ v₂ r₂, Bindable.bindOptions data run v₁ = (v₂, r₂) := ⟨_, _, rfl⟩
      obtain ⟨w₂, s₂, hw₂⟩ : ∃ w₂ s₂, Bindable.bindOptions data run w₁ = (w₂, s₂) := ⟨_, _, rfl⟩
      rw [hv₂, hw₂] at hoptions
      obtain ⟨hsight, rfl⟩ := Prod.mk.inj hoptions
      simp only [hv₂, hw₂]
      cases r₂ with
      | error fault => simp only [name_eq_of_sight_eq hsight, Except.map]
      | ok _ => simp only [Except.map, hsight]

/-- Views have a kind, which decides how they are bound and which no operation changes. -/
structure Sorted {K : Type} (f : ViewFactory V) (kind : V → K) : Prop where
  make : ∀ {id id'}, id.ordinal = id'.ordinal → kind (f.make id) = kind (f.make id')
  makeExtension : ∀ {parent parent' ext ext'}, parent.ordinal = parent'.ordinal →
    ext.ordinal = ext'.ordinal →
    kind (f.makeExtension parent ext) = kind (f.makeExtension parent' ext')
  bind : ∀ data l v, kind (Bindable.bind data l v).1 = kind v
  bindOptions : ∀ data run v, kind (Bindable.bindOptions data run v).1 = kind v
  unbind : ∀ v, kind (Bindable.unbind v) = kind v
  release : ∀ v, kind (f.release v) = kind v
  observed_bind : ∀ {v w}, kind v = kind w → ∀ data l,
    observed (Bindable.bind data l (Bindable.unbind v)) =
      observed (Bindable.bind data l (Bindable.unbind w))
  observed_bindOptions : ∀ {v w}, kind v = kind w → ∀ data l run,
    observed (Bindable.bindOptions data run (Bindable.bind data l (Bindable.unbind v)).1) =
      observed (Bindable.bindOptions data run (Bindable.bind data l (Bindable.unbind w)).1)

variable {K : Type} {kind : V → K}

theorem Sorted.kind_eq_of_makes (h : f.Sorted kind) (hv : f.Makes key v) (hw : f.Makes key w) :
    kind v = kind w := by
  cases hv with
  | header id =>
    generalize hkey : CacheKey.ofHeader id = key at hw
    cases hw with
    | header id' => exact h.make (CacheKey.header.inj hkey)
    | extension parent' ext' => cases hkey
  | extension parent ext =>
    generalize hkey : CacheKey.ofExtension parent ext = key at hw
    cases hw with
    | header id' => cases hkey
    | extension parent' ext' =>
      obtain ⟨hparent, hext⟩ := CacheKey.extension.inj hkey
      exact h.makeExtension hparent hext

theorem Sorted.exists_makes (h : f.Sorted kind) (hv : f.Stems key v) :
    ∃ made, f.Makes key made ∧ kind v = kind made := by
  induction hv with
  | made hmade => exact ⟨_, hmade, rfl⟩
  | bound _ data l ih =>
    obtain ⟨made, hmade, hkind⟩ := ih
    exact ⟨made, hmade, (h.bind data l _).trans hkind⟩
  | boundOptions _ data run ih =>
    obtain ⟨made, hmade, hkind⟩ := ih
    exact ⟨made, hmade, (h.bindOptions data run _).trans hkind⟩
  | unbound _ ih =>
    obtain ⟨made, hmade, hkind⟩ := ih
    exact ⟨made, hmade, (h.unbind _).trans hkind⟩
  | released _ ih =>
    obtain ⟨made, hmade, hkind⟩ := ih
    exact ⟨made, hmade, (h.release _).trans hkind⟩

/-- However they were used, the views of one key are of one kind. -/
theorem Sorted.kind_eq_of_stems (h : f.Sorted kind) (hv : f.Stems key v) (hw : f.Stems key w) :
    kind v = kind w := by
  obtain ⟨madeV, hmadeV, hkindV⟩ := h.exists_makes hv
  obtain ⟨madeW, hmadeW, hkindW⟩ := h.exists_makes hw
  rw [hkindV, hkindW, h.kind_eq_of_makes hmadeV hmadeW]

theorem Sorted.uniform (h : f.Sorted kind) : f.Uniform :=
  ⟨fun hv hw => h.observed_bind (h.kind_eq_of_stems hv hw),
    fun hv hw => h.observed_bindOptions (h.kind_eq_of_stems hv hw)⟩

end ViewFactory

/-! ## Raw views -/

namespace RawView

open ViewFactory (observed)

theorem id_bind (data : Bytes) (l : Placement) (v : RawView) : (bind data l v).1.id = v.id := by
  unfold bind
  split <;> rfl

theorem id_bindOptions (data : Bytes) (run : OptionRun) (v : RawView) :
    (bindOptions data run v).1.id = v.id := by
  unfold bindOptions
  split <;> rfl

theorem observed_bind {v w : RawView} (h : v.id.ordinal = w.id.ordinal) (data : Bytes)
    (l : Placement) : observed (bind data l v.unbind) = observed (bind data l w.unbind) := by
  have hsight : Bindable.sight v.unbind = Bindable.sight w.unbind := congrArg (Sight.mk · _ _ _) h
  unfold bind
  cases data.range? l.offset l.length with
  | ok bytes =>
    exact congrArg (fun n => (Sight.mk n true (some l) (some bytes), Except.ok ())) h
  | error fault => exact congrArg (·, Except.error fault) hsight

/-- Options do not show, and whether they are refused does not depend on the view. -/
theorem observed_bindOptions {v w : RawView} (h : Bindable.sight v = Bindable.sight w)
    (data : Bytes) (run : OptionRun) :
    observed (bindOptions data run v) = observed (bindOptions data run w) := by
  unfold bindOptions
  cases data.range? run.offset run.length with
  | ok bytes => exact congrArg (·, Except.ok ()) h
  | error fault => exact congrArg (·, Except.error fault) h

end RawView

theorem ViewFactory.sorted_raw : ViewFactory.raw.Sorted fun v => v.id.ordinal := by
  constructor
  case make => exact id
  case makeExtension => exact fun _ h => h
  case bind => exact fun data l v => congrArg HeaderId.ordinal (RawView.id_bind data l v)
  case bindOptions =>
    exact fun data run v => congrArg HeaderId.ordinal (RawView.id_bindOptions data run v)
  case unbind => exact fun _ => rfl
  case release => exact fun _ => rfl
  case observed_bind => exact fun h data l => RawView.observed_bind h data l
  case observed_bindOptions =>
    intro v w h data l run
    have hsight := congrArg Prod.fst (RawView.observed_bind h data l)
    exact RawView.observed_bindOptions hsight data run

/-! ## Views under rules -/

namespace GuardedView

open ViewFactory (observed)

/-- The header, up to classes, and the refusals of a view that is no bookmark. -/
def kind : GuardedView → Nat × Option (Option String × Option String)
  | raw v refusal optionsRefusal => (v.id.ordinal, some (refusal, optionsRefusal))
  | bookmark id _ => (id.ordinal, none)

theorem kind_bind (data : Bytes) (l : Placement) (v : GuardedView) :
    (Bindable.bind data l v).1.kind = v.kind := by
  cases v with
  | bookmark id _ => rfl
  | raw v refusal optionsRefusal =>
    cases refusal with
    | some text => rfl
    | none => exact congrArg (fun id => (HeaderId.ordinal id, _)) (RawView.id_bind data l v)

theorem kind_bindOptions (data : Bytes) (run : OptionRun) (v : GuardedView) :
    (Bindable.bindOptions data run v).1.kind = v.kind := by
  cases v with
  | bookmark id _ => rfl
  | raw v refusal optionsRefusal =>
    cases optionsRefusal with
    | some text => rfl
    | none =>
      exact congrArg (fun id => (HeaderId.ordinal id, _)) (RawView.id_bindOptions data run v)

theorem kind_unbind (v : GuardedView) : (Bindable.unbind v).kind = v.kind := by
  cases v <;> rfl

theorem observed_bind {v w : GuardedView} (h : v.kind = w.kind) (data : Bytes) (l : Placement) :
    observed (Bindable.bind data l (Bindable.unbind v)) =
      observed (Bindable.bind data l (Bindable.unbind w)) := by
  cases v with
  | raw v refusal optionsRefusal =>
    cases w with
    | bookmark id' l' => cases congrArg Prod.snd h
    | raw w refusal' optionsRefusal' =>
      have hordinal : v.id.ordinal = w.id.ordinal := congrArg Prod.fst h
      obtain ⟨rfl, rfl⟩ := Prod.mk.inj (Option.some.inj (congrArg Prod.snd h))
      cases refusal with
      | some text => exact congrArg (fun n => (Sight.mk n _ _ _, _)) hordinal
      | none => exact RawView.observed_bind hordinal data l
  | bookmark id l' =>
    cases w with
    | raw w refusal' optionsRefusal' => cases congrArg Prod.snd h
    | bookmark id' l'' =>
      have hordinal : id.ordinal = id'.ordinal := congrArg Prod.fst h
      exact congrArg (fun n => (Sight.mk n _ _ _, _)) hordinal

theorem observed_bindOptions {v w : GuardedView} (h : v.kind = w.kind)
    (hsight : Bindable.sight v = Bindable.sight w) (data : Bytes) (run : OptionRun) :
    observed (Bindable.bindOptions data run v) = observed (Bindable.bindOptions data run w) := by
  cases v with
  | raw v refusal optionsRefusal =>
    cases w with
    | bookmark id' l' => cases congrArg Prod.snd h
    | raw w refusal' optionsRefusal' =>
      obtain ⟨rfl, rfl⟩ := Prod.mk.inj (Option.some.inj (congrArg Prod.snd h))
      cases optionsRefusal with
      | some text => exact congrArg (·, _) hsight
      | none => exact RawView.observed_bindOptions hsight data run
  | bookmark id l' =>
    cases w with
    | raw w refusal' optionsRefusal' => cases congrArg Prod.snd h
    | bookmark id' l'' => exact congrArg (·, _) hsight

end GuardedView

theorem GuardRules.kind_viewFor (rules : GuardRules) {id id' : HeaderId}
    (h : id.ordinal = id'.ordinal) : (rules.viewFor id).kind = (rules.viewFor id').kind := by
  have hagrees : ∀ a : HeaderId, a.agrees id = a.agrees id' := by
    intro a
    rw [HeaderId.agrees, HeaderId.agrees, h]
  simp only [viewFor, hagrees]
  split
  · exact congrArg (·, none) h
  · split
    · exact congrArg (·, _) h
    · exact congrArg (·, _) h

theorem GuardRules.sorted_factory (rules : GuardRules) :
    rules.factory.Sorted GuardedView.kind := by
  constructor
  case make => exact rules.kind_viewFor
  case makeExtension =>
    intro parent parent' ext ext' _ hext
    show (rules.viewFor (rules.extensionAs.getD ext)).kind =
      (rules.viewFor (rules.extensionAs.getD ext')).kind
    cases rules.extensionAs with
    | some id => rfl
    | none => exact rules.kind_viewFor hext
  case bind => exact GuardedView.kind_bind
  case bindOptions => exact GuardedView.kind_bindOptions
  case unbind => exact GuardedView.kind_unbind
  case release => exact fun _ => rfl
  case observed_bind => exact GuardedView.observed_bind
  case observed_bindOptions =>
    intro v w h data l run
    have hkind : ∀ u : GuardedView, (Bindable.bind data l (Bindable.unbind u)).1.kind = u.kind :=
      fun u => (GuardedView.kind_bind data l _).trans u.kind_unbind
    have hsight := congrArg Prod.fst (GuardedView.observed_bind h data l)
    have hsame := ((hkind v).trans h).trans (hkind w).symm
    exact GuardedView.observed_bindOptions hsame hsight data run

theorem GuardRules.uniform_factory (rules : GuardRules) : rules.factory.Uniform :=
  rules.sorted_factory.uniform

end FrameIndex
