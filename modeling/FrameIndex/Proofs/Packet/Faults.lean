import FrameIndex.Proofs.Packet.Depths
import FrameIndex.Proofs.Packet.Requests
import FrameIndex.View.Guarded

/-!
# Views that refuse

A view may refuse the range of its header, or take it and then refuse the options
(`Packet.Refuses`). Views of the caller and cached views are bound by the same steps
(`Packet.bindOnto`), and that is the only place where a refusal becomes an error. So there is one
lemma for the steps that are refused and one for those that are taken (`Packet.bindOnto_of_refuses`,
`Packet.bindOnto_of_takes`), one for what becomes of a caller's view and one for a cached view, and
every access to a header is one of these (`Access`).

A refusal is reported as it is, and it is contained: the view is not bound afterwards, a cached view
is free again, and nothing else has changed (`Packet.faults_are_contained`).
-/

namespace FrameIndex

variable {V : Type}

/-! ## Accesses -/

/-- What can be looked at in a packet, and how: through a view of the caller or through a cached
one, a header or an extension of one, with absence as an answer or as an error. -/
inductive Access (V : Type) where
  | headerIfAny (own : V) (depth : Nat)
  | header (own : V) (depth : Nat)
  | extensionIfAny (parent : HeaderId) (own : V) (depth : Nat) (hint : Option Nat)
  | extension (parent : HeaderId) (own : V) (depth : Nat)
  | cachedHeader (id : HeaderId) (depth : Nat)
  | demandedHeader (id : HeaderId) (depth : Nat)
  | cachedExtension (parent ext : HeaderId) (depth : Nat)

structure Outcome (V : Type) where
  packet : Packet V
  /-- The view of the caller, or the cached one. -/
  view : Option V
  error : Option PacketError

def failure? {α : Type} : Except PacketError α → Option PacketError
  | .ok _ => none
  | .error e => some e

namespace Outcome

/-- Views of callers are bound without a change to the packet. -/
def ofCaller {α : Type} (p : Packet V) (bound : V × Except PacketError α) : Outcome V where
  packet := p
  view := some bound.1
  error := failure? bound.2

/-- A cached view is found under its key. -/
def ofCached {α : Type} (key : CacheKey) (bound : Packet V × Except PacketError α) : Outcome V where
  packet := bound.1
  view := bound.1.cache.view? key
  error := failure? bound.2

def Faulty (o : Outcome V) : Prop :=
  ∃ header summary fault, o.error = some (.binding header summary fault)

end Outcome

/-! ## Results that are passed on -/

/-- Results are passed on so that errors stay as they are, and no refusal by a view is added. -/
structure Transparent {α β : Type} (f : Except PacketError α → Except PacketError β) : Prop where
  error : ∀ e, f (.error e) = .error e
  ok : ∀ x header summary fault, f (.ok x) ≠ .error (.binding header summary fault)

theorem transparent_id {α : Type} : Transparent (id : Except PacketError α → _) :=
  ⟨fun _ => rfl, nofun⟩

theorem transparent_required (name : String) (depth : Nat) :
    Transparent (Packet.required name depth) :=
  ⟨fun _ => rfl, fun found _ _ _ => by cases found <;> nofun⟩

theorem transparent_requiredView (name : String) (depth : Nat) :
    Transparent (Packet.requiredView name depth : Except PacketError (Option V) → _) :=
  ⟨fun _ => rfl, fun found _ _ _ => by cases found <;> nofun⟩

theorem Transparent.not_faulty {α β : Type} {f : Except PacketError α → Except PacketError β}
    (hf : Transparent f) {o : Outcome V} {x : α} (h : o.error = failure? (f (.ok x))) :
    ¬ o.Faulty := by
  rintro ⟨header, summary, fault, herror⟩
  rw [h] at herror
  refine hf.ok x header summary fault ?_
  cases hresult : f (.ok x) with
  | ok _ =>
    rw [hresult] at herror
    cases herror
  | error e =>
    rw [hresult] at herror
    rw [Option.some.inj herror]

/-! ## What an access binds -/

namespace Access

def key? : Access V → Option CacheKey
  | headerIfAny _ _ | header _ _ | extensionIfAny _ _ _ _ | extension _ _ _ => none
  | cachedHeader id _ | demandedHeader id _ => some (.ofHeader id)
  | cachedExtension parent ext _ => some (.ofExtension parent ext)

/-- The options that are bound along with it. Extensions have none. -/
def options (p : Packet V) : Access V → Placement → Option OptionRun
  | headerIfAny _ _ | header _ _ | cachedHeader _ _ | demandedHeader _ _ =>
    Packet.ownOptions? p.index
  | extensionIfAny _ _ _ _ | extension _ _ _ | cachedExtension _ _ _ => fun _ => none

variable [Bindable V]

/-- Where the header or the extension lies, if it is there. -/
def target (p : Packet V) : Access V → Option Placement
  | headerIfAny own depth | header own depth => p.locate? (Bindable.id own) depth
  | extensionIfAny parent own depth hint =>
    p.index.extension? parent (Bindable.id own) depth hint
  | extension parent own depth => p.index.extension? parent (Bindable.id own) depth none
  | cachedHeader id depth | demandedHeader id depth => p.locate? id depth
  | cachedExtension parent ext depth => p.index.extension? parent ext depth none

def view (p : Packet V) : Access V → V
  | headerIfAny own _ | header own _ | extensionIfAny _ own _ _ | extension _ own _ => own
  | cachedHeader id _ | demandedHeader id _ => (p.cache.acquireHeader id).2
  | cachedExtension parent ext _ => (p.cache.acquireExtension parent ext).2

end Access

/-! ## Views that let go -/

variable [Bindable V]

/-- Views are not bound once they are unbound, and stay so when they are handed over. -/
structure ViewFactory.Unbinds (f : ViewFactory V) : Prop where
  unbind : ∀ v : V, Bindable.isBound (Bindable.unbind v) = false
  release : ∀ v : V, Bindable.isBound v = false → Bindable.isBound (f.release v) = false

theorem GuardRules.unbinds_factory (rules : GuardRules) : rules.factory.Unbinds where
  unbind v := by cases v <;> rfl
  release _ h := h

theorem ViewFactory.Unbinds.releasedSlot {f : ViewFactory V} (h : f.Unbinds) (slot : CacheSlot V) :
    Bindable.isBound (ViewCache.releasedSlot f slot).view = false := by
  rcases ViewCache.releasedSlot_cases f slot with hview | hview <;> rw [hview]
  · exact h.unbind _
  · exact h.release _ (h.unbind _)

namespace Packet

def access (p : Packet V) : Access V → Outcome V
  | .headerIfAny own depth => .ofCaller p (p.bindHeaderIfAny own depth)
  | .header own depth => .ofCaller p (p.bindHeader own depth)
  | .extensionIfAny parent own depth hint =>
    .ofCaller p (p.bindExtensionIfAny parent own depth hint)
  | .extension parent own depth => .ofCaller p (p.bindExtension parent own depth)
  | .cachedHeader id depth => .ofCached (.ofHeader id) (p.cachedHeader id depth)
  | .demandedHeader id depth => .ofCached (.ofHeader id) (p.demandHeader id depth)
  | .cachedExtension parent ext depth =>
    .ofCached (.ofExtension parent ext) (p.cachedExtension parent ext depth)

/-! ## Steps that are refused -/

/-- A view, as it is when it refuses a range or takes it and refuses the options, and why. -/
inductive Refuses (data : Bytes) (options : Option OptionRun) (l : Placement) (v : V) :
    V → BindRefusal → Prop where
  | range {w : V} {fault : BindRefusal} (refused : Bindable.bind data l v = (w, .error fault)) :
      Refuses data options l v w fault
  | options {u w : V} {run : OptionRun} {fault : BindRefusal}
      (taken : Bindable.bind data l v = (u, .ok ())) (own : options = some run)
      (refused : Bindable.bindOptions data run u = (w, .error fault)) :
      Refuses data options l v w fault

section

variable {data : Bytes} {options : Option OptionRun} {l : Placement} {v w : V} {fault : BindRefusal}

theorem bindOnto_of_refuses (h : Refuses data options l v w fault) (ix : HeaderIndex) :
    bindOnto data ix options l v =
      (Bindable.unbind w, .error (.binding (Bindable.name w) ix.summary fault)) := by
  unfold bindOnto
  cases h with
  | range refused => simp only [refused]
  | options taken own refused => simp only [taken, own, refused]

theorem bindOnto_of_takes (h : ∀ w fault, ¬ Refuses data options l v w fault) (ix : HeaderIndex) :
    (bindOnto data ix options l v).2 = .ok () := by
  unfold bindOnto
  split
  · rename_i refused
    exact absurd (.range refused) (h _ _)
  · rename_i taken
    cases options with
    | none => rfl
    | some run =>
      simp only
      split
      · rename_i refused
        exact absurd (.options taken rfl refused) (h _ _)
      · rfl

end

/-! ## Containment -/

/-- What the refusal by a view leaves behind. A cached view is kept under `key?`. -/
structure Contained (p : Packet V) (key? : Option CacheKey) (w : V) (fault : BindRefusal)
    (o : Outcome V) : Prop where
  error_eq : o.error = some (.binding (Bindable.name w) p.index.summary fault)
  unbound : ∃ v, o.view = some v ∧ Bindable.isBound v = false
  /-- The cached view is free. -/
  freed : ∀ key, key? = some key →
    ∃ v, o.packet.cache.slot? key = some ⟨v, false⟩ ∧ Bindable.isBound v = false
  others_eq : ∀ key, key? ≠ some key → o.packet.cache.slot? key = p.cache.slot? key
  data_eq : o.packet.data = p.data
  chain_eq : o.packet.chain = p.chain

/-- A refusal is an error exactly if the range was looked up and the view refuses, and it is
contained then. -/
structure Settles (p : Packet V) (key? : Option CacheKey) (target : Option Placement)
    (options : Placement → Option OptionRun) (v : V) (o : Outcome V) : Prop where
  faulty_iff : o.Faulty ↔ ∃ l w fault, target = some l ∧
    Refuses p.data (options l) l (Bindable.unbind v) w fault
  contained : ∀ l w fault, target = some l →
    Refuses p.data (options l) l (Bindable.unbind v) w fault → Contained p key? w fault o

/-! ## Views of callers and cached views -/

theorem Contained.faulty {p : Packet V} {key? : Option CacheKey} {w : V} {fault : BindRefusal}
    {o : Outcome V} (h : Contained p key? w fault o) : o.Faulty :=
  ⟨_, _, _, h.error_eq⟩

/-- What is to be shown of an access: without a refusal there is no such error, and a refusal is
contained. -/
theorem settles_of {p : Packet V} {key? : Option CacheKey} {target : Option Placement}
    {options : Placement → Option OptionRun} {v : V} {o : Outcome V}
    (habsent : target = none → ¬ o.Faulty)
    (htakes : ∀ l, target = some l →
      (∀ w fault, ¬ Refuses p.data (options l) l (Bindable.unbind v) w fault) → ¬ o.Faulty)
    (hrefuses : ∀ l w fault, target = some l →
      Refuses p.data (options l) l (Bindable.unbind v) w fault → Contained p key? w fault o) :
    Settles p key? target options v o := by
  refine ⟨⟨fun hfaulty => ?_, ?_⟩, hrefuses⟩
  · cases target with
    | none => exact absurd hfaulty (habsent rfl)
    | some l =>
      refine Classical.byContradiction fun hnone => ?_
      exact htakes l rfl (fun w fault h => hnone ⟨l, w, fault, rfl, h⟩) hfaulty
  · rintro ⟨l, w, fault, htarget, h⟩
    exact (hrefuses l w fault htarget h).faulty

section

variable {α : Type} {p : Packet V} {options : Placement → Option OptionRun}
  {target : Option Placement} {v : V}

theorem bindCaller_of_refuses {l : Placement} {w : V} {fault : BindRefusal}
    (h : Refuses p.data (options l) l (Bindable.unbind v) w fault) :
    p.bindCaller options (some l) v =
      (Bindable.unbind w, .error (.binding (Bindable.name w) p.index.summary fault)) := by
  simp only [bindCaller, bindOnto_of_refuses h]

theorem bindCaller_of_takes {l : Placement}
    (h : ∀ w fault, ¬ Refuses p.data (options l) l (Bindable.unbind v) w fault) :
    (p.bindCaller options (some l) v).2 = .ok true := by
  have hok := bindOnto_of_takes h p.index
  simp only [bindCaller]
  split
  · rename_i hbound
    rw [hbound] at hok
    cases hok
  · rfl

theorem settles_ofCaller {f : Except PacketError Bool → Except PacketError α}
    (hunbind : ∀ v : V, Bindable.isBound (Bindable.unbind v) = false) (hf : Transparent f) :
    Settles p none target options v
      (.ofCaller p ((p.bindCaller options target v).map id f)) := by
  refine settles_of ?_ ?_ ?_
  · rintro rfl
    exact hf.not_faulty (x := false) rfl
  · rintro l rfl htakes
    refine hf.not_faulty (x := true) ?_
    rw [← bindCaller_of_takes htakes]
    rfl
  · rintro l w fault rfl hrefuses
    rw [bindCaller_of_refuses hrefuses]
    exact {
      error_eq := congrArg failure? (hf.error _)
      unbound := ⟨_, rfl, hunbind w⟩
      freed := nofun
      others_eq := fun _ _ => rfl
      data_eq := rfl
      chain_eq := rfl }

theorem settles_ofCached {key : CacheKey} {fits : V → Bool} {make : V}
    {f : Except PacketError (Option V) → Except PacketError α}
    (hunbinds : p.cache.factory.Unbinds) (hf : Transparent f) :
    Settles p (some key) target options (p.cache.acquire key fits make).2
      (.ofCached key ((p.fetch key fits make options target).map id f)) := by
  refine settles_of ?_ ?_ ?_
  · rintro rfl
    exact hf.not_faulty (x := none) rfl
  · rintro l rfl htakes
    obtain ⟨cache, hfetch, -, -⟩ := p.fetch_eq_settled key fits make options l
    rw [hfetch, bindOnto_of_takes htakes p.index]
    exact hf.not_faulty (x := some _) rfl
  · rintro l w fault rfl hrefuses
    obtain ⟨cache, hfetch, -, hslots⟩ := p.fetch_eq_settled key fits make options l
    rw [bindOnto_of_refuses hrefuses] at hfetch hslots
    have hslot : cache.slot? key = some (ViewCache.releasedSlot p.cache.factory
        ⟨Bindable.unbind w, true⟩) := by
      rw [ViewCache.slot?, hslots, ViewCache.lookup_put, if_pos rfl]
      rfl
    have hunbound := hunbinds.releasedSlot ⟨Bindable.unbind w, true⟩
    rw [hfetch]
    exact {
      error_eq := congrArg failure? (hf.error _)
      unbound := ⟨_, congrArg (Option.map CacheSlot.view) hslot, hunbound⟩
      freed := by
        rintro _ ⟨⟩
        exact ⟨_, hslot, hunbound⟩
      others_eq := by
        intro k hk
        have hne : k ≠ key := fun h => hk (congrArg some h.symm)
        show List.lookup k cache.slots = _
        rw [hslots, ViewCache.lookup_put, if_neg hne]
        rfl
      data_eq := rfl
      chain_eq := rfl }

end

theorem settles_access {p : Packet V} (hunbinds : p.cache.factory.Unbinds) (a : Access V) :
    Settles p a.key? (a.target p) (a.options p) (a.view p) (p.access a) := by
  cases a with
  | headerIfAny own depth => exact settles_ofCaller hunbinds.unbind transparent_id
  | header own depth => exact settles_ofCaller hunbinds.unbind (transparent_required _ _)
  | extensionIfAny parent own depth hint => exact settles_ofCaller hunbinds.unbind transparent_id
  | extension parent own depth => exact settles_ofCaller hunbinds.unbind (transparent_required _ _)
  | cachedHeader id depth =>
    rw [access, cachedHeader_eq_fetch]
    exact settles_ofCached hunbinds transparent_id
  | demandedHeader id depth =>
    rw [access, demandHeader_eq_map, cachedHeader_eq_fetch]
    exact settles_ofCached hunbinds (transparent_requiredView _ _)
  | cachedExtension parent ext depth =>
    rw [access, cachedExtension_eq_fetch]
    exact settles_ofCached hunbinds transparent_id

/-- **Refusals are contained.** An access to a header fails with the refusal of a view exactly if
the header is located and its view, unbound first, refuses its range, or takes it and refuses its
options. The error carries the refusal as it is and the summary of the descriptor. The view is not
bound then, a cached one is free, and all other views, the frame and its descriptors are as they
were. -/
theorem faults_are_contained (p : Packet V) (hunbinds : p.cache.factory.Unbinds) (a : Access V) :
    ((p.access a).Faulty ↔ ∃ l w fault, a.target p = some l ∧
      Refuses p.data (a.options p l) l (Bindable.unbind (a.view p)) w fault) ∧
    ∀ l w fault, a.target p = some l →
      Refuses p.data (a.options p l) l (Bindable.unbind (a.view p)) w fault →
      Contained p a.key? w fault (p.access a) :=
  have hsettles := settles_access hunbinds a
  ⟨hsettles.faulty_iff, hsettles.contained⟩

/-- Options of IPv4 headers are refused, and views are handed back. -/
def balking : GuardRules where
  refusals := [⟨.ipv4, none, some "unknown option"⟩]
  takesBack := true

/-- A packet of an IPv4 header inside another, whose views of the frame and of the outer header are
in use. -/
def nested : Packet GuardedView :=
  ((unbound {} balking.factory).run
    [.bind (List.replicate 66 0) nestedDescriptor.bytes, .header .frame 0, .header .ipv4 0]).1

/-- The view of the inner header, bound and about to refuse its option. -/
def halfBound : GuardedView :=
  .raw { id := .ipv4, placement := some ⟨38, 24, some 3, .type2⟩,
         bytes := some (List.replicate 24 0) } none (some "unknown option")

/-- `faults_are_contained` at that packet and the inner header, which has an option. Its view takes
the range and refuses the option. It is the view of the outer header, and free then, and the view of
the frame is still in use. -/
theorem faults_are_contained_nested :
    let inner := nested.access (.cachedHeader .ipv4 1)
    balking.factory.Unbinds ∧
    nested.cache.slots.map (fun e => (e.1, Bindable.isBound e.2.view, e.2.inUse)) =
      [(.ofHeader .frame, true, true), (.ofHeader .ipv4, true, true)] ∧
    Bindable.isBound halfBound = true ∧ inner.Faulty ∧
    Contained nested (some (.ofHeader .ipv4)) halfBound (.rejected "unknown option") inner ∧
    inner.packet.cache.isInUse (.ofHeader .ipv4) = false ∧
    inner.packet.cache.isInUse (.ofHeader .frame) = true := by
  intro inner
  let a : Access GuardedView := .cachedHeader .ipv4 1
  have hslots : nested.cache.slots.map (fun e => (e.1, Bindable.isBound e.2.view, e.2.inUse)) =
      [(.ofHeader .frame, true, true), (.ofHeader .ipv4, true, true)] := by decide +kernel
  have htarget : a.target nested = some ⟨38, 24, some 3, .type2⟩ := by decide +kernel
  have hoptions : a.options nested ⟨38, 24, some 3, .type2⟩ = some ⟨4, 1, 58, 4⟩ := by
    decide +kernel
  have hrefuses : Refuses nested.data (a.options nested ⟨38, 24, some 3, .type2⟩)
      ⟨38, 24, some 3, .type2⟩ (Bindable.unbind (a.view nested)) halfBound
      (.rejected "unknown option") := .options rfl hoptions rfl
  obtain ⟨hfaulty, hcontained⟩ := faults_are_contained nested balking.unbinds_factory a
  have hinner := hcontained _ _ _ htarget hrefuses
  refine ⟨balking.unbinds_factory, hslots, rfl, hfaulty.2 ⟨_, _, _, htarget, hrefuses⟩, hinner,
    ?_, ?_⟩
  · obtain ⟨v, hslot, -⟩ := hinner.freed _ rfl
    rw [ViewCache.isInUse, hslot]
    rfl
  · rw [ViewCache.isInUse, hinner.others_eq (.ofHeader .frame) (by decide)]
    decide +kernel

end Packet

end FrameIndex
