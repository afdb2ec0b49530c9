import FrameIndex.Proofs.Packet.Confinement
import FrameIndex.Proofs.Packet.Twins
import FrameIndex.Type2.Memo

/-!
# Binding leaves no trace of earlier frames

A packet that has served any requests is bound with the same result as a new one, and the two cannot
be told apart from then on (`Packet.bind_leaves_no_trace`): not by what is read of them, and not by
the views they hand out.

Binding starts by letting go of the frame and of the descriptors, of which only the layout of the
first is left, and no request changes that. So frame and descriptors are the same once they are
bound. The caches need not be; but the packets are twins.
-/

namespace FrameIndex

namespace Packet

variable {V : Type} [Bindable V]

/-! ## What is read -/

/-- Whatever is read of the packets agrees, views of callers included. -/
structure ReadsAs (p q : Packet V) : Prop where
  setup : p.setup = q.setup
  isBound : p.isBound = q.isBound
  data : p.data = q.data
  /-- The lengths, the timestamp, the presence bits and the records. -/
  index : p.index = q.index
  time? : p.time? = q.time?
  descriptors : p.chain.toList = q.chain.toList
  chained? : ∀ layout, p.chained? layout = q.chained? layout
  locate? : ∀ id depth, p.locate? id depth = q.locate? id depth
  header? : ∀ id depth, p.index.header? id depth = q.index.header? id depth
  extension? : ∀ parent ext depth hint,
    p.index.extension? parent ext depth hint = q.index.extension? parent ext depth hint
  options? : ∀ parent, p.index.options? parent = q.index.options? parent
  bindHeaderIfAny : ∀ v depth, p.bindHeaderIfAny v depth = q.bindHeaderIfAny v depth
  bindHeader : ∀ v depth, p.bindHeader v depth = q.bindHeader v depth
  bindExtensionIfAny : ∀ parent v depth hint,
    p.bindExtensionIfAny parent v depth hint = q.bindExtensionIfAny parent v depth hint
  bindExtension : ∀ parent v depth, p.bindExtension parent v depth = q.bindExtension parent v depth

/-- The packet is bound to nothing: there is a descriptor that is not bound, no header is found, and
no cached view is in use. -/
structure ReadsUnbound (p : Packet V) : Prop where
  isBound : p.isBound = false
  data : p.data = []
  descriptors : p.chain.toList = [.unbound p.setup.layout]
  locate? : ∀ id depth, p.locate? id depth = none
  header? : ∀ id depth, p.index.header? id depth = none
  extension? : ∀ parent ext depth hint, p.index.extension? parent ext depth hint = none
  isInUse : ∀ key, p.cache.isInUse key = false

/-- The packet is bound to the frame and to the bytes of its descriptor, and to nothing else. What
is remembered of a descriptor (its records, presence bits and flow hash) is what these bytes say,
whatever was remembered before. -/
structure ReadsBound (p : Packet V) (data descriptor : Bytes) : Prop where
  isBound : p.isBound = true
  data : p.data = data
  descriptors : p.chain.toList.map (fun d => (d.layout, d.image)) =
    [(p.setup.layout, some descriptor)]
  index : p.index = Descriptor.indexOf p.setup.layout descriptor
  remembered : p.setup.layout = .type2 → ∀ memory : Type2.Memo,
    let kept := (memory.unbind.bind descriptor).1
    kept.records.2 = p.index.records ∧ kept.presence.2 = p.index.presence ∧
      kept.hash.2 = Type2.flowHash descriptor

variable {p q : Packet V}

theorem SameReads.readsAs (h : SameReads p q) : ReadsAs p q := by
  obtain ⟨cache, rfl⟩ := h.exists_cache
  constructor
  case setup | isBound | data | index | time? | descriptors => rfl
  case chained? | options? => exact fun _ => rfl
  case locate? | header? | bindHeaderIfAny | bindHeader => exact fun _ _ => rfl
  case bindExtension => exact fun _ _ _ => rfl
  case extension? | bindExtensionIfAny => exact fun _ _ _ _ => rfl

theorem records_index_unbind (p : Packet V) : p.unbind.index.records = [] := by
  show (Descriptor.unbound p.chain.head.layout).index.records = []
  cases p.chain.head.layout <;> rfl

theorem readsUnbound_unbind (h : p.chain.head.layout = p.setup.layout) : p.unbind.ReadsUnbound := by
  have hrecords := p.records_index_unbind
  constructor
  case isBound => rfl
  case data => rfl
  case descriptors => exact congrArg (fun layout => [Descriptor.unbound layout]) h
  case locate? => exact fun _ _ => rfl
  case header? => exact HeaderIndex.header?_of_records_eq_nil hrecords
  case extension? => exact HeaderIndex.extension?_of_records_eq_nil hrecords
  case isInUse => exact fun _ => ViewCache.isInUse_eq_false p.cache.inUse_releaseInUse

/-! ## Rebinding -/

theorem fst_bind_of_error {data descriptor : Bytes} {e : PacketError}
    (h : (p.bind data descriptor).2 = .error e) : (p.bind data descriptor).1 = p.unbind := by
  rcases p.bind_cases data descriptor with ⟨e', hbind⟩ | ⟨d, -, hbind⟩
  · rw [hbind]
  · rw [hbind] at h
    cases h

theorem readsBound_bind {data descriptor : Bytes} (hlayout : p.chain.head.layout = p.setup.layout)
    (h : (p.bind data descriptor).2 = .ok ()) :
    (p.bind data descriptor).1.ReadsBound data descriptor := by
  obtain ⟨d, hd, -, hq⟩ := bind_eq_ok_iff.1 (Prod.ext rfl h)
  obtain ⟨hcheck, hdlayout, hdimage⟩ := Descriptor.ofBytes_eq_ok_iff.1 hd
  rw [hlayout] at hcheck hdlayout
  rw [show (p.bind data descriptor).1 = _ from hq]
  have hindex : d.index = Descriptor.indexOf p.setup.layout descriptor := by
    rw [Descriptor.index, Descriptor.bytes, hdlayout, hdimage]
    rfl
  constructor
  case isBound => exact congrArg Option.isSome hdimage
  case data => rfl
  case descriptors =>
    show [(d.layout, d.image)] = [(p.setup.layout, some descriptor)]
    rw [hdlayout, hdimage]
  case index => exact hindex
  case remembered =>
    intro htype2 memory
    have htype2 : p.setup.layout = .type2 := htype2
    rw [htype2] at hcheck hindex
    have hmemory : (memory.unbind.bind descriptor).1 = { image := some descriptor } := by
      rw [Type2.Memo.bind, show Type2.check descriptor = .ok () from hcheck]
    intro kept
    rw [show kept = _ from hmemory]
    exact ⟨congrArg HeaderIndex.records hindex.symm, congrArg HeaderIndex.presence hindex.symm, rfl⟩

/-- **Binding leaves no trace of earlier frames.** After any requests, a packet is bound with the
same result as a new one. Both read the same then, and go on to do so: as bound to this frame and no
other, or as unbound if the binding failed. The views of the factory are supposed to be bound alike
once they are unbound. -/
theorem bind_leaves_no_trace {factory : ViewFactory V} (huniform : factory.Uniform)
    (setup : PacketSetup) (before : List Request) (data descriptor : Bytes) :
    let used := ((unbound setup factory).run before).1.bind data descriptor
    let fresh := (unbound setup factory).bind data descriptor
    used.2 = fresh.2 ∧ ReadsAs used.1 fresh.1 ∧
    (∀ after, (used.1.run after).2 = (fresh.1.run after).2 ∧
      ReadsAs (used.1.run after).1 (fresh.1.run after).1) ∧
    (used.2 = .ok () → used.1.ReadsBound data descriptor) ∧
    (∀ e, used.2 = .error e → used.1.ReadsUnbound) := by
  let new := unbound setup factory
  let old := (new.run before).1
  have hsetup : SameSetup new old := new.sameSetup_run before
  have hnew : new.Stemming := ViewCache.every_nil
  have hold : old.Stemming :=
    run_of_serve (P := Stemming) (fun q r hq => hq.of_touched (q.touched_serve r)) hnew before
  have htouchedOld := old.touched_serve (.bind data descriptor)
  have htouchedNew := new.touched_serve (.bind data descriptor)
  obtain ⟨hresult, hreads⟩ := sameReads_bind hsetup.setup_eq hsetup.layout_eq data descriptor
  -- the caches stay different, but every view stems from its key in either
  have htwins : Twins (old.bind data descriptor).1 (new.bind data descriptor).1 := by
    refine ⟨hreads, ?_, hold.of_touched htouchedOld, hnew.of_touched htouchedNew⟩
    exact (hsetup.trans htouchedOld.sameSetup).factory_eq.trans
      htouchedNew.sameSetup.factory_eq.symm
  have hlayout : old.chain.head.layout = old.setup.layout := by
    rw [hsetup.layout_eq, hsetup.setup_eq]
    rfl
  refine ⟨hresult, hreads.readsAs, ?_, readsBound_bind hlayout, ?_⟩
  · intro after
    have hfactory : (old.bind data descriptor).1.cache.factory = factory :=
      (hsetup.trans htouchedOld.sameSetup).factory_eq
    obtain ⟨hanswers, hlast⟩ := htwins.run (hfactory ▸ huniform) after
    exact ⟨hanswers, hlast.readsAs⟩
  · intro e he
    rw [fst_bind_of_error he]
    exact readsUnbound_unbind hlayout

/-- Views of Ethernet headers are refused, and views are handed back. -/
def refusing : GuardRules where
  refusals := [⟨.ethernet, some "not today", none⟩]
  takesBack := true

/-- A packet that was bound, and asked for the view of the frame and for a view that is refused. -/
def used : Packet GuardedView :=
  ((unbound {} refusing.factory).run
    [.bind [1, 2, 3, 4, 5, 6, 7, 8] backwardOptions, .header .frame 0, .header .ethernet 0]).1

/-- `bind_leaves_no_trace` at that packet, with a frame that is too short for the descriptor and
with one that is not. -/
theorem bind_used :
    refusing.factory.Uniform ∧
    (used.bind [9, 9, 9, 9] backwardOptions).2 =
      .error (.descriptor (.captureLengthMismatch 8 4)) ∧
    (used.bind [9, 9, 9, 9] backwardOptions).1.ReadsUnbound ∧
    ((used.bind [8, 7, 6, 5, 4, 3, 2, 1] backwardOptions).1.run
        [.header .ethernet 0, .header .frame 0]).2 =
      (((unbound {} refusing.factory).bind [8, 7, 6, 5, 4, 3, 2, 1] backwardOptions).1.run
        [.header .ethernet 0, .header .frame 0]).2 := by
  have huniform := refusing.uniform_factory
  have hshort : (used.bind [9, 9, 9, 9] backwardOptions).2 =
      .error (.descriptor (.captureLengthMismatch 8 4)) := rfl
  obtain ⟨-, -, -, -, hfailed⟩ := bind_leaves_no_trace huniform {}
    [.bind [1, 2, 3, 4, 5, 6, 7, 8] backwardOptions, .header .frame 0, .header .ethernet 0]
    [9, 9, 9, 9] backwardOptions
  obtain ⟨-, -, hafter, -, -⟩ := bind_leaves_no_trace huniform {}
    [.bind [1, 2, 3, 4, 5, 6, 7, 8] backwardOptions, .header .frame 0, .header .ethernet 0]
    [8, 7, 6, 5, 4, 3, 2, 1] backwardOptions
  exact ⟨huniform, hshort, hfailed _ hshort, (hafter _).1⟩

end Packet

end FrameIndex
