import FrameIndex.Proofs.Packet.Marks
import FrameIndex.Proofs.Packet.Rebinding
import FrameIndex.Proofs.Type2.Remembering

/-!
# A copy of a packet

A copy binds the bytes of every descriptor anew, and begins with an empty cache. The bytes were
accepted when they were bound first, so they are accepted again, and the copy reads as the packet
does (`Packet.Snapshot`). It also goes on like it: the two are twins, so the same requests have the
same answers. Only the views that were in use stay so in the packet alone, until something is said
of their use (`Packet.clone_is_snapshot`).
-/

namespace FrameIndex

namespace Type2.Memo.Agrees

theorem of_image {d : Descriptor} (h : d.layout = .type2) :
    ({ image := d.image } : Memo).Agrees d := by
  refine ⟨h, rfl, fun bs _ => ?_⟩
  simp

/-- What is remembered makes no difference to what is read. -/
theorem snd_read_eq {α : Type} {m m' : Memo} {d : Descriptor} (h : m.Agrees d) (h' : m'.Agrees d)
    (r : Read α) : (m.read r).2 = (m'.read r).2 :=
  (h.read r).answer_eq.trans (h'.read r).answer_eq.symm

end Type2.Memo.Agrees

namespace Packet

/-- One packet is a snapshot of another: it reads alike, and its cache has no views yet. -/
structure Snapshot {V : Type} [Bindable V] (p q : Packet V) : Prop where
  /-- Each descriptor is what a new one becomes that is bound to the same bytes. -/
  rebinds : ∀ d ∈ p.chain.toList, ∀ bs, d.image = some bs →
    (Descriptor.unbound d.layout).bind bs = .ok d
  reads : ReadsAs p q
  /-- Whatever was remembered of a descriptor, a new memory answers the same. -/
  remembers : ∀ d ∈ p.chain.toList, ∀ memory : Type2.Memo, memory.Agrees d →
    ∀ {α : Type} (r : Type2.Read α),
      (memory.read r).2 = (({ image := d.image } : Type2.Memo).read r).2
  factory_eq : q.cache.factory = p.cache.factory
  slots_eq : q.cache.slots = []
  figures_eq : q.cache.figures = ⟨0, 0, 0, 0⟩

theorem sameReads_clone {V : Type} (p : Packet V) : SameReads p p.clone :=
  ⟨rfl, rfl, p.chain.clone_eq.symm⟩

variable {V : Type} [Bindable V]

theorem snapshot_clone (p : Packet V) : Snapshot p p.clone where
  rebinds d _ bs himage := Descriptor.ofBytes_eq_ok_iff.2 ⟨d.accepted bs himage, rfl, himage⟩
  reads := p.sameReads_clone.readsAs
  remembers _ _ _ h _ r := h.snd_read_eq (.of_image h.layout_eq) r
  factory_eq := rfl
  slots_eq := rfl
  figures_eq := rfl

theorem Stemming.twins_clone {p : Packet V} (h : p.Stemming) : Twins p p.clone :=
  ⟨p.sameReads_clone, rfl, h, ViewCache.every_nil⟩

/-- **A copy is an equal snapshot.** After any requests a packet is copied without a failure: the
copy has the same frame and the same descriptors, bound to the same bytes, and everything is read of
it as of the packet, but its cache is empty. From then on the same requests are answered alike, and
leave packets that read alike. A view is in use as was said of it last, in both; if nothing was said
since, it is free in the copy, and in the packet it is what it was. The views of the factory are
supposed to be bound alike once they are unbound. -/
theorem clone_is_snapshot {factory : ViewFactory V} (huniform : factory.Uniform)
    (setup : PacketSetup) (before : List Request) :
    let p := ((unbound setup factory).run before).1
    Snapshot p p.clone ∧ ∀ after,
      (p.clone.run after).2 = (p.run after).2 ∧
      ReadsAs (p.run after).1 (p.clone.run after).1 ∧
      ∀ key,
        let said := lastMark? key (after.zip (p.run after).2)
        (p.run after).1.cache.isInUse key = said.getD (p.cache.isInUse key) ∧
        (p.clone.run after).1.cache.isInUse key = said.getD false := by
  intro p
  have hfactory : p.cache.factory = factory :=
    ((unbound setup factory).sameSetup_run before).factory_eq
  have htwins : Twins p p.clone := (stemming_run setup factory before).twins_clone
  refine ⟨p.snapshot_clone, fun after => ?_⟩
  obtain ⟨hanswers, hlast⟩ := htwins.run (hfactory ▸ huniform) after
  refine ⟨hanswers.symm, hlast.readsAs, fun key => ⟨p.isInUse_run after key, ?_⟩⟩
  rw [p.clone.isInUse_run after key, hanswers]
  rfl

/-- `clone_is_snapshot` at a packet whose view of the frame is in use. When another view is asked
for, which refuses, packet and copy answer alike, and nothing is said of that view: it stays in use
in the packet, and is free in the copy. -/
theorem clone_is_snapshot_used :
    let key := CacheKey.ofHeader .frame
    let after := [Request.header .ethernet 0]
    refusing.factory.Uniform ∧ Snapshot used used.clone ∧
      (used.clone.run after).2 = (used.run after).2 ∧
      (used.run after).1.cache.isInUse key = true ∧
      (used.clone.run after).1.cache.isInUse key = false := by
  intro key after
  have huniform := refusing.uniform_factory
  obtain ⟨hsnapshot, hafter⟩ := clone_is_snapshot huniform {}
    [.bind [1, 2, 3, 4, 5, 6, 7, 8] backwardOptions, .header .frame 0, .header .ethernet 0]
  obtain ⟨hanswers, -, hmarks⟩ := hafter after
  obtain ⟨hkept, hfree⟩ := hmarks key
  have hsaid : lastMark? key (after.zip (used.run after).2) = none := rfl
  have hused : used.cache.isInUse key = true := rfl
  refine ⟨huniform, hsnapshot, hanswers, hkept.trans ?_, hfree.trans ?_⟩
  · exact (congrArg (Option.getD · (used.cache.isInUse key)) hsaid).trans hused
  · exact congrArg (Option.getD · false) hsaid

end Packet

end FrameIndex
