import FrameIndex.Proofs.IndexedFrame.Payload
import FrameIndex.Proofs.Traversal.Labels

/-!
# What the presence bits leave to be found

Looking a header up begins with the presence bits of the descriptor. Unless they were set by hand
they are the classes of the records, so they turn no header away that has a record of one of its
classes. A header that shares a class with each of its records is therefore found exactly where a
search through all records finds it (`IndexedFrame.presence_hides_nothing`). The records of a
dissected frame carry the classes that their identifiers are known with.
-/

namespace FrameIndex

def HeaderId.classless (id : HeaderId) : HeaderId := { id with classes := ⟨0, Nat.zero_lt_succ _⟩ }

namespace HeaderIndex

variable {ix : HeaderIndex} {id : HeaderId}

def scan? (ix : HeaderIndex) (id : HeaderId) (depth : Nat) : Option Placement :=
  (HeaderRecord.occurrence? id ix.records depth).bind ix.recorded?

theorem header?_eq_scan? (hid : id.isPayload = false) (hpresence : ix.presence = classesOf ix.records)
    (hshown : id.Shown ix.records) (depth : Nat) : ix.header? id depth = ix.scan? id depth := by
  rw [header?, hid, recordOf?_of_shown hpresence hshown]
  rfl

theorem scan?_classless (ix : HeaderIndex) (id : HeaderId) (depth : Nat) :
    ix.scan? id.classless depth = ix.scan? id depth := by
  rw [scan?, scan?, HeaderRecord.occurrence?_eq, HeaderRecord.occurrence?_eq]
  rfl

end HeaderIndex

theorem Type2.Draft.presence_run {d : Draft} (hd : d.presence = none) {calls : List Call}
    (hcalls : ∀ n, .set (.presence n) ∉ calls) : (d.run calls).1.presence = none := by
  induction calls generalizing d with
  | nil => exact hd
  | cons c rest ih =>
    refine ih ?_ fun n hn => hcalls n (List.mem_cons_of_mem _ hn)
    cases c with
    | set s =>
      cases s with
      | presence n => exact absurd List.mem_cons_self (hcalls n)
      | _ => exact hd
    | reset => exact hd
    | push id offset length =>
      by_cases htakes : d.Takes (some maxRecords) id offset length
      · rw [call_push_of_takes htakes]
        exact hd
      · obtain ⟨refusal, hcall⟩ := call_push_of_not_takes htakes
        rw [hcall]
        exact hd

theorem Descriptor.index_of_bind {layout : Layout} {bs : Bytes} {d : Descriptor}
    (h : (unbound layout).bind bs = .ok d) : d.index = indexOf layout bs := by
  obtain ⟨-, hlayout, himage⟩ := ofBytes_eq_ok_iff.1 h
  rw [index, bytes, hlayout, himage]
  rfl

namespace IndexedFrame

open Type2 (Draft)

/-- **Presence bits hide nothing.** If the presence bits of a descriptor are left to follow from its
records, a header is looked up as by a search through all records, as long as each record of the
header shares a class with it, or it has none. So it is for every dissected frame and every
well-known header, and for these headers without their classes. -/
theorem presence_hides_nothing :
    (∀ (captureLength : UInt16) (calls : List Draft.Call),
      (∀ n, .set (.presence n) ∉ calls) →
      ∃ b, (Descriptor.unbound .type2).bind (Draft.run { captureLength } calls).1.encode = .ok b ∧
        ∀ id depth, id.isPayload = false → id.Shown b.index.records →
          b.index.header? id depth = b.index.scan? id depth) ∧
    ∀ frame : Frame,
      ∃ b, (Descriptor.unbound .type2).bind (indexed frame).descriptor = .ok b ∧
        ∀ id ∈ HeaderId.known.map Prod.fst, id.isPayload = false → ∀ depth,
          b.index.header? id depth = b.index.scan? id depth ∧
          b.index.header? id.classless depth = b.index.scan? id depth := by
  constructor
  · intro captureLength calls hcalls
    have hsound : (Draft.run { captureLength } calls).1.Sound (some Type2.maxRecords) :=
      (Draft.sound_of_records_eq_nil rfl).run calls
    obtain ⟨b, hbind, hreads⟩ := Type2.reads_encode hsound
    have hpresence := hreads.presence_eq
    rw [Draft.presence_run rfl hcalls] at hpresence
    exact ⟨b, hbind, fun id depth hid hshown =>
      HeaderIndex.header?_eq_scan? hid hpresence hshown depth⟩
  · intro frame
    obtain ⟨b, hbind, -⟩ := Type2.reads_encode (sound_draft frame)
    have hlabelled : b.index.Labelled := by
      rw [Descriptor.index_of_bind hbind]
      exact labelled_index .type2 frame
    refine ⟨b, hbind, fun id hknown hid depth => ⟨?_, ?_⟩⟩
    · obtain ⟨e, he, rfl⟩ := List.mem_map.1 hknown
      exact HeaderIndex.header?_eq_scan? hid hlabelled.presence_eq
        (hlabelled.shown (HeaderId.canonical_known e he)) depth
    · have hplain : id.classless.isPayload = false := hid
      have hclassless : id.classless.Shown b.index.records :=
        HeaderId.shown_of_hasClass_eq_false rfl _
      rw [← HeaderIndex.scan?_classless]
      exact HeaderIndex.header?_eq_scan? hplain hlabelled.presence_eq hclassless depth

/-- Calls that put in two IPv4 headers, the first of them with a class more than IPv4 has. -/
def twoClassCalls : List Draft.Call := [
  .push (HeaderId.ofFields Pack.tcpip.number 0 48) 0 20,
  .set (.color 7),
  .push .gre 20 4,
  .push .ipv4 24 20]

/-- `presence_hides_nothing` for these calls, and for a frame with a malformed TCP option. -/
theorem presence_hides_nothing_twoClasses :
    (∀ n, .set (.presence n) ∉ twoClassCalls) ∧
    HeaderId.ipv4.isPayload = false ∧
    (∃ b, (Descriptor.unbound .type2).bind
        (Draft.run { captureLength := 60 } twoClassCalls).1.encode = .ok b ∧
      HeaderId.ipv4.Shown b.index.records ∧
      b.index.header? .ipv4 1 = some ⟨24, 20, some 2, .type2⟩) ∧
    HeaderId.tcp ∈ HeaderId.known.map Prod.fst ∧ HeaderId.tcp.isPayload = false ∧
    ∃ b, (Descriptor.unbound .type2).bind (indexed malformedOption).descriptor = .ok b ∧
      b.index.header? .tcp 0 = some ⟨34, 28, some 2, .type2⟩ ∧
      b.index.header? (HeaderId.classless .tcp) 0 = some ⟨34, 28, some 2, .type2⟩ := by
  have hcalls : ∀ n, .set (.presence n) ∉ twoClassCalls := by simp [twoClassCalls]
  have hipv4 : HeaderId.ipv4.isPayload = false := by decide
  have htcp : HeaderId.tcp.isPayload = false := by decide
  have hknown : HeaderId.tcp ∈ HeaderId.known.map Prod.fst := by decide
  obtain ⟨b, hbind, hfound⟩ := presence_hides_nothing.1 60 twoClassCalls hcalls
  obtain ⟨c, hbind', hfound'⟩ := presence_hides_nothing.2 malformedOption
  have hshown : HeaderId.ipv4.Shown b.index.records := by
    rw [Descriptor.index_of_bind hbind]
    intro _
    decide +kernel
  obtain ⟨hplain, hclassless⟩ := hfound' .tcp hknown htcp 0
  have hscan : c.index.scan? .tcp 0 = some ⟨34, 28, some 2, .type2⟩ := by
    rw [Descriptor.index_of_bind hbind']
    decide +kernel
  refine ⟨hcalls, hipv4, ⟨b, hbind, hshown, ?_⟩, hknown, htcp, c, hbind', hplain.trans hscan,
    hclassless.trans hscan⟩
  rw [hfound .ipv4 1 hipv4 hshown, Descriptor.index_of_bind hbind]
  decide +kernel

end IndexedFrame

end FrameIndex
