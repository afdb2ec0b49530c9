import FrameIndex.Proofs.Capture.StoredPacket
import FrameIndex.Proofs.Capture.Unread
import Mathlib.Tactic.SplitIfs

/-!
# Where a reader stands in a capture

However a source hands out a capture, a reader stands behind a number of whole records or blocks of
it, and has counted the packets among them (`Capture.StandsIn`). This holds when a capture is opened
(`Capture.standsIn_ofSource`), and whatever is answered when the next frame is asked for
(`Capture.StandsIn.next`). A frame that is answered is read of the packet that the reader then
stands behind.
-/

namespace FrameIndex

def BlockKind.packets : BlockKind → Nat
  | .enhanced | .simple => 1
  | _ => 0

theorem BlockKind.packets_eq_zero {kind : BlockKind} (henhanced : kind ≠ .enhanced)
    (hsimple : kind ≠ .simple) : kind.packets = 0 := by
  unfold packets
  split
  · exact absurd rfl henhanced
  · exact absurd rfl hsimple
  · rfl

/-- Whole blocks from the front of a capture on, the byte order behind them, and the number of
packets among them. -/
inductive Blocks : Bytes → ByteOrder → Nat → Prop where
  | nil : Blocks [] .little 0
  | concat {front block : Bytes} {before order : ByteOrder} {kind : BlockKind} {count : Nat}
      (h : Blocks front before count) (whole : CaptureBlock.IsWhole before order kind block) :
      Blocks (front ++ block) order (count + kind.packets)

inductive Records (order : ByteOrder) : Bytes → Nat → Prop where
  | nil : Records order [] 0
  | concat {front record : Bytes} {count : Nat} (h : Records order front count)
      (whole : ClassicRecord.IsWhole order record) : Records order (front ++ record) (count + 1)

def HeaderAndRecords (order : ByteOrder) (front : Bytes) (count : Nat) : Prop :=
  ∃ header records nanoseconds, front = header ++ records ∧
    header.length = ClassicHeader.length ∧
    ClassicHeader.ofMagic? (header.take 4) = some (order, nanoseconds) ∧
    Records order records count

theorem HeaderAndRecords.concat {order : ByteOrder} {front record : Bytes} {count : Nat}
    (h : HeaderAndRecords order front count) (whole : ClassicRecord.IsWhole order record) :
    HeaderAndRecords order (front ++ record) (count + 1) := by
  obtain ⟨header, records, nanoseconds, rfl, hlen, hmagic, hrecords⟩ := h
  exact ⟨header, records ++ record, nanoseconds, List.append_assoc _ _ _, hlen, hmagic,
    hrecords.concat whole⟩

/-- What stands in front of a stored packet, with a number of packets among it. -/
def StoredPacket.Behind (p : StoredPacket) (front : Bytes) (count : Nat) : Prop :=
  match p.layout with
  | .record => HeaderAndRecords p.order front count
  | .enhanced | .simple => Blocks front p.order count

/-- The frame is read of a packet in a capture, in front of the bytes that are left. Its number
counts the packets up to this one. -/
structure StoredPacket.TakenAs (p : StoredPacket) (frame : Frame) (bytes unread : Bytes) :
    Prop where
  whole : p.IsWhole
  read : p.ReadAs frame
  placed : ∃ front count, bytes = front ++ p.bytes ++ unread ∧ p.Behind front count ∧
    frame.number = count + 1

/-! ## Classic captures -/

namespace ClassicReader

/-- The reader has read the header, or is still in front of it. -/
def StandsIn (r : ClassicReader) (bytes : Bytes) : Prop :=
  ∃ front, bytes = front ++ r.feed.unread ∧
    if r.entered then HeaderAndRecords r.header.order front r.count
    else front = [] ∧ r.count = 0 ∧ ClassicHeader.read r.feed.buffer = .ok r.header

variable {r r' : ClassicReader} {bytes : Bytes}

theorem StandsIn.enter (h : r.StandsIn bytes) :
    r.enter.StandsIn bytes ∧ r.enter.entered = true := by
  obtain ⟨front, hbytes, hfront⟩ := h
  by_cases hentered : r.entered = true
  · rw [ClassicReader.enter, if_pos hentered]
    exact ⟨⟨front, hbytes, hfront⟩, hentered⟩
  · rw [if_neg hentered] at hfront
    obtain ⟨rfl, hcount, hread⟩ := hfront
    obtain ⟨hlen, hmagic⟩ := ClassicHeader.of_read hread
    rw [ClassicReader.enter, if_neg hentered]
    refine ⟨⟨r.feed.buffer.take ClassicHeader.length, ?_, ?_⟩, rfl⟩
    · show bytes = r.feed.buffer.take _ ++ (r.feed.buffer.drop _ ++ (_ ++ _))
      rw [← List.append_assoc, List.take_append_drop, hbytes]
      rfl
    · rw [if_pos rfl]
      refine ⟨_, [], r.header.nanoseconds, (List.append_nil _).symm, ?_, ?_, hcount ▸ .nil⟩
      · rw [List.length_take]
        omega
      · rw [List.take_take]
        exact hmagic

theorem StandsIn.withFeed {feed : Feed} (h : r.StandsIn bytes) (hentered : r.entered = true)
    (hunread : feed.unread = r.feed.unread) : ({ r with feed } : ClassicReader).StandsIn bytes := by
  obtain ⟨front, hbytes, hfront⟩ := h
  rw [if_pos hentered] at hfront
  refine ⟨front, by rw [hbytes, hunread], ?_⟩
  rw [if_pos hentered]
  exact hfront

theorem StandsIn.next {result : Except CaptureFailure (Option Frame)} (h : r.StandsIn bytes)
    (hnext : r.next = (r', result)) :
    r'.StandsIn bytes ∧ ∀ frame, result = .ok (some frame) →
      ∃ p : StoredPacket, p.TakenAs frame bytes r'.feed.unread := by
  obtain ⟨hstands, hentered⟩ := h.enter
  obtain ⟨front, hbytes, hfront⟩ := id hstands
  rw [if_pos hentered] at hfront
  unfold ClassicReader.next at hnext
  simp only at hnext
  split at hnext
  · rename_i feed fault hfeed
    cases hnext
    refine ⟨hstands.withFeed hentered (Feed.unread_next hfeed (by simp)), ?_⟩
    intro frame hframe
    cases hframe
  · rename_i feed hfeed
    cases hnext
    refine ⟨hstands.withFeed hentered (Feed.unread_next hfeed (by simp)), ?_⟩
    intro frame hframe
    cases hframe
  · rename_i feed record hfeed
    cases hnext
    obtain ⟨input, rest, shorter, behind, hread, hunread, hleft⟩ := Feed.of_next_some hfeed
    obtain ⟨bs, rfl, hwhole, hcaptured, hdata⟩ := ClassicRecord.of_read hread
    have hsplit : bytes = front ++ bs ++ feed.unread := by
      rw [hbytes, hunread, hleft]
      simp only [List.append_assoc]
    refine ⟨⟨front ++ bs, hsplit, by rw [if_pos hentered]; exact hfront.concat hwhole⟩, ?_⟩
    rintro frame ⟨⟩
    refine ⟨⟨.record, _, bs⟩, hwhole, ⟨hcaptured, ?_⟩, front, _, hsplit, hfront, rfl⟩
    exact hdata.trans (by rw [hcaptured]; rfl)

end ClassicReader

/-! ## Captures in blocks -/

namespace BlockReader

/-- The reader stands behind whole blocks, and has the byte order and the count of these. -/
def StandsIn (r : BlockReader) (bytes : Bytes) : Prop :=
  ∃ front, bytes = front ++ r.feed.unread ∧ Blocks front r.order r.count

variable {r r' : BlockReader} {bytes : Bytes}

theorem StandsIn.withFeed {feed : Feed} (h : r.StandsIn bytes)
    (hunread : feed.unread = r.feed.unread) : ({ r with feed } : BlockReader).StandsIn bytes := by
  obtain ⟨front, hbytes, hfront⟩ := h
  exact ⟨front, by rw [hbytes, hunread], hfront⟩

theorem enhancedFrame_eq_ok {p : EnhancedPacket} {frame : Frame}
    (h : r.enhancedFrame p = .ok frame) :
    frame.number = r.count ∧ frame.captured = p.captured ∧ frame.data = p.data := by
  unfold enhancedFrame at h
  simp only at h
  split at h
  · cases h
  · cases h
    exact ⟨rfl, rfl, rfl⟩

theorem absorb_of_means {order : ByteOrder} {kind : BlockKind} {body : Bytes} {block : CaptureBlock}
    (hmeans : CaptureBlock.Means order kind body block)
    (hkept : kind ≠ .section → order = r.order) :
    (r.absorb block).1.order = order ∧ (r.absorb block).1.count = r.count + kind.packets := by
  cases block with
  | «section» o =>
    obtain ⟨rfl, rfl⟩ := hmeans
    exact ⟨rfl, rfl⟩
  | interface description =>
    cases hmeans
    exact ⟨(hkept nofun).symm, rfl⟩
  | enhanced packet =>
    obtain ⟨rfl, -⟩ := hmeans
    exact ⟨(hkept nofun).symm, rfl⟩
  | simple onWire data =>
    obtain ⟨rfl, -⟩ := hmeans
    exact ⟨(hkept nofun).symm, rfl⟩
  | other =>
    obtain ⟨hsection, henhanced, hsimple⟩ := hmeans
    exact ⟨(hkept hsection).symm, by rw [BlockKind.packets_eq_zero henhanced hsimple]; rfl⟩

theorem StandsIn.absorb {feed : Feed} {block : CaptureBlock} (h : r.StandsIn bytes)
    (hfeed : r.feed.next (CaptureBlock.read r.order) = (feed, .ok (some block))) :
    ({ r with feed }.absorb block).1.StandsIn bytes ∧
      ∀ frame, ({ r with feed }.absorb block).2 = some (.ok frame) →
        ∃ p : StoredPacket, p.TakenAs frame bytes feed.unread := by
  obtain ⟨front, hbytes, hfront⟩ := h
  obtain ⟨input, rest, shorter, behind, hread, hunread, hleft⟩ := Feed.of_next_some hfeed
  obtain ⟨order, kind, bs, rfl, hwhole, hmeans⟩ := CaptureBlock.of_read hread
  have hsplit : bytes = front ++ bs ++ feed.unread := by
    rw [hbytes, hunread, hleft]
    simp only [List.append_assoc]
  obtain ⟨horder, hcount⟩ := @absorb_of_means { r with feed } _ _ _ _ hmeans hwhole.kept
  refine ⟨⟨front ++ bs, ?_, ?_⟩, ?_⟩
  · rw [feed_absorb]
    exact hsplit
  · rw [horder, hcount]
    exact hfront.concat hwhole
  · intro frame hframe
    cases block with
    | «section» => cases hframe
    | interface => cases hframe
    | other => cases hframe
    | enhanced packet =>
      obtain ⟨rfl, -⟩ := id hmeans
      obtain rfl := hwhole.kept nofun
      obtain ⟨hnumber, hcaptured, hdata⟩ := enhancedFrame_eq_ok (Option.some.inj hframe)
      obtain ⟨hpacket, hreadAs⟩ :=
        StoredPacket.of_means_enhanced hwhole hmeans hcaptured hdata
      exact ⟨_, hpacket, hreadAs, front, _, hsplit, hfront, hnumber⟩
    | simple onWire data =>
      obtain ⟨rfl, -⟩ := id hmeans
      obtain rfl := hwhole.kept nofun
      have hcaptured : frame.captured = data.length := by cases hframe; rfl
      have hdata : frame.data = data := by cases hframe; rfl
      have hnumber : frame.number = r.count + 1 := by cases hframe; rfl
      obtain ⟨hpacket, hreadAs⟩ := StoredPacket.of_means_simple hwhole hmeans hcaptured hdata
      exact ⟨_, hpacket, hreadAs, front, _, hsplit, hfront, hnumber⟩

theorem StandsIn.next {result : Except CaptureFailure (Option Frame)} (h : r.StandsIn bytes)
    (hnext : r.next = (r', result)) :
    r'.StandsIn bytes ∧ ∀ frame, result = .ok (some frame) →
      ∃ p : StoredPacket, p.TakenAs frame bytes r'.feed.unread := by
  fun_induction BlockReader.next r with
  | case1 r feed fault hfeed =>
    cases hnext
    refine ⟨h.withFeed (Feed.unread_next hfeed (by simp)), ?_⟩
    intro frame hframe
    cases hframe
  | case2 r feed hfeed =>
    cases hnext
    refine ⟨h.withFeed (Feed.unread_next hfeed (by simp)), ?_⟩
    intro frame hframe
    cases hframe
  | case3 r feed block hfeed after frame hafter =>
    obtain ⟨hstands, htaken⟩ := h.absorb hfeed
    have hsame := feed_absorb { r with feed } block
    rw [hafter] at hstands htaken hsame
    cases hnext
    refine ⟨hstands, fun f hf => ?_⟩
    cases frame with
    | error e => cases hf
    | ok g =>
      cases hf
      rw [hsame]
      exact htaken _ rfl
  | case4 r feed block hfeed after hafter ih =>
    have hstands := (h.absorb hfeed).1
    rw [hafter] at hstands
    exact ih hstands hnext

end BlockReader

/-! ## Captures -/

namespace Capture

def unread : Capture → Bytes
  | classic r => r.feed.unread
  | blocks r => r.feed.unread

/-- The reader stands behind whole records or blocks of a capture. -/
def StandsIn (c : Capture) (bytes : Bytes) : Prop :=
  match c with
  | classic r => r.StandsIn bytes
  | blocks r => r.StandsIn bytes

variable {c c' : Capture} {bytes : Bytes} {source : ByteSource}

theorem standsIn_ofSource (h : ofSource source = .ok c) : c.StandsIn source.bytes := by
  unfold ofSource at h
  split at h
  · cases h
  · rename_i feed hstart
    have hunread := Feed.unread_start hstart
    simp only at h
    split_ifs at h
    · split at h
      · cases h
      · rename_i header hheader
        cases h
        exact ⟨[], hunread.symm, rfl, rfl, hheader⟩
    · split at h
      · cases h
      · cases h
      · cases h
        exact ⟨[], hunread.symm, .nil⟩

/-- Whatever is answered, the reader stands behind whole records or blocks again; and a frame that
is answered is read of a packet there. -/
theorem StandsIn.next {result : Except CaptureFailure (Option Frame)} (h : c.StandsIn bytes)
    (hnext : c.next = (c', result)) :
    c'.StandsIn bytes ∧ ∀ frame, result = .ok (some frame) →
      ∃ p : StoredPacket, p.TakenAs frame bytes c'.unread := by
  cases c with
  | classic r =>
    simp only [Capture.next, Prod.map, id, Prod.mk.injEq] at hnext
    obtain ⟨rfl, hresult⟩ := hnext
    exact ClassicReader.StandsIn.next h (Prod.ext rfl hresult)
  | blocks r =>
    simp only [Capture.next, Prod.map, id, Prod.mk.injEq] at hnext
    obtain ⟨rfl, hresult⟩ := hnext
    exact BlockReader.StandsIn.next h (Prod.ext rfl hresult)

end Capture

end FrameIndex
