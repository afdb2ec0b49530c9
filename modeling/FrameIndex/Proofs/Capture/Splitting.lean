import FrameIndex.Proofs.Capture.PacketData
import FrameIndex.Proofs.Capture.Trailing

/-!
# Captures that come in different pieces

Two sources hand out the same bytes, each in its own pieces. A capture is opened if the first piece
has the whole of its first header (`Capture.opens_iff`), so the pieces decide whether it is opened.
Two readers that were opened stay twins: they have the same bytes left and the same state apart from
their feeds (`ClassicReader.Twin.next`, `BlockReader.Twin.next`), and so they give the same answers
for ever (`Capture.answers_alike`). What still shows the pieces is an item of the size of the
buffer, and how many bytes a fault about a length quotes.
-/

namespace FrameIndex

/-- Two answers are the same, but for how many bytes a fault about a length quotes. -/
def Capture.Alike (answer answer' : Except CaptureFailure (Option Frame)) : Prop :=
  answer = answer' ∨ ∃ fault fault', answer = .error (.invalidFormat (.parse fault)) ∧
    answer' = .error (.invalidFormat (.parse fault')) ∧ fault.Alike fault'

/-- A whole record or block stands behind the front of a capture. -/
def IsItemBehind (front item : Bytes) : Prop :=
  (∃ order count, HeaderAndRecords order front count ∧ ClassicRecord.IsWhole order item) ∨
    ∃ before order kind count, Blocks front before count ∧
      CaptureBlock.IsWhole before order kind item

def FillsBuffer (bytes : Bytes) : Prop :=
  ∃ front item behind, bytes = front ++ item ++ behind ∧ item.length = Feed.capacity ∧
    IsItemBehind front item

theorem length_ne_capacity {bytes front unread : Bytes} (hfills : ¬ FillsBuffer bytes)
    (hbytes : bytes = front ++ unread)
    (hitem : IsItemBehind front (unread.take Feed.capacity)) :
    (unread.take Feed.capacity).length ≠ Feed.capacity := by
  intro hlen
  refine hfills ⟨front, _, unread.drop Feed.capacity, ?_, hlen, hitem⟩
  rw [List.append_assoc, List.take_append_drop]
  exact hbytes

/-! ## Classic captures -/

namespace ClassicReader

variable {r : ClassicReader} {feed : Feed} {bytes : Bytes}

/-- The reader, and the same reader at another feed with the same bytes left, both behind the
header. -/
structure Twin (bytes : Bytes) (r : ClassicReader) (feed : Feed) : Prop where
  entered : r.entered = true
  stands : r.StandsIn bytes
  feeds : Feed.Twins (ClassicRecord.read r.header.order) r.feed feed

theorem Twin.not_full (h : Twin bytes r feed) (hfills : ¬ FillsBuffer bytes)
    (hitem : ClassicRecord.IsWhole r.header.order (r.feed.unread.take Feed.capacity)) :
    (r.feed.unread.take Feed.capacity).length ≠ Feed.capacity := by
  obtain ⟨front, hbytes, hfront⟩ := h.stands
  rw [if_pos h.entered] at hfront
  exact length_ne_capacity hfills hbytes (.inl ⟨_, _, hfront, hitem⟩)

theorem enter_of_entered (h : r.entered = true) : r.enter = r := by
  rw [enter, if_pos h]

/-- What becomes of a reader when its feed has answered, and its own answer. -/
def told (r : ClassicReader) (feed : Feed) :
    Except FeedFault (Option ClassicRecord) →
      ClassicReader × Except CaptureFailure (Option Frame)
  | .error fault => ({ r with feed }, .error (.invalidFormat fault.toFormatFault))
  | .ok none => ({ r with feed }, .ok none)
  | .ok (some record) =>
    ({ r with feed, count := r.count + 1 }, .ok (some (record.toFrame r.header (r.count + 1))))

theorem next_of_entered {answer : Except FeedFault (Option ClassicRecord)}
    (hentered : r.entered = true)
    (h : r.feed.next (ClassicRecord.read r.header.order) = (feed, answer)) :
    r.next = r.told feed answer := by
  unfold next
  simp only [enter_of_entered hentered, h]
  rcases answer with fault | _ | record <;> rfl

theorem Twin.next (h : Twin bytes r feed) (hfills : ¬ FillsBuffer bytes) :
    Capture.Alike r.next.2 ({ r with feed } : ClassicReader).next.2 ∧
      ∃ feed', ({ r with feed } : ClassicReader).next.1 = { r.next.1 with feed := feed' } ∧
        Twin bytes r.next.1 feed' := by
  have hstands : r.next.1.StandsIn bytes := (h.stands.next rfl).1
  cases hone : r.feed.next (ClassicRecord.read r.header.order) with
  | mk one answer =>
    obtain ⟨other, answer', hother, halike, hfeeds, -⟩ :=
      h.feeds.next (ClassicRecord.stable _) (h.not_full hfills) hone
    rw [next_of_entered h.entered hone] at hstands
    rw [next_of_entered h.entered hone,
      @next_of_entered { r with feed } other answer' h.entered hother]
    rcases halike with rfl | ⟨fault, fault', rfl, rfl, hfault⟩
    · rcases answer with fault | _ | record
      · exact ⟨.inl rfl, other, rfl, h.entered, hstands, hfeeds⟩
      · exact ⟨.inl rfl, other, rfl, h.entered, hstands, hfeeds⟩
      · exact ⟨.inl rfl, other, rfl, h.entered, hstands, hfeeds⟩
    · exact ⟨.inr ⟨fault, fault', rfl, rfl, hfault⟩, other, rfl, h.entered, hstands, hfeeds⟩

end ClassicReader

/-! ## Captures in blocks -/

namespace BlockReader

variable {r : BlockReader} {feed : Feed} {bytes : Bytes}

/-- The reader, and the same reader at another feed with the same bytes left. -/
structure Twin (bytes : Bytes) (r : BlockReader) (feed : Feed) : Prop where
  stands : r.StandsIn bytes
  feeds : Feed.Twins (CaptureBlock.read r.order) r.feed feed

theorem Twin.not_full (h : Twin bytes r feed) (hfills : ¬ FillsBuffer bytes)
    (hitem : ∃ order kind,
      CaptureBlock.IsWhole r.order order kind (r.feed.unread.take Feed.capacity)) :
    (r.feed.unread.take Feed.capacity).length ≠ Feed.capacity := by
  obtain ⟨front, hbytes, hfront⟩ := h.stands
  obtain ⟨order, kind, hwhole⟩ := hitem
  exact length_ne_capacity hfills hbytes (.inr ⟨_, _, _, _, hfront, hwhole⟩)

theorem absorb_withFeed (r : BlockReader) (feed : Feed) (block : CaptureBlock) :
    ({ r with feed } : BlockReader).absorb block =
      ({ (r.absorb block).1 with feed }, (r.absorb block).2) := by
  cases block <;> rfl

theorem next_of_error {fault : FeedFault}
    (h : r.feed.next (CaptureBlock.read r.order) = (feed, .error fault)) :
    r.next = ({ r with feed }, .error (.invalidFormat fault.toFormatFault)) := by
  rw [next]
  split <;> simp_all

theorem next_of_end (h : r.feed.next (CaptureBlock.read r.order) = (feed, .ok none)) :
    r.next = ({ r with feed }, .ok none) := by
  rw [next]
  split <;> simp_all

theorem next_of_block {block : CaptureBlock}
    (h : r.feed.next (CaptureBlock.read r.order) = (feed, .ok (some block))) :
    r.next =
      match ({ r with feed } : BlockReader).absorb block with
      | (after, some frame) => (after, frame.map some)
      | (after, none) => after.next := by
  rw [next]
  split
  · simp_all
  · simp_all
  · rename_i hfeed
    rw [h] at hfeed
    cases hfeed
    split
    · rename_i hafter
      rw [hafter]
    · rename_i hafter
      rw [hafter]

theorem Twin.absorb {one : Feed} {block : CaptureBlock} (h : Twin bytes r feed)
    (hfills : ¬ FillsBuffer bytes)
    (hone : r.feed.next (CaptureBlock.read r.order) = (one, .ok (some block))) :
    (({ r with feed := one } : BlockReader).absorb block).1.StandsIn bytes ∧
      ∃ other, feed.next (CaptureBlock.read r.order) = (other, .ok (some block)) ∧
        ({ r with feed := other } : BlockReader).absorb block =
          ({ (({ r with feed := one } : BlockReader).absorb block).1 with feed := other },
            (({ r with feed := one } : BlockReader).absorb block).2) ∧
        ∀ order, Feed.Twins (CaptureBlock.read order)
          (({ r with feed := one } : BlockReader).absorb block).1.feed other := by
  obtain ⟨other, answer', hother, halike, hfeeds, hended⟩ :=
    h.feeds.next (CaptureBlock.stable _) (h.not_full hfills) hone
  refine ⟨(h.stands.absorb hone).1, ?_⟩
  rcases halike with rfl | ⟨fault, fault', hfault, -⟩
  · obtain ⟨hone', hother'⟩ := hended block rfl
    refine ⟨other, hother, absorb_withFeed { r with feed := one } other block, fun order => ?_⟩
    rw [feed_absorb]
    exact hfeeds.of_not_ended hone' hother'
  · cases hfault

theorem Twin.next (h : Twin bytes r feed) (hfills : ¬ FillsBuffer bytes) :
    Capture.Alike r.next.2 ({ r with feed } : BlockReader).next.2 ∧
      ∃ feed', ({ r with feed } : BlockReader).next.1 = { r.next.1 with feed := feed' } ∧
        Twin bytes r.next.1 feed' := by
  fun_induction BlockReader.next r generalizing feed with
  | case1 r one fault hone =>
    obtain ⟨other, answer', hother, halike, hfeeds, -⟩ :=
      h.feeds.next (CaptureBlock.stable _) (h.not_full hfills) hone
    have hstands := h.stands.withFeed (Feed.unread_next hone (by simp))
    rcases halike with rfl | ⟨fault, fault', hfault, rfl, hquote⟩
    · rw [@next_of_error { r with feed } other _ hother]
      exact ⟨.inl rfl, other, rfl, hstands, hfeeds⟩
    · cases hfault
      rw [@next_of_error { r with feed } other _ hother]
      exact ⟨.inr ⟨fault, fault', rfl, rfl, hquote⟩, other, rfl, hstands, hfeeds⟩
  | case2 r one hone =>
    obtain ⟨other, answer', hother, halike, hfeeds, -⟩ :=
      h.feeds.next (CaptureBlock.stable _) (h.not_full hfills) hone
    have hstands := h.stands.withFeed (Feed.unread_next hone (by simp))
    rcases halike with rfl | ⟨fault, fault', hfault, -⟩
    · rw [@next_of_end { r with feed } other hother]
      exact ⟨.inl rfl, other, rfl, hstands, hfeeds⟩
    · cases hfault
  | case3 r one block hone after frame hafter =>
    obtain ⟨hstands, other, hother, habsorb, hfeeds⟩ := h.absorb hfills hone
    rw [hafter] at hstands habsorb hfeeds
    rw [@next_of_block { r with feed } other block hother, habsorb]
    exact ⟨.inl rfl, other, rfl, hstands, hfeeds _⟩
  | case4 r one block hone after hafter ih =>
    obtain ⟨hstands, other, hother, habsorb, hfeeds⟩ := h.absorb hfills hone
    rw [hafter] at hstands habsorb hfeeds
    rw [@next_of_block { r with feed } other block hother, habsorb]
    exact ih ⟨hstands, hfeeds _⟩

end BlockReader

/-! ## Captures -/

namespace Capture

/-- What is answered when the next frame is asked for, after a number of times. -/
def answer (c : Capture) : Nat → Except CaptureFailure (Option Frame)
  | 0 => c.next.2
  | n + 1 => c.next.1.answer n

/-- Two readers that differ in their feeds only, and have the same bytes left. -/
inductive Twins (bytes : Bytes) : Capture → Capture → Prop where
  | classic {r : ClassicReader} {feed : Feed} (h : r.Twin bytes feed) :
      Twins bytes (.classic r) (.classic { r with feed })
  | blocks {r : BlockReader} {feed : Feed} (h : r.Twin bytes feed) :
      Twins bytes (.blocks r) (.blocks { r with feed })

variable {c d : Capture} {bytes : Bytes} {s t : ByteSource}

theorem Twins.next (h : Twins bytes c d) (hfills : ¬ FillsBuffer bytes) :
    Alike c.next.2 d.next.2 ∧ Twins bytes c.next.1 d.next.1 := by
  cases h with
  | classic h =>
    obtain ⟨halike, feed', hnext, htwin⟩ := h.next hfills
    refine ⟨halike, ?_⟩
    simp only [Capture.next, Prod.map, hnext]
    exact .classic htwin
  | blocks h =>
    obtain ⟨halike, feed', hnext, htwin⟩ := h.next hfills
    refine ⟨halike, ?_⟩
    simp only [Capture.next, Prod.map, hnext]
    exact .blocks htwin

theorem Twins.answer (h : Twins bytes c d) (hfills : ¬ FillsBuffer bytes) (n : Nat) :
    Alike (c.answer n) (d.answer n) := by
  induction n generalizing c d with
  | zero => exact (h.next hfills).1
  | succ n ih => exact ih (h.next hfills).2

theorem next_enter (r : ClassicReader) : next (.classic r.enter) = next (.classic r) := by
  rw [next, next, ClassicReader.next, ClassicReader.next, ClassicReader.enter_of_entered]
  unfold ClassicReader.enter
  split
  · assumption
  · rfl

theorem answer_enter (r : ClassicReader) (n : Nat) :
    answer (.classic r.enter) n = answer (.classic r) n := by
  cases n with
  | zero => rw [answer, answer, next_enter]
  | succ n => rw [answer, answer, next_enter]

/-- A capture's first header: that of a classic capture, or a section header as long as it says. -/
def IsHeader (bs : Bytes) : Prop :=
  bs.length = ClassicHeader.length ∧ (ClassicHeader.ofMagic? (bs.take 4)).isSome = true ∨
    bs.take 4 = blockMagic ∧ ∃ order, CaptureBlock.markedOrder? bs = some order ∧
      CaptureBlock.StatesLength order .section bs

theorem of_ofSource (hs : s.Steady) (h : ofSource s = .ok c) :
    ∃ feed, Feed.Fresh s feed ∧
      ((∃ header, ClassicHeader.read s.firstRead = .ok header ∧ c = .classic { feed, header }) ∨
        s.firstRead.take 4 = blockMagic ∧
          (∃ block rest shorter,
            CaptureBlock.readSection s.firstRead = .whole block rest shorter) ∧
          c = .blocks { feed }) := by
  obtain ⟨⟨source, pending, buffer, ended⟩, hstart, hfresh⟩ := Feed.Fresh.start hs
  obtain rfl : buffer = s.firstRead := hfresh.buffer_eq
  refine ⟨_, hfresh, ?_⟩
  unfold ofSource at h
  rw [hstart] at h
  simp only at h
  split_ifs at h with hshort hclassic hblocks
  · split at h
    · cases h
    · rename_i header hheader
      cases h
      exact .inl ⟨header, hheader, rfl⟩
  · split at h
    · cases h
    · cases h
    · rename_i block rest shorter hsection
      cases h
      exact .inr ⟨hblocks, ⟨block, rest, shorter, hsection⟩, rfl⟩

theorem opens_classic (hs : s.Steady) {header : ClassicHeader}
    (h : ClassicHeader.read s.firstRead = .ok header) :
    ∃ feed, Feed.Fresh s feed ∧ ofSource s = .ok (.classic { feed, header }) := by
  obtain ⟨feed, hstart, hfresh⟩ := Feed.Fresh.start hs
  obtain ⟨hlen, hmagic⟩ := ClassicHeader.of_read h
  refine ⟨feed, hfresh, ?_⟩
  have hlong : ¬ (s.firstRead.take 4).length < 4 := by
    simp only [ClassicHeader.length, List.length_take] at *
    omega
  have hsome : (ClassicHeader.ofMagic? (s.firstRead.take 4)).isSome = true := by rw [hmagic]; rfl
  unfold ofSource
  rw [hstart]
  simp only [hfresh.buffer_eq, if_neg hlong, if_pos hsome, h]

theorem opens_blocks (hs : s.Steady) {block : CaptureBlock} {rest : Bytes}
    {shorter : rest.length < s.firstRead.length} (hmagic : s.firstRead.take 4 = blockMagic)
    (hsection : CaptureBlock.readSection s.firstRead = .whole block rest shorter) :
    ∃ c, ofSource s = .ok c := by
  obtain ⟨⟨source, pending, buffer, ended⟩, hstart, hfresh⟩ := Feed.Fresh.start hs
  obtain rfl : buffer = s.firstRead := hfresh.buffer_eq
  unfold ofSource
  rw [hstart]
  simp only [hmagic, hsection]
  exact ⟨_, rfl⟩

/-- **A capture is opened if the first piece has its first header.** -/
theorem opens_iff (hs : s.Steady) :
    (∃ c, ofSource s = .ok c) ↔ ∃ header, IsHeader header ∧ header <+: s.firstRead := by
  constructor
  · rintro ⟨c, h⟩
    obtain ⟨feed, -, ⟨header, hheader, -⟩ | ⟨hmagic, hsection, -⟩⟩ := of_ofSource hs h
    · obtain ⟨hlen, hmagic⟩ := ClassicHeader.of_read hheader
      refine ⟨s.firstRead.take ClassicHeader.length, .inl ⟨?_, ?_⟩, List.take_prefix _ _⟩
      · rw [List.length_take]
        omega
      · rw [List.take_take]
        exact hmagic ▸ rfl
    · obtain ⟨order, hmarked, hmin, hle⟩ := CaptureBlock.readSection_whole_iff.1 hsection
      have hmin28 : 28 ≤ s.firstRead.num order 4 4 := hmin
      refine ⟨s.firstRead.take (s.firstRead.num order 4 4), .inr ⟨?_, order, ?_, ?_⟩,
        List.take_prefix _ _⟩
      · rw [List.take_take, Nat.min_eq_left (by omega)]
        exact hmagic
      · rw [CaptureBlock.markedOrder?_take (by omega)]
        exact hmarked
      · rw [CaptureBlock.StatesLength, Bytes.num_take (by omega), List.length_take,
          Nat.min_eq_left hle]
        exact ⟨rfl, hmin⟩
  · rintro ⟨header, hheader, more, hmore⟩
    rcases hheader with ⟨hlen, hmagic⟩ | ⟨hmagic, order, hmarked, hlength, hmin⟩
    · obtain ⟨⟨order, nanoseconds⟩, hsome⟩ := Option.isSome_iff_exists.1 hmagic
      have hread := ClassicHeader.read_append more
        (ClassicHeader.read_eq_ok (Nat.le_of_eq hlen.symm) hsome)
      rw [hmore] at hread
      obtain ⟨feed, -, hopened⟩ := opens_classic hs hread
      exact ⟨_, hopened⟩
    · have hmin28 : 28 ≤ header.length := hmin
      have hnum : (header ++ more).num order 4 4 = header.num order 4 4 :=
        Bytes.num_append_left (by omega)
      obtain ⟨block, rest, shorter, hsection⟩ :=
        (@CaptureBlock.readSection_whole_iff s.firstRead).2 ⟨order, by
          rw [← hmore, CaptureBlock.markedOrder?_append more (by omega)]
          exact hmarked, by rwa [← hmore, hnum, hlength], by
          rw [← hmore, hnum, hlength, List.length_append]
          omega⟩
      refine opens_blocks hs ?_ hsection
      rw [← hmore, List.take_append_of_le_length (by omega)]
      exact hmagic

theorem twins_of_classic {feed feed' : Feed} {header : ClassicHeader} (hs : Feed.Fresh s feed)
    (ht : Feed.Fresh t feed') (hbytes : s.bytes = t.bytes)
    (hread : ClassicHeader.read s.firstRead = .ok header)
    (hread' : ClassicHeader.read t.firstRead = .ok header) :
    Twins s.bytes (.classic ({ feed, header } : ClassicReader).enter)
      (.classic ({ feed := feed', header } : ClassicReader).enter) := by
  have hstands : ({ feed, header } : ClassicReader).StandsIn s.bytes :=
    ⟨[], hs.unread_eq.symm, rfl, rfl, hs.buffer_eq ▸ hread⟩
  have hunread {u : ByteSource} {f : Feed} (hu : Feed.Fresh u f)
      (h : ClassicHeader.read u.firstRead = .ok header) :
      Feed.unread { f with buffer := f.buffer.drop ClassicHeader.length } =
        u.bytes.drop ClassicHeader.length := by
    rw [Feed.unread_drop (hu.buffer_eq ▸ (ClassicHeader.of_read h).1), hu.unread_eq]
  exact .classic ⟨rfl, hstands.enter.1, hs.ready_drop _, ht.ready_drop _,
    (hunread hs hread).trans (hbytes ▸ (hunread ht hread').symm)⟩

theorem read_ne_ok {front : Bytes} (more : Bytes) (h : front.take 4 = blockMagic)
    (header : ClassicHeader) : ClassicHeader.read (front ++ more) ≠ .ok header := by
  intro hread
  have hlen : 4 ≤ front.length := by
    have := congrArg List.length h
    simp only [List.length_take, blockMagic, List.length_cons, List.length_nil] at this
    omega
  obtain ⟨-, hmagic⟩ := ClassicHeader.of_read hread
  rw [List.take_append_of_le_length hlen, h] at hmagic
  cases hmagic

/-- Readers that were opened in sources of the same bytes answer like twins. -/
theorem twins_of_opened (hs : s.Steady) (ht : t.Steady) (hbytes : s.bytes = t.bytes)
    (hc : ofSource s = .ok c) (hd : ofSource t = .ok d) :
    ∃ c' d', Twins s.bytes c' d' ∧ (∀ n, c'.answer n = c.answer n) ∧
      ∀ n, d'.answer n = d.answer n := by
  obtain ⟨feed, hfresh, hkind⟩ := of_ofSource hs hc
  obtain ⟨feed', hfresh', hkind'⟩ := of_ofSource ht hd
  obtain ⟨more, hmore⟩ := s.firstRead_isPrefix
  obtain ⟨more', hmore'⟩ := t.firstRead_isPrefix
  rw [← hbytes] at hmore'
  -- a header that is read of either first piece is read of all the bytes
  have hclassic {header : ClassicHeader} (h : ClassicHeader.read s.firstRead = .ok header) :
      ClassicHeader.read s.bytes = .ok header := hmore ▸ ClassicHeader.read_append more h
  have hclassic' {header : ClassicHeader} (h : ClassicHeader.read t.firstRead = .ok header) :
      ClassicHeader.read s.bytes = .ok header := hmore' ▸ ClassicHeader.read_append more' h
  rcases hkind with ⟨header, hread, rfl⟩ | ⟨hmagic, -, rfl⟩
  · rcases hkind' with ⟨header', hread', rfl⟩ | ⟨hmagic', -, rfl⟩
    · obtain rfl : header = header' :=
        Except.ok.inj ((hclassic hread).symm.trans (hclassic' hread'))
      exact ⟨_, _, twins_of_classic hfresh hfresh' hbytes hread hread', answer_enter _,
        answer_enter _⟩
    · refine absurd (hclassic hread) ?_
      rw [← hmore']
      exact read_ne_ok more' hmagic' header
  · rcases hkind' with ⟨header', hread', rfl⟩ | ⟨hmagic', -, rfl⟩
    · refine absurd (hclassic' hread') ?_
      rw [← hmore]
      exact read_ne_ok more hmagic header'
    · exact ⟨_, _, .blocks ⟨standsIn_ofSource hc, hfresh.ready, hfresh'.ready,
        hfresh.unread_eq.trans (hbytes.trans hfresh'.unread_eq.symm)⟩, fun _ => rfl, fun _ => rfl⟩

/-- **What is read depends on the bytes only**, once a capture is opened. Let no record or block be
as large as the buffer. Whether a capture is opened depends on whether the first piece has its first
header; and readers that were opened in sources of the same bytes give the same answers for ever,
but for how many bytes a fault about a length quotes. -/
theorem answers_alike (hs : s.Steady) (ht : t.Steady) (hbytes : s.bytes = t.bytes)
    (hfills : ¬ FillsBuffer s.bytes) :
    ((∃ c, ofSource s = .ok c) ↔ ∃ header, IsHeader header ∧ header <+: s.firstRead) ∧
    ((∃ d, ofSource t = .ok d) ↔ ∃ header, IsHeader header ∧ header <+: t.firstRead) ∧
    ∀ c d, ofSource s = .ok c → ofSource t = .ok d → ∀ n, Alike (c.answer n) (d.answer n) := by
  refine ⟨opens_iff hs, opens_iff ht, fun c d hc hd n => ?_⟩
  obtain ⟨c', d', htwins, hanswer, hanswer'⟩ := twins_of_opened hs ht hbytes hc hd
  rw [← hanswer, ← hanswer']
  exact htwins.answer hfills n

def twoBytes : Bytes :=
  [0xd4, 0xc3, 0xb2, 0xa1, 2, 0, 4, 0, 0, 0, 0, 0, 0, 0, 0, 0, 0xff, 0xff, 0, 0, 1, 0, 0, 0] ++
  [1, 0, 0, 0, 2, 0, 0, 0, 2, 0, 0, 0, 2, 0, 0, 0] ++ [0xaa, 0xbb]

/-- The same capture is opened or not, as its first piece has its header or not. -/
theorem short_read_hides_header :
    ∃ s t : ByteSource, s.Steady ∧ t.Steady ∧ s.bytes = twoBytes ∧ t.bytes = twoBytes ∧
      (∃ c, ofSource s = .ok c) ∧ ¬ ∃ d, ofSource t = .ok d := by
  have hs : ByteSource.Steady { pieces := [twoBytes] } := ⟨rfl, by decide⟩
  have ht : ByteSource.Steady { pieces := [twoBytes.take 10, twoBytes.drop 10] } :=
    ⟨rfl, by decide⟩
  refine ⟨_, _, hs, ht, rfl, rfl, ⟨_, rfl⟩, ?_⟩
  rintro ⟨d, hd⟩
  cases hd

theorem answers_alike_twoBytes :
    ∃ s t : ByteSource, s.Steady ∧ t.Steady ∧ s.bytes = t.bytes ∧ ¬ FillsBuffer s.bytes ∧
      ∃ c d, ofSource s = .ok c ∧ ofSource t = .ok d ∧ ∀ n, Alike (c.answer n) (d.answer n) := by
  have hs : ByteSource.Steady { pieces := [twoBytes] } := ⟨rfl, by decide⟩
  have ht : ByteSource.Steady { pieces := [twoBytes.take 30, twoBytes.drop 30] } :=
    ⟨rfl, by decide⟩
  have hfills : ¬ FillsBuffer (ByteSource.bytes { pieces := [twoBytes] }) := by
    rintro ⟨front, item, behind, hbytes, hlen, -⟩
    have hlength := congrArg List.length hbytes
    simp only [List.length_append, hlen, Feed.capacity] at hlength
    have h42 : (ByteSource.bytes { pieces := [twoBytes] }).length = 42 := rfl
    omega
  exact ⟨_, _, hs, ht, rfl, hfills, _, _, rfl, rfl,
    (answers_alike hs ht rfl hfills).2.2 _ _ rfl rfl⟩

end Capture

end FrameIndex
