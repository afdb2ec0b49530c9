import FrameIndex.Proofs.Capture.Interfaces

/-!
# Sections

A section is read in the same way behind other sections as it is read alone, but for two things: its
frames are numbered on (`Frame.MovedBehind.number_eq`), and a packet in front of which the section
describes no interface has the link type of the last interface in front of the section
(`Frame.MovedBehind.linkType_eq`). Alone it would be that of Ethernet. For a reader forgets its
interfaces at a section header, but not the link type that it saw last (`BlockReader.Knows`). Both
readers know the same of the section otherwise, so they answer alike at each of its packets
(`Capture.sections_apart`).
-/

namespace FrameIndex

open Feed (capacity)
open StoredBlock (Written encode contents)
open CaptureBlock (described packets lastLink?)

/-! ## What stands in front of a section -/

namespace CaptureBlock

theorem described_append_section (before rest : List CaptureBlock) (order : ByteOrder) :
    described (before ++ .section order :: rest) = described (.section order :: rest) := by
  induction rest using List.reverseRecOn with
  | nil =>
    rw [described_concat, ← List.nil_append [CaptureBlock.section order], described_concat]
    rfl
  | append_singleton rest block ih =>
    rw [← List.cons_append, ← List.append_assoc, described_concat, described_concat, ih]

theorem described_eq_nil {blocks : List CaptureBlock} (h : lastLink? blocks = none) :
    described blocks = [] := by
  rw [lastLink?, List.getLast?_eq_none_iff, List.map_eq_nil_iff, List.filterMap_eq_nil_iff] at h
  refine List.filterMap_eq_nil_iff.2 fun block hblock => h block ?_
  exact (List.rtakeWhile_suffix _ blocks).subset hblock

/-- The link type that is read for a packet, if it is another one when the packet's section is read
alone. In front of the packet stand some blocks of its section, and others in front of these. -/
def linkBehind (before front : List CaptureBlock) (alone : Nat) : Nat :=
  if lastLink? front = none then (lastLink? before).getD Frame.ethernetLink else alone

end CaptureBlock

open CaptureBlock (linkBehind)

/-- The frame of a packet, in front of which stand some blocks of its section and others in front of
the section, and the frame of the same packet when the section is read alone. -/
structure Frame.MovedBehind (before front : List CaptureBlock) (alone f : Frame) : Prop where
  number_eq : f.number = packets before + alone.number
  timestamp_eq : f.timestamp = alone.timestamp
  captured_eq : f.captured = alone.captured
  onWire_eq : f.onWire = alone.onWire
  data_eq : f.data = alone.data
  linkType_eq : f.linkType = linkBehind before front alone.linkType
  alone_eq : lastLink? front = none → alone.linkType = Frame.ethernetLink

inductive AnsweredBehind (before front : List CaptureBlock) :
    Except CaptureFailure Frame → Except CaptureFailure Frame → Prop where
  | frame {alone f : Frame} (h : alone.MovedBehind before front f) :
      AnsweredBehind before front (.ok alone) (.ok f)
  | error (e : CaptureFailure) : AnsweredBehind before front (.error e) (.error e)

/-! ## Two readers -/

namespace BlockReader

variable {r q : BlockReader} {before front : List CaptureBlock} {block : CaptureBlock}

/-- A reader behind some blocks of a section that it reads alone, and one that has read others in
front of the section. -/
structure Apart (before front : List CaptureBlock) (q r : BlockReader) : Prop where
  interfaces_eq : r.interfaces = q.interfaces
  count_eq : r.count = packets before + q.count
  linkType_eq : r.linkType = linkBehind before front q.linkType
  alone_eq : lastLink? front = none → q.interfaces = [] ∧ q.linkType = Frame.ethernetLink

theorem Knows.apart {order : ByteOrder} (hq : q.Knows (.section order :: front))
    (hr : r.Knows (before ++ .section order :: front)) :
    Apart before (.section order :: front) q r := by
  constructor
  case interfaces_eq =>
    rw [hr.interfaces_eq, hq.interfaces_eq, CaptureBlock.described_append_section]
  case count_eq => rw [hr.count_eq, hq.count_eq, CaptureBlock.packets_append]
  case linkType_eq =>
    rw [hr.linkType_eq, hq.linkType_eq, CaptureBlock.lastLink?_append, linkBehind]
    cases lastLink? (.section order :: front) <;> rfl
  case alone_eq =>
    intro hlast
    rw [hq.interfaces_eq, hq.linkType_eq, hlast]
    exact ⟨CaptureBlock.described_eq_nil hlast, rfl⟩

theorem Apart.interface_eq (h : Apart before front q r) (number : Nat) :
    r.interface number = { q.interface number with
      linkType := linkBehind before front (q.interface number).linkType } := by
  rw [interface, interface, h.interfaces_eq, h.linkType_eq]
  by_cases hlast : lastLink? front = none
  · rw [(h.alone_eq hlast).1]
    rfl
  · simp only [linkBehind, if_neg hlast]

theorem Apart.interface_alone (h : Apart before front q r) (number : Nat)
    (hlast : lastLink? front = none) : (q.interface number).linkType = Frame.ethernetLink := by
  obtain ⟨hinterfaces, hlink⟩ := h.alone_eq hlast
  rw [interface, hinterfaces]
  exact hlink

theorem Apart.absorb (h : Apart before front q r) (hpacket : block.isPacket = true) :
    ∃ alone outcome, (q.absorb block).2 = some alone ∧ (r.absorb block).2 = some outcome ∧
      AnsweredBehind before front alone outcome := by
  have hcount : r.count + 1 = packets before + (q.count + 1) := by
    rw [h.count_eq, Nat.add_assoc]
  cases block with
  | enhanced p =>
    refine ⟨_, _, rfl, rfl, ?_⟩
    have halone : ({ q with count := q.count + 1 } : BlockReader).interface p.interface =
        q.interface p.interface := rfl
    have hbehind : ({ r with count := r.count + 1 } : BlockReader).interface p.interface =
        { q.interface p.interface with
          linkType := linkBehind before front (q.interface p.interface).linkType } :=
      h.interface_eq p.interface
    simp only [enhancedFrame, halone, hbehind]
    cases Ticks.toMicros? p.ticks (q.interface p.interface).resolution with
    | none => exact .error _
    | some micros =>
      exact .frame ⟨hcount, rfl, rfl, rfl, rfl, rfl, h.interface_alone p.interface⟩
  | simple onWire data =>
    exact ⟨_, _, rfl, rfl, .frame
      ⟨hcount, rfl, rfl, rfl, rfl, h.linkType_eq, fun hlast => (h.alone_eq hlast).2⟩⟩
  | «section» | interface | other => cases hpacket

theorem outcomes_apart (feed feed' : Feed) (before : List CaptureBlock) {blocks : List CaptureBlock}
    (hblocks : ∃ order rest, blocks = .section order :: rest) {n : Nat} (hn : n < packets blocks) :
    ∃ front packet behind alone outcome, blocks = front ++ packet :: behind ∧
      packet.isPacket = true ∧ packets front = n ∧
      (({ feed := feed' } : BlockReader).outcomes blocks)[n]? = some alone ∧
      (({ feed } : BlockReader).outcomes (before ++ blocks))[packets before + n]? = some outcome ∧
      AnsweredBehind before front alone outcome := by
  obtain ⟨front, packet, behind, rfl, hpacket, rfl⟩ := CaptureBlock.exists_packet hn
  obtain ⟨order, rest, hfirst⟩ := hblocks
  cases front with
  | nil =>
    -- a section header is no packet
    cases hfirst
    cases hpacket
  | cons first front =>
    cases hfirst
    have hq := (knows_start feed').absorbAll (.section order :: front)
    have hr := (knows_start feed).absorbAll (before ++ .section order :: front)
    obtain ⟨alone, outcome, halone, houtcome, hbehind⟩ := (hq.apart hr).absorb hpacket
    refine ⟨_, packet, behind, alone, outcome, rfl, hpacket, rfl, getElem?_outcomes halone, ?_,
      hbehind⟩
    rw [← CaptureBlock.packets_append, ← List.append_assoc]
    exact getElem?_outcomes houtcome

end BlockReader

/-! ## Captures -/

namespace Capture

variable {s t : ByteSource} {before blocks : List StoredBlock}

/-- **A section is read behind others as it is read alone**, but for two things: the frames are
numbered on, and a packet in front of which the section describes no interface has the link type of
the last interface that is described in front of the section. The errors and the end come at the
same places, if every block is smaller than the buffer. -/
theorem sections_apart (hs : s.HandsOut (before ++ blocks)) (ht : t.HandsOut blocks) :
    ∃ c d, ofSource s = .ok c ∧ ofSource t = .ok d ∧
      (∀ n alone f, d.answer n = .ok (some alone) →
        c.answer (packets (contents before) + n) = .ok (some f) →
          ∃ front packet behind, contents blocks = front ++ packet :: behind ∧
            packet.isPacket = true ∧ packets front = n ∧
            alone.MovedBehind (contents before) front f) ∧
      ((∀ b ∈ before ++ blocks, b.bytes.length < capacity) → ∀ n,
        (∀ e, c.answer (packets (contents before) + n) = .error e ↔ d.answer n = .error e) ∧
        (c.answer (packets (contents before) + n) = .ok none ↔ d.answer n = .ok none)) := by
  obtain ⟨c, feed, hopened, hframe, hall⟩ := hs.exists_outcomes
  obtain ⟨d, feed', hopened', hframe', hall'⟩ := ht.exists_outcomes
  rw [StoredBlock.contents_append] at hframe hall
  have hsection : ∃ order rest, contents blocks = .section order :: rest := by
    obtain ⟨header, rest, order, rfl, hheader, -⟩ := ht.opening
    exact ⟨order, contents rest, congrArg (· :: contents rest) hheader⟩
  refine ⟨c, d, hopened, hopened', ?_, ?_⟩
  · intro n alone f hd hc
    have hlt := List.getElem?_eq_some_iff.1 (hframe' n alone hd)
    obtain ⟨hlt, -⟩ := hlt
    rw [BlockReader.length_outcomes] at hlt
    obtain ⟨front, packet, behind, alone', outcome, hblocks, hpacket, hn, halone, houtcome,
      hbehind⟩ := BlockReader.outcomes_apart feed feed' (contents before) hsection hlt
    rw [hframe' n alone hd] at halone
    rw [hframe _ f hc] at houtcome
    obtain rfl := Option.some.inj halone
    obtain rfl := Option.some.inj houtcome
    cases hbehind with
    | frame h => exact ⟨front, packet, behind, hblocks, hpacket, hn, h⟩
  · intro hsmall n
    have hc := hall hsmall
    have hd := hall' fun b hb => hsmall b (List.mem_append_right _ hb)
    by_cases hlt : n < packets (contents blocks)
    · obtain ⟨front, packet, behind, alone, outcome, -, -, -, halone, houtcome, hbehind⟩ :=
        BlockReader.outcomes_apart feed feed' (contents before) hsection hlt
      rw [hc.of_getElem? houtcome, hd.of_getElem? halone]
      cases hbehind with
      | frame h => exact ⟨fun e => ⟨nofun, nofun⟩, ⟨nofun, nofun⟩⟩
      | error e => exact ⟨fun e' => Iff.rfl, Iff.rfl⟩
    · have hle := Nat.le_of_not_lt hlt
      rw [hc.of_le (by rw [BlockReader.length_outcomes, CaptureBlock.packets_append]; omega),
        hd.of_le (by rwa [BlockReader.length_outcomes])]
      exact ⟨fun e => Iff.rfl, Iff.rfl⟩

def rawInterface : StoredBlock where
  bytes := CaptureBlock.framed .little 1 [101, 0, 0, 0, 0, 0, 0, 0]
  block := .interface { linkType := 101 }

/-- A packet of four bytes that names no interface. -/
def simplePacket : StoredBlock where
  bytes := CaptureBlock.framed .little 3 [4, 0, 0, 0, 5, 6, 7, 8]
  block := .simple 4 [5, 6, 7, 8]

/-- Two packets stand in front of the interface of their section. -/
def lateInterface : List StoredBlock := [sectionHeader, tickedPacket 0, simplePacket, ethernet]

def lateFrames (linkType : Nat) : List Frame :=
  [{ number := 1, timestamp := 1500, captured := 4, onWire := 4, linkType, data := [1, 2, 3, 4] },
    { number := 2, timestamp := 0, captured := 4, onWire := 4, linkType, data := [5, 6, 7, 8] }]

/-- Behind a section of another link type, both packets have that link type. -/
theorem link_type_of_other_section :
    ∃ s t c d, s.HandsOut ([sectionHeader, rawInterface] ++ lateInterface) ∧
      t.HandsOut lateInterface ∧ ofSource s = .ok c ∧ ofSource t = .ok d ∧
      c.Answers ((lateFrames 101).map .ok) (.ok none) ∧
      d.Answers ((lateFrames 1).map .ok) (.ok none) := by
  have hs : ByteSource.HandsOut
      { pieces := [encode ([sectionHeader, rawInterface] ++ lateInterface)] }
      ([sectionHeader, rawInterface] ++ lateInterface) :=
    ⟨⟨rfl, by decide⟩, rfl, by decide +kernel, _, _, .little, rfl, rfl, by decide +kernel⟩
  have ht : ByteSource.HandsOut { pieces := [encode lateInterface] } lateInterface :=
    ⟨⟨rfl, by decide⟩, rfl, by decide +kernel, _, _, .little, rfl, rfl, by decide +kernel⟩
  obtain ⟨c, feed, hopened, -, hall⟩ := hs.exists_outcomes
  obtain ⟨d, feed', hopened', -, hall'⟩ := ht.exists_outcomes
  have hframes (feed : Feed) : ({ feed } : BlockReader).outcomes
      (contents ([sectionHeader, rawInterface] ++ lateInterface)) = (lateFrames 101).map .ok := by
    rw [BlockReader.outcomes_start]
    decide +kernel
  have hframes' (feed : Feed) : ({ feed } : BlockReader).outcomes (contents lateInterface) =
      (lateFrames 1).map .ok := by
    rw [BlockReader.outcomes_start]
    decide +kernel
  exact ⟨_, _, c, d, hs, ht, hopened, hopened', hframes feed ▸ hall (by decide),
    hframes' feed' ▸ hall' (by decide)⟩

theorem sections_apart_lateInterface :
    ∃ s t c d, s.HandsOut ([sectionHeader, rawInterface, tickedPacket 0] ++ lateInterface) ∧
      t.HandsOut lateInterface ∧ ofSource s = .ok c ∧ ofSource t = .ok d ∧
      (∀ n alone f, d.answer n = .ok (some alone) → c.answer (1 + n) = .ok (some f) →
        f.number = 1 + alone.number ∧ f.timestamp = alone.timestamp ∧ f.data = alone.data) ∧
      ∀ n, c.answer (1 + n) = .ok none ↔ d.answer n = .ok none := by
  have hs : ByteSource.HandsOut
      { pieces := [encode ([sectionHeader, rawInterface, tickedPacket 0] ++ lateInterface)] }
      ([sectionHeader, rawInterface, tickedPacket 0] ++ lateInterface) :=
    ⟨⟨rfl, by decide⟩, rfl, by decide +kernel, _, _, .little, rfl, rfl, by decide +kernel⟩
  have ht : ByteSource.HandsOut { pieces := [encode lateInterface] } lateInterface :=
    ⟨⟨rfl, by decide⟩, rfl, by decide +kernel, _, _, .little, rfl, rfl, by decide +kernel⟩
  obtain ⟨c, d, hopened, hopened', hframes, hstops⟩ := sections_apart hs ht
  refine ⟨_, _, c, d, hs, ht, hopened, hopened', fun n alone f hd hc => ?_,
    fun n => (hstops (by decide) n).2⟩
  obtain ⟨front, packet, behind, -, -, -, hmoved⟩ := hframes n alone f hd hc
  exact ⟨hmoved.number_eq, hmoved.timestamp_eq, hmoved.data_eq⟩

end Capture

end FrameIndex
