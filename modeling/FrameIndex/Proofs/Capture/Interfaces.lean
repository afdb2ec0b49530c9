import FrameIndex.Proofs.Capture.Sequence
import Mathlib.Algebra.Order.Ring.Int
import Mathlib.Data.List.DropRight

/-!
# Interfaces and times

A packet names its interface by the place that this has among those described in the packet's
section. What a reader knows of interfaces and packets is settled by the blocks in front of it
(`BlockReader.Knows`), so each packet is read with the link type and the clock of its own interface,
and with its own number (`Capture.frames_of_blocks`). A clock that is not supported costs one
answer. A block as large as the buffer is refused if the buffer has all of it but a part of its last
four bytes (`Capture.full_block_refused`).
-/

namespace FrameIndex

open Feed (capacity)
open StoredBlock (Written encode contents)

/-! ## Times -/

namespace Ticks

/-- The ticks in a second, be their number supported or not. -/
def unit (resolution : Nat) : Nat :=
  if resolution / 128 % 2 = 1 then 2 ^ (resolution % 128) else 10 ^ (resolution % 128)

def micros (ticks resolution : Nat) : Nat := ticks * 1000000 / unit resolution

/-- The resolution is supported, and the microseconds fit in 64 bits with a sign. -/
def Convertible (ticks resolution : Nat) : Prop :=
  unit resolution < 2 ^ 128 ∧ micros ticks resolution < 2 ^ 63

def Fits (n : Int) : Prop := -2 ^ 63 ≤ n ∧ n < 2 ^ 63

instance decidableConvertible (ticks resolution : Nat) : Decidable (Convertible ticks resolution) :=
  inferInstanceAs (Decidable (_ ∧ _))

instance decidableFits (n : Int) : Decidable (Fits n) := inferInstanceAs (Decidable (_ ∧ _))

theorem bound_eq : bound = 2 ^ 63 := by
  simp [bound, Bytes.limit]

theorem perSecond?_eq (resolution : Nat) :
    perSecond? resolution =
      if unit resolution < 2 ^ 128 then some (unit resolution) else none := by
  have hlimit : Bytes.limit 16 = 2 ^ 128 := by simp [Bytes.limit]
  simp only [perSecond?, hlimit]
  rfl

theorem toMicros?_of_convertible {ticks resolution : Nat} (h : Convertible ticks resolution) :
    toMicros? ticks resolution = some (micros ticks resolution) := by
  rw [toMicros?, perSecond?_eq, if_pos h.1, Option.bind_some, bound_eq]
  exact if_pos h.2

theorem toMicros?_of_not_convertible {ticks resolution : Nat} (h : ¬ Convertible ticks resolution) :
    toMicros? ticks resolution = none := by
  rw [toMicros?, perSecond?_eq, bound_eq]
  by_cases hunit : unit resolution < 2 ^ 128
  · rw [if_pos hunit, Option.bind_some]
    exact if_neg fun hmicros => h ⟨hunit, hmicros⟩
  · rw [if_neg hunit, Option.bind_none]

theorem saturate_of_fits {n : Int} (h : Fits n) : saturate n = n := by
  have hbound : (bound : Int) = 2 ^ 63 := by
    rw [bound_eq]
    rfl
  rw [saturate, hbound, if_neg (Int.not_lt.2 h.1), if_neg (Int.not_le.2 h.2)]

theorem shifted_of_fits {micros : Nat} {seconds : Int} (hoffset : Fits (seconds * 1000000))
    (h : Fits (micros + seconds * 1000000)) :
    shifted micros seconds = micros + seconds * 1000000 := by
  rw [shifted, saturate_of_fits hoffset, saturate_of_fits h]

end Ticks

/-! ## What stands in front of a block -/

namespace CaptureBlock

def isSection : CaptureBlock → Bool
  | .section _ => true
  | _ => false

def interface? : CaptureBlock → Option CaptureInterface
  | .interface description => some description
  | _ => none

def isPacket : CaptureBlock → Bool
  | .enhanced _ | .simple _ _ => true
  | _ => false

/-- The interfaces that are described behind the last section header. -/
def described (blocks : List CaptureBlock) : List CaptureInterface :=
  (blocks.rtakeWhile (!·.isSection)).filterMap interface?

def packets (blocks : List CaptureBlock) : Nat := blocks.countP isPacket

/-- The link type of the last interface that is described in any section. -/
def lastLink? (blocks : List CaptureBlock) : Option Nat :=
  ((blocks.filterMap interface?).map (·.linkType)).getLast?

theorem described_concat (blocks : List CaptureBlock) (block : CaptureBlock) :
    described (blocks ++ [block]) =
      if block.isSection then [] else described blocks ++ block.interface?.toList := by
  rw [described, List.rtakeWhile_concat]
  cases block <;> simp [isSection, described, interface?]

theorem packets_append (front behind : List CaptureBlock) :
    packets (front ++ behind) = packets front + packets behind :=
  List.countP_append

theorem packets_concat (blocks : List CaptureBlock) (block : CaptureBlock) :
    packets (blocks ++ [block]) = packets blocks + if block.isPacket then 1 else 0 := by
  rw [packets_append, packets, packets, List.countP_singleton]

theorem lastLink?_append (front behind : List CaptureBlock) :
    lastLink? (front ++ behind) = (lastLink? behind).or (lastLink? front) := by
  rw [lastLink?, List.filterMap_append, List.map_append, List.getLast?_append]
  rfl

theorem exists_packet {blocks : List CaptureBlock} {n : Nat} (h : n < packets blocks) :
    ∃ front block behind, blocks = front ++ block :: behind ∧ block.isPacket = true ∧
      packets front = n := by
  induction blocks generalizing n with
  | nil => cases h
  | cons block blocks ih =>
    by_cases hpacket : block.isPacket = true
    · cases n with
      | zero => exact ⟨[], block, blocks, rfl, hpacket, rfl⟩
      | succ n =>
        rw [packets, List.countP_cons_of_pos hpacket] at h
        obtain ⟨front, packet, behind, rfl, hpacket', rfl⟩ := ih (Nat.lt_of_succ_lt_succ h)
        exact ⟨block :: front, packet, behind, rfl, hpacket', List.countP_cons_of_pos hpacket⟩
    · rw [packets, List.countP_cons_of_neg hpacket] at h
      obtain ⟨front, packet, behind, rfl, hpacket', rfl⟩ := ih h
      exact ⟨block :: front, packet, behind, rfl, hpacket', List.countP_cons_of_neg hpacket⟩

end CaptureBlock

open CaptureBlock (described packets lastLink?)

/-! ## What a reader knows -/

namespace BlockReader

variable {r : BlockReader} {seen front behind : List CaptureBlock} {block : CaptureBlock}

/-- The reader knows the interfaces of the section that it is in, and how many packets it has seen.
The link type that it saw last may be that of another section. -/
structure Knows (r : BlockReader) (seen : List CaptureBlock) : Prop where
  interfaces_eq : r.interfaces = described seen
  count_eq : r.count = packets seen
  linkType_eq : r.linkType = (lastLink? seen).getD Frame.ethernetLink

theorem knows_start (feed : Feed) : ({ feed } : BlockReader).Knows [] := ⟨rfl, rfl, rfl⟩

theorem Knows.absorb (h : r.Knows seen) (block : CaptureBlock) :
    (r.absorb block).1.Knows (seen ++ [block]) := by
  obtain ⟨hinterfaces, hcount, hlinkType⟩ := h
  constructor
  case interfaces_eq =>
    rw [CaptureBlock.described_concat, ← hinterfaces]
    cases block <;> simp [BlockReader.absorb, CaptureBlock.isSection, CaptureBlock.interface?]
  case count_eq =>
    rw [CaptureBlock.packets_concat, ← hcount]
    cases block <;> rfl
  case linkType_eq =>
    rw [CaptureBlock.lastLink?_append]
    cases block with
    | interface description => rfl
    | «section» | enhanced | simple | other => exact hlinkType

theorem Knows.absorbAll (h : r.Knows seen) (blocks : List CaptureBlock) :
    (r.absorbAll blocks).Knows (seen ++ blocks) := by
  induction blocks generalizing r seen with
  | nil => rwa [List.append_nil]
  | cons block blocks ih =>
    have hrest := ih (h.absorb block)
    rwa [List.append_assoc] at hrest

/-! ## What is answered for a packet -/

theorem isSome_absorb (r : BlockReader) (block : CaptureBlock) :
    (r.absorb block).2.isSome = block.isPacket := by
  cases block <;> rfl

theorem length_outcomes (r : BlockReader) (blocks : List CaptureBlock) :
    (r.outcomes blocks).length = packets blocks := by
  induction blocks generalizing r with
  | nil => rfl
  | cons block blocks ih =>
    have hpacket := r.isSome_absorb block
    rw [outcomes, List.length_append, ih, packets, packets, List.countP_cons, ← hpacket,
      Nat.add_comm]
    cases (r.absorb block).2 <;> rfl

theorem getElem?_outcomes {outcome : Except CaptureFailure Frame}
    (h : ((r.absorbAll front).absorb block).2 = some outcome) :
    (r.outcomes (front ++ block :: behind))[packets front]? = some outcome := by
  rw [outcomes_append, List.getElem?_append_right (by rw [length_outcomes]), length_outcomes,
    Nat.sub_self, outcomes, h]
  rfl

theorem number_of_absorb {frame : Frame} (h : (r.absorb block).2 = some (.ok frame)) :
    frame.number = r.count + 1 := by
  cases block with
  | enhanced packet => exact (enhancedFrame_eq_ok (Option.some.inj h)).1
  | simple onWire data =>
    cases h
    rfl
  | «section» | interface | other => cases h

end BlockReader

/-- The frame is read of a packet of an interface, and has a number. Its time is that of the clock
of the interface, if it can be told in 64 bits. -/
structure EnhancedPacket.ReadAs (p : EnhancedPacket) (i : CaptureInterface) (number : Nat)
    (frame : Frame) : Prop where
  number_eq : frame.number = number
  linkType_eq : frame.linkType = i.linkType
  timestamp_eq (hoffset : Ticks.Fits (i.offset * 1000000))
    (h : Ticks.Fits (Ticks.micros p.ticks i.resolution + i.offset * 1000000)) :
    frame.timestamp = Ticks.micros p.ticks i.resolution + i.offset * 1000000
  captured_eq : frame.captured = p.captured
  onWire_eq : frame.onWire = p.onWire
  data_eq : frame.data = p.data

namespace BlockReader

variable {r : BlockReader} {seen : List CaptureBlock} {p : EnhancedPacket} {i : CaptureInterface}

theorem Knows.interface_eq (h : r.Knows seen) (hi : (described seen)[p.interface]? = some i) :
    r.interface p.interface = i := by
  rw [interface, h.interfaces_eq, hi]
  rfl

theorem Knows.absorb_enhanced (h : r.Knows seen) (hi : (described seen)[p.interface]? = some i) :
    (Ticks.Convertible p.ticks i.resolution → ∃ frame,
      (r.absorb (.enhanced p)).2 = some (.ok frame) ∧ p.ReadAs i (packets seen + 1) frame) ∧
    (¬ Ticks.Convertible p.ticks i.resolution → (r.absorb (.enhanced p)).2 =
      some (.error (.invalidFormat (.unsupportedResolution i.resolution p.interface)))) := by
  have hsame : (r.absorb (.enhanced p)).2 =
      some (({ r with count := r.count + 1 } : BlockReader).enhancedFrame p) := rfl
  have hinterface : ({ r with count := r.count + 1 } : BlockReader).interface p.interface = i :=
    h.interface_eq hi
  constructor
  · intro hclock
    rw [hsame, enhancedFrame, hinterface, Ticks.toMicros?_of_convertible hclock, ← h.count_eq]
    exact ⟨_, rfl, rfl, rfl, Ticks.shifted_of_fits, rfl, rfl, rfl⟩
  · intro hclock
    rw [hsame, enhancedFrame, hinterface, Ticks.toMicros?_of_not_convertible hclock]

theorem number_of_outcome {feed : Feed} {blocks : List CaptureBlock} {n : Nat} {frame : Frame}
    (h : (({ feed } : BlockReader).outcomes blocks)[n]? = some (.ok frame)) :
    frame.number = n + 1 := by
  obtain ⟨hlt, -⟩ := List.getElem?_eq_some_iff.1 h
  rw [length_outcomes] at hlt
  obtain ⟨front, block, behind, rfl, hpacket, rfl⟩ := CaptureBlock.exists_packet hlt
  obtain ⟨outcome, habsorb⟩ := Option.isSome_iff_exists.1
    (((({ feed } : BlockReader).absorbAll front).isSome_absorb block).trans hpacket)
  rw [getElem?_outcomes habsorb] at h
  cases h
  rw [number_of_absorb habsorb, ((knows_start feed).absorbAll front).count_eq]
  rfl

end BlockReader

/-! ## Captures -/

namespace Capture

variable {c : Capture} {s : ByteSource} {blocks : List StoredBlock}
  {outcomes : List (Except CaptureFailure Frame)} {stop : Except CaptureFailure (Option Frame)}

theorem Answers.of_getElem? (h : c.Answers outcomes stop) {n : Nat}
    {outcome : Except CaptureFailure Frame} (hn : outcomes[n]? = some outcome) :
    c.answer n = outcome.map some := by
  rw [h n, hn]
  rfl

theorem Answers.of_le (h : c.Answers outcomes stop) {n : Nat} (hn : outcomes.length ≤ n) :
    c.answer n = stop := by
  rw [h n, List.getElem?_eq_none hn]
  rfl

/-- **Each packet is read with the interface that it names**, among those of its section. Let no
block be larger than the buffer. The packets of the blocks are answered one after another: a packet
whose interface is described with a frame that has the interface's link type, the packet's place
among all packets as its number, and the time of the interface's clock; or with an error, if that
clock is not supported, and the packet counts like any other. Then comes the end, unless a block is
exactly as large as the buffer. -/
theorem frames_of_blocks (hs : s.HandsOut blocks) (hfit : ∀ b ∈ blocks, b.bytes.length ≤ capacity) :
    ∃ c read left, ofSource s = .ok c ∧ blocks = read ++ left ∧
      (∀ front behind p i, contents read = front ++ .enhanced p :: behind →
        (described front)[p.interface]? = some i →
          (Ticks.Convertible p.ticks i.resolution → ∃ frame,
            c.answer (packets front) = .ok (some frame) ∧ p.ReadAs i (packets front + 1) frame) ∧
          (¬ Ticks.Convertible p.ticks i.resolution → c.answer (packets front) =
            .error (.invalidFormat (.unsupportedResolution i.resolution p.interface)))) ∧
      (∀ n frame, c.answer n = .ok (some frame) →
        n < packets (contents read) ∧ frame.number = n + 1) ∧
      (left = [] ∧ (∀ n, packets (contents read) ≤ n → c.answer n = .ok none) ∨
        ∃ b more, left = b :: more ∧ b.bytes.length = capacity ∧
          ∀ n, packets (contents read) ≤ n →
            c.answer n = .error (.invalidFormat (.parse .bufferTooSmall))) := by
  obtain ⟨c, feed, read, left, stop, hopened, rfl, -, hstops, hanswers⟩ := hs.exists_answers
  have hknows (front : List CaptureBlock) :
      (({ feed } : BlockReader).absorbAll front).Knows front :=
    (BlockReader.knows_start feed).absorbAll front
  have hlength := BlockReader.length_outcomes { feed } (contents read)
  refine ⟨c, read, left, hopened, rfl, ?_, ?_, ?_⟩
  · intro front behind p i hread hi
    rw [hread] at hanswers
    obtain ⟨hframe, herror⟩ := (hknows front).absorb_enhanced hi
    refine ⟨fun hclock => ?_, fun hclock => ?_⟩
    · obtain ⟨frame, habsorb, hreadAs⟩ := hframe hclock
      exact ⟨frame, hanswers.of_getElem? (BlockReader.getElem?_outcomes habsorb), hreadAs⟩
    · exact hanswers.of_getElem? (BlockReader.getElem?_outcomes (herror hclock))
  · intro n frame hn
    have houtcome := hanswers.outcome hstops hn
    obtain ⟨hlt, -⟩ := List.getElem?_eq_some_iff.1 houtcome
    rw [hlength] at hlt
    exact ⟨hlt, BlockReader.number_of_outcome houtcome⟩
  · have hbehind {n : Nat} (hn : packets (contents read) ≤ n) : c.answer n = stop :=
      hanswers.of_le (by omega)
    cases hstops with
    | atEnd hleft => exact .inl ⟨hleft, fun n hn => hbehind hn⟩
    | @tooLarge b more hleft hlarge =>
      have hb := hfit b (hleft ▸ List.mem_append_right _ List.mem_cons_self)
      exact .inr ⟨b, more, hleft, Nat.le_antisymm hb hlarge, fun n hn => hbehind hn⟩

def sectionHeader : StoredBlock where
  bytes := CaptureBlock.framed .little 0x0a0d0d0a
    ([0x4d, 0x3c, 0x2b, 0x1a, 1, 0, 0, 0] ++ List.replicate 8 0xff)
  block := .section .little

def ethernet : StoredBlock where
  bytes := CaptureBlock.framed .little 1 [1, 0, 0, 0, 0, 0, 0, 0]
  block := .interface { linkType := 1 }

/-- The first 20 bytes of a body with a packet of 65504 bytes at the first interface. -/
def fullFront : Bytes := List.replicate 12 0 ++ [0xe0, 0xff, 0, 0, 0xe0, 0xff, 0, 0]

def fullPacket (data : Bytes) : EnhancedPacket where
  interface := 0
  ticks := 0
  captured := 65504
  onWire := 65504
  data

/-- The block of a packet of 65504 bytes is exactly as large as the buffer. -/
def fullBlock (data : Bytes) : StoredBlock where
  bytes := CaptureBlock.framed .little 6 (fullFront ++ data)
  block := .enhanced (fullPacket data)

/-- The capture of this packet comes in pieces of 32790 bytes. -/
def fullPieces (data : Bytes) : ByteSource where
  pieces :=
    [sectionHeader.bytes ++ (ethernet.bytes ++ (fullBlock data).bytes.take 32742),
      ((fullBlock data).bytes.drop 32742).take 32790, (fullBlock data).bytes.drop 65532]

section

variable {data : Bytes} (hdata : data.length = 65504)
include hdata

theorem length_fullBlock : (fullBlock data).bytes.length = 65536 := by
  rw [fullBlock, CaptureBlock.length_framed, List.length_append, hdata]
  rfl

theorem isIn_fullBlock : (fullBlock data).IsIn .little := by
  have hlength : (fullFront ++ data).length = 65524 := by
    rw [List.length_append, hdata]
    rfl
  have hfields : (fullFront ++ data).num .little 0 4 = 0 ∧
      (fullFront ++ data).num .little 4 4 = 0 ∧ (fullFront ++ data).num .little 8 4 = 0 ∧
      (fullFront ++ data).num .little 12 4 = 65504 ∧
      (fullFront ++ data).num .little 16 4 = 65504 := by
    refine ⟨?_, ?_, ?_, ?_, ?_⟩ <;>
      · rw [Bytes.num_append_left (by decide)]
        rfl
  have htaken : CaptureBlock.takeFilled ((fullFront ++ data).drop 20) 65504
      (fullFront ++ data) = .ok data := by
    have hdrop : (fullFront ++ data).drop 20 = data := List.drop_left' rfl
    have halign : CaptureBlock.align 65504 = 65504 := rfl
    rw [hdrop, CaptureBlock.takeFilled, halign, if_neg (by decide), hdata,
      if_neg (Nat.lt_irrefl _), List.take_of_length_le (Nat.le_of_eq hdata)]
  obtain ⟨hinterface, hhigh, hlow, hcaptured, honWire⟩ := hfields
  refine @CaptureBlock.isIn_framed _ _ _ .enhanced _ (by decide) rfl (by decide) ?_ ?_ ?_
  · rw [hlength]
    decide
  · rw [hlength]
    decide
  · simp only [CaptureBlock.ofBody, hinterface, hhigh, hlow, hcaptured, honWire, htaken]
    exact if_pos rfl

theorem steady_fullPieces : (fullPieces data).Steady := by
  refine ⟨rfl, fun hmem => ?_⟩
  have hlength := length_fullBlock hdata
  simp only [fullPieces, List.mem_cons, List.not_mem_nil, or_false] at hmem
  rcases hmem with hnil | hnil | hnil
  · have := congrArg List.length hnil
    simp only [List.length_append, List.length_take, List.length_nil] at this
    omega
  · have := congrArg List.length hnil
    simp only [List.length_take, List.length_drop, List.length_nil] at this
    omega
  · have := congrArg List.length hnil
    simp only [List.length_drop, List.length_nil] at this
    omega

theorem handsOut_fullPieces :
    (fullPieces data).HandsOut [sectionHeader, ethernet, fullBlock data] := by
  have hfront : Written .little [sectionHeader, ethernet] := by decide +kernel
  refine ⟨steady_fullPieces hdata, ?_, ⟨hfront.1, hfront.2.1, isIn_fullBlock hdata, trivial⟩,
    sectionHeader, _, .little, rfl, rfl, ?_⟩
  · have hsplit : (fullBlock data).bytes.drop 65532 =
        ((fullBlock data).bytes.drop 32742).drop 32790 := by
      rw [List.drop_drop]
    simp only [fullPieces, ByteSource.bytes, encode, List.flatten_cons, List.flatten_nil,
      List.flatMap_cons, List.flatMap_nil, List.append_nil, List.append_assoc]
    rw [hsplit, List.take_append_drop, List.take_append_drop]
  · rw [ByteSource.firstRead, fullPieces, List.headD_cons, List.length_take, List.length_append]
    have hlength : sectionHeader.bytes.length = 28 := rfl
    have hcapacity : capacity = 65536 := rfl
    omega

/-- The feed sees all of the block but its last four bytes, and refuses it. -/
theorem next_fullBlock (pieces : List Bytes) :
    ∃ g, Feed.next (CaptureBlock.read .little)
      ⟨{ pieces := ((fullBlock data).bytes.drop 32742).take 32790 :: pieces }, [],
        (fullBlock data).bytes.take 32742, false⟩ = (g, .error (.parse .bufferTooSmall)) := by
  have hlength := length_fullBlock hdata
  obtain ⟨order, kind, hwhole, hmeans⟩ := (isIn_fullBlock hdata).isWhole
  obtain ⟨rfl, -⟩ := hmeans
  have hmin : BlockKind.minLength .enhanced = 32 := rfl
  have hcapacity : capacity = 65536 := rfl
  have hcut (n : Nat) (hn : 32 ≤ n) (hlt : n < 65536) :
      ∃ missing, CaptureBlock.read .little ((fullBlock data).bytes.take n) = .cutOff missing ∧
        n + missing = if n < 65532 then 65532 else 65536 := by
    have hpart := hwhole.read_part nofun (List.take_prefix n _)
      (by rw [List.length_take]; omega) (by rw [List.length_take]; omega)
    rwa [List.length_take, hlength, Nat.min_eq_left (by omega)] at hpart
  obtain ⟨missing, hparse, hmissing⟩ := hcut 32742 (by decide) (by decide)
  obtain ⟨missing', hparse', hmissing'⟩ := hcut 65532 (by decide) (by decide)
  rw [if_pos (by decide)] at hmissing
  rw [if_neg (by decide)] at hmissing'
  have htwo : (fullBlock data).bytes.take 32742 ++ ((fullBlock data).bytes.drop 32742).take 32790 =
      (fullBlock data).bytes.take 65532 := by
    have hsum : 65532 = 32742 + 32790 := rfl
    rw [hsum, List.take_add]
  have hpiece : (((fullBlock data).bytes.drop 32742).take 32790).length = 32790 := by
    rw [List.length_take, List.length_drop]
    omega
  have hbuffer : ((fullBlock data).bytes.take 32742).length = 32742 := by
    rw [List.length_take]
    omega
  have hbuffer' : ((fullBlock data).bytes.take 65532).length = 65532 := by
    rw [List.length_take]
    omega
  rw [← htwo] at hparse' hbuffer'
  exact ⟨_, Feed.next_of_refill_tooLarge hparse (by omega)
    (List.ne_nil_of_length_eq_add_one hpiece) (by omega) hparse' (by omega)⟩

omit hdata in
theorem answers_behind_blocks {source : ByteSource} {buffer : Bytes} {g : Feed}
    (h : Feed.next (CaptureBlock.read .little) ⟨source, [], buffer, false⟩ =
      (g, .error (.parse .bufferTooSmall))) :
    (Capture.blocks
      { feed := ⟨source, [], sectionHeader.bytes ++ (ethernet.bytes ++ buffer), false⟩ }).Answers []
        (.error (.invalidFormat (.parse .bufferTooSmall))) := by
  have hfront : Written .little [sectionHeader, ethernet] := by decide +kernel
  have hlast := @BlockReader.answers_of_error
    { feed := ⟨source, [], buffer, false⟩, interfaces := [{ linkType := 1 }] } _ _ h
  have hsecond := @BlockReader.answers_of_buffered
    { feed := ⟨source, [], ethernet.bytes ++ buffer, false⟩ } _ ethernet _ _ rfl hfront.2.1 rfl hlast
  exact @BlockReader.answers_of_buffered { feed := ⟨source, [], _, false⟩ } _ sectionHeader _ _ rfl
    hfront.1 rfl hsecond

theorem answer_fullPieces : ∃ c, ofSource (fullPieces data) = .ok c ∧
    ∀ n, c.answer n = .error (.invalidFormat (.parse .bufferTooSmall)) := by
  obtain ⟨feed, -, hopened⟩ := (handsOut_fullPieces hdata).opened
  have hlength : sectionHeader.bytes.length = 28 := rfl
  have hlength' : ethernet.bytes.length = 20 := rfl
  have hcapacity : capacity = 65536 := rfl
  -- the first piece holds both blocks in front of the packet
  have hfeed := start_of_ofSource hopened
  rw [fullPieces, Feed.start_of_piece (by
    simp only [List.length_append, List.length_take]
    omega)] at hfeed
  obtain rfl := Except.ok.inj hfeed
  obtain ⟨g, hrefused⟩ := next_fullBlock hdata [(fullBlock data).bytes.drop 65532]
  exact ⟨_, hopened, answers_behind_blocks hrefused⟩

end

/-- A block that fits the buffer is refused, although nothing is wrong with it, its interface or its
time. -/
theorem full_block_refused :
    ∃ s blocks front p i, s.HandsOut blocks ∧ (∀ b ∈ blocks, b.bytes.length ≤ capacity) ∧
      contents blocks = front ++ [.enhanced p] ∧ (described front)[p.interface]? = some i ∧
      Ticks.Convertible p.ticks i.resolution ∧ ∃ c, ofSource s = .ok c ∧
        ∀ n, c.answer n = .error (.invalidFormat (.parse .bufferTooSmall)) := by
  have hdata : (List.replicate 65504 (0x5a : UInt8)).length = 65504 := List.length_replicate
  refine ⟨fullPieces (List.replicate 65504 0x5a), _, [.section .little, .interface _], _, _,
    handsOut_fullPieces hdata, ?_, rfl, rfl, by decide, answer_fullPieces hdata⟩
  rintro b (_ | ⟨_, _ | ⟨_, _ | ⟨_, ⟨⟩⟩⟩⟩)
  · decide
  · decide
  · exact Nat.le_of_eq (length_fullBlock hdata)

/-- An interface with a clock of 10 ^ 127 ticks a second. -/
def fastClock : StoredBlock where
  bytes := CaptureBlock.framed .little 1 ([1, 0, 0, 0, 0, 0, 0, 0] ++ [9, 0, 1, 0, 127, 0, 0, 0])
  block := .interface { linkType := 1, resolution := 127 }

/-- An interface of another link type with a clock of 1000 ticks a second, ten seconds behind. -/
def slowClock : StoredBlock where
  bytes := CaptureBlock.framed .little 1 ([101, 0, 0, 0, 0, 0, 0, 0] ++ [9, 0, 1, 0, 3, 0, 0, 0] ++
    [14, 0, 8, 0, 10, 0, 0, 0, 0, 0, 0, 0])
  block := .interface { linkType := 101, resolution := 3, offset := 10 }

def tickedPacket (interface : UInt8) : StoredBlock where
  bytes := CaptureBlock.framed .little 6 ([interface, 0, 0, 0, 0, 0, 0, 0, 0xdc, 5, 0, 0] ++
    [4, 0, 0, 0, 4, 0, 0, 0] ++ [1, 2, 3, 4])
  block := .enhanced
    { interface := interface.toNat, ticks := 1500, captured := 4, onWire := 4, data := [1, 2, 3, 4] }

def twoClocks : List StoredBlock :=
  [sectionHeader, fastClock, slowClock, tickedPacket 0, tickedPacket 1]

/-- `frames_of_blocks` where the clock of one of two interfaces is not supported. -/
theorem frames_of_blocks_twoClocks :
    ∃ s : ByteSource, s.HandsOut twoClocks ∧ (∀ b ∈ twoClocks, b.bytes.length ≤ capacity) ∧
      ∃ c, ofSource s = .ok c ∧
        c.answer 0 = .error (.invalidFormat (.unsupportedResolution 127 0)) ∧
        ∃ frame, c.answer 1 = .ok (some frame) ∧ frame.number = 2 ∧ frame.linkType = 101 ∧
          frame.timestamp = 11500000 := by
  have hs : ByteSource.HandsOut { pieces := [encode twoClocks] } twoClocks :=
    ⟨⟨rfl, by decide⟩, rfl, by decide +kernel, _, _, .little, rfl, rfl, by decide +kernel⟩
  have hsmall : ∀ b ∈ twoClocks, b.bytes.length < capacity := by decide
  have hfit : ∀ b ∈ twoClocks, b.bytes.length ≤ capacity := fun b hb => Nat.le_of_lt (hsmall b hb)
  obtain ⟨c, read, left, hopened, hread, hpackets, -, hend⟩ := frames_of_blocks hs hfit
  refine ⟨_, hs, hfit, c, hopened, ?_⟩
  rcases hend with ⟨rfl, -⟩ | ⟨b, more, rfl, hb, -⟩
  · rw [List.append_nil] at hread
    rw [← hread] at hpackets
    refine ⟨(hpackets (contents (twoClocks.take 3)) _ _ _ rfl rfl).2 (by decide +kernel), ?_⟩
    obtain ⟨frame, hframe, hreadAs⟩ :=
      (hpackets (contents (twoClocks.take 4)) _ _ _ rfl rfl).1 (by decide)
    exact ⟨frame, hframe, hreadAs.number_eq, hreadAs.linkType_eq,
      hreadAs.timestamp_eq (by decide) (by decide)⟩
  · -- no block is as large as the buffer
    have hmem : b ∈ twoClocks := hread ▸ List.mem_append_right _ List.mem_cons_self
    exact absurd hb (Nat.ne_of_lt (hsmall b hmem))

end Capture

end FrameIndex
