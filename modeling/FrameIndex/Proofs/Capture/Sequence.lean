import FrameIndex.Proofs.Capture.Splitting

/-!
# Blocks one after another

The blocks of a capture stand one behind another, each as it is read in the byte order of its
section (`StoredBlock.Written`). A reader takes them one at a time (`Feed.Ready.next_stored`), and
what it answers is settled by those that it has taken: an answer for each packet among them, and
then, for ever, the end, or the fault of a block that the buffer cannot hold
(`BlockReader.exists_answers`). A capture of blocks is opened if the first piece has its first
section header (`ByteSource.HandsOut.opened`).
-/

namespace FrameIndex

open Feed (capacity)

def CaptureBlock.orderBehind (order : ByteOrder) : CaptureBlock → ByteOrder
  | .section order' => order'
  | _ => order

/-- The bytes of a block, and what they hold. -/
structure StoredBlock where
  bytes : Bytes
  block : CaptureBlock

namespace StoredBlock

/-- The bytes are those of the block, from the first to the last. -/
def IsIn (order : ByteOrder) (b : StoredBlock) : Prop :=
  ∃ shorter, CaptureBlock.read order b.bytes = .whole b.block [] shorter

/-- Blocks one behind another, each in the byte order of its section. -/
def Written : ByteOrder → List StoredBlock → Prop
  | _, [] => True
  | order, b :: blocks => b.IsIn order ∧ Written (b.block.orderBehind order) blocks

def encode (blocks : List StoredBlock) : Bytes := blocks.flatMap bytes

def contents (blocks : List StoredBlock) : List CaptureBlock := blocks.map block

def onlyHolds {α : Type} [DecidableEq α] {input : Bytes} (value : α) : Item α input → Bool
  | .whole v rest _ => v = value && rest.isEmpty
  | _ => false

theorem isIn_iff {order : ByteOrder} {b : StoredBlock} :
    b.IsIn order ↔ onlyHolds b.block (CaptureBlock.read order b.bytes) = true := by
  constructor
  · rintro ⟨shorter, h⟩
    rw [h]
    simp [onlyHolds]
  · intro h
    cases hread : CaptureBlock.read order b.bytes with
    | whole v rest shorter =>
      rw [hread] at h
      simp only [onlyHolds, Bool.and_eq_true, decide_eq_true_eq, List.isEmpty_iff] at h
      obtain ⟨rfl, rfl⟩ := h
      exact ⟨shorter, hread⟩
    | cutOff missing =>
      rw [hread] at h
      cases h
    | faulty fault =>
      rw [hread] at h
      cases h

instance decidableIsIn (order : ByteOrder) (b : StoredBlock) : Decidable (b.IsIn order) :=
  decidable_of_iff _ isIn_iff.symm

instance decidableWritten : (order : ByteOrder) → (blocks : List StoredBlock) →
    Decidable (Written order blocks)
  | _, [] => instDecidableTrue
  | order, b :: blocks =>
    have := decidableWritten (b.block.orderBehind order) blocks
    inferInstanceAs (Decidable (b.IsIn order ∧ Written (b.block.orderBehind order) blocks))

theorem contents_append (front behind : List StoredBlock) :
    contents (front ++ behind) = contents front ++ contents behind :=
  List.map_append

theorem IsIn.isWhole {order : ByteOrder} {b : StoredBlock} (h : b.IsIn order) :
    ∃ order' kind, CaptureBlock.IsWhole order order' kind b.bytes ∧
      CaptureBlock.Means order' kind (CaptureBlock.body b.bytes) b.block := by
  obtain ⟨_, hread⟩ := h
  obtain ⟨order', kind, bs, hbytes, hwhole, hmeans⟩ := CaptureBlock.of_read hread
  rw [List.append_nil] at hbytes
  exact ⟨order', kind, hbytes ▸ hwhole, hbytes ▸ hmeans⟩

end StoredBlock

open StoredBlock (Written encode contents)

/-! ## Writing a block -/

namespace CaptureBlock

open Bytes (write)

/-- The bytes of a block of a type around a body. -/
def framed (order : ByteOrder) (type : Nat) (body : Bytes) : Bytes :=
  write order 4 type ++ (write order 4 (body.length + 12) ++
    (body ++ write order 4 (body.length + 12)))

variable {order : ByteOrder} {type : Nat} {body : Bytes} {kind : BlockKind} {block : CaptureBlock}

@[simp] theorem length_framed : (framed order type body).length = body.length + 12 := by
  simp only [framed, List.length_append, Bytes.length_write]
  omega

theorem num_framed_type (h : type < UInt32.size) : (framed order type body).num order 0 4 = type :=
  (Bytes.num_write_append order 4 type _).trans (Nat.mod_eq_of_lt h)

theorem num_framed_length (h : body.length + 12 < UInt32.size) :
    (framed order type body).num order 4 4 = body.length + 12 := by
  rw [framed, Bytes.num_append_of_le (by simp), Bytes.length_write, Bytes.num_write_append]
  exact Nat.mod_eq_of_lt h

theorem num_framed_trailer (h : body.length + 12 < UInt32.size) :
    (framed order type body).num order (body.length + 8) 4 = body.length + 12 := by
  have htrailer := Bytes.num_write_append order 4 (body.length + 12) []
  rw [List.append_nil] at htrailer
  rw [framed, Bytes.num_append_of_le (by simp), Bytes.num_append_of_le (by simp),
    Bytes.num_append_of_le (by simp)]
  simp only [Bytes.length_write]
  rw [show body.length + 8 - 4 - 4 - body.length = 0 by omega, htrailer]
  exact Nat.mod_eq_of_lt h

theorem slice_framed : (framed order type body).slice 8 body.length = body := by
  rw [framed, Bytes.slice_append_of_le (by simp), Bytes.slice_append_of_le (by simp)]
  simp [Bytes.slice]

theorem isIn_framed (htype : type < UInt32.size) (hkind : BlockKind.ofType type = kind)
    (hne : kind ≠ .section) (hmin : kind.minLength ≤ body.length + 12)
    (hlength : body.length + 12 < UInt32.size)
    (hbody : ofBody order kind (body.length + 12) (body.length + 12) body = .ok block) :
    StoredBlock.IsIn order ⟨framed order type body, block⟩ := by
  have hnum : (framed order type body).num order 4 4 = body.length + 12 := num_framed_length hlength
  have hread : bodyRead order kind (framed order type body) = .ok block := by
    rw [bodyRead, hnum]
    simp only [Nat.add_sub_cancel, Nat.reduceSubDiff]
    rw [num_framed_trailer hlength, slice_framed, hbody]
  have hend : (framed order type body).num order 4 4 = (framed order type body).length :=
    hnum.trans length_framed.symm
  have hwhole := (readBody_of_le (by rwa [hnum]) (Nat.le_of_eq hend)).1 block hread
  have hlong : 4 ≤ (framed order type body).length := by
    rw [length_framed]
    omega
  rw [hend, List.drop_length,
    ← read_of_ne_section hlong (by rw [num_framed_type htype, hkind]) hne] at hwhole
  exact hwhole

/-- How much a part of a block lacks. The total length behind the body is missed last. -/
theorem IsWhole.read_part {before : ByteOrder} {bs part : Bytes}
    (h : IsWhole before order kind bs) (hkind : kind ≠ .section) (hpart : part <+: bs)
    (hmin : kind.minLength ≤ part.length) (hlt : part.length < bs.length) :
    ∃ missing, read before part = .cutOff missing ∧
      part.length + missing = if part.length < bs.length - 4 then bs.length - 4 else bs.length := by
  obtain rfl := h.kept hkind
  have h12 := kind.le_minLength
  obtain ⟨more, rfl⟩ := hpart
  have htype : BlockKind.ofType (part.num order 0 4) = kind := by
    rw [← @Bytes.num_append_left order part more 0 4 (by omega), h.type_eq]
  have hlength : part.num order 4 4 = (part ++ more).length := by
    rw [← @Bytes.num_append_left order part more 4 4 (by omega), h.length_eq]
  rw [read_of_ne_section (by omega) htype hkind,
    readBody_of_lt hmin (by rw [hlength]; exact h.minLength_le) (by rwa [hlength]), hlength]
  split
  · exact ⟨_, rfl, by omega⟩
  · exact ⟨_, rfl, by omega⟩

end CaptureBlock

/-! ## One block -/

theorem Feed.Ready.next_stored {f : Feed} {order : ByteOrder} {b : StoredBlock} {more : Bytes}
    (h : f.Ready (CaptureBlock.read order)) (hb : b.IsIn order)
    (hunread : f.unread = b.bytes ++ more) :
    b.bytes.length ≤ capacity ∧ (∃ g, f.next (CaptureBlock.read order) = (g, .ok (some b.block)) ∧
        g.Ready (CaptureBlock.read order) ∧ g.ended = false ∧ g.unread = more) ∨
      capacity ≤ b.bytes.length ∧
        ∃ g, f.next (CaptureBlock.read order) = (g, .error (.parse .bufferTooSmall)) := by
  obtain ⟨order', kind, hwhole, -⟩ := hb.isWhole
  obtain ⟨_, hread⟩ := hb
  refine h.next_whole (CaptureBlock.stable order) hread hunread ?_
  rintro ⟨order'', kind', hfront⟩ hfull
  -- the front of the size of the buffer is the block
  have hlen := hwhole.length_unique hfront
    (hunread.symm.trans (List.take_append_drop capacity f.unread).symm)
  exact Nat.le_of_eq (hlen.trans hfull).symm

theorem Feed.next_buffered {f : Feed} {order : ByteOrder} {b : StoredBlock} {more : Bytes}
    (hended : f.ended = false) (hb : b.IsIn order) (hbuffer : f.buffer = b.bytes ++ more) :
    f.next (CaptureBlock.read order) = ({ f with buffer := more }, .ok (some b.block)) := by
  obtain ⟨_, hread⟩ := hb
  have hwhole := (CaptureBlock.stable order).whole more hread
  rw [← hbuffer] at hwhole
  obtain ⟨_, hwhole⟩ := hwhole
  exact Feed.next_of_whole hended hwhole

namespace Capture

/-- The answers come one after another, and then the last one for ever. -/
def Answers (c : Capture) (outcomes : List (Except CaptureFailure Frame))
    (stop : Except CaptureFailure (Option Frame)) : Prop :=
  ∀ n, c.answer n = outcomes[n]?.elim stop (Except.map some)

end Capture

namespace BlockReader

variable {r : BlockReader} {feed : Feed} {stop : Except CaptureFailure (Option Frame)}

theorem answers_of_error {fault : FeedFault}
    (h : r.feed.next (CaptureBlock.read r.order) = (feed, .error fault)) :
    (Capture.blocks r).Answers [] (.error (.invalidFormat fault.toFormatFault)) := by
  intro n
  show (Capture.blocks r).answer n = _
  induction n generalizing r with
  | zero =>
    rw [Capture.answer, Capture.next, next_of_error h]
    rfl
  | succ n ih =>
    rw [Capture.answer, Capture.next, next_of_error h]
    exact @ih { r with feed } (Feed.next_again h (by simp))

theorem answers_of_end (h : r.feed.next (CaptureBlock.read r.order) = (feed, .ok none)) :
    (Capture.blocks r).Answers [] (.ok none) := by
  intro n
  show (Capture.blocks r).answer n = _
  induction n generalizing r with
  | zero =>
    rw [Capture.answer, Capture.next, next_of_end h]
    rfl
  | succ n ih =>
    rw [Capture.answer, Capture.next, next_of_end h]
    exact @ih { r with feed } (Feed.next_again h (by simp))

theorem answers_of_block {block : CaptureBlock} {outcomes : List (Except CaptureFailure Frame)}
    (h : r.feed.next (CaptureBlock.read r.order) = (feed, .ok (some block)))
    (hafter : (Capture.blocks { (r.absorb block).1 with feed }).Answers outcomes stop) :
    (Capture.blocks r).Answers ((r.absorb block).2.toList ++ outcomes) stop := by
  have hnext := next_of_block h
  rw [absorb_withFeed] at hnext
  intro n
  cases houtcome : (r.absorb block).2 with
  | none =>
    rw [houtcome] at hnext
    have hsame : (Capture.blocks r).next =
        (Capture.blocks { (r.absorb block).1 with feed }).next := by
      rw [Capture.next, hnext, Capture.next]
    have hanswer : (Capture.blocks r).answer n =
        (Capture.blocks { (r.absorb block).1 with feed }).answer n := by
      cases n with
      | zero => rw [Capture.answer, hsame, Capture.answer]
      | succ n => rw [Capture.answer, hsame, Capture.answer]
    rw [hanswer, hafter n]
    rfl
  | some outcome =>
    rw [houtcome] at hnext
    cases n with
    | zero =>
      rw [Capture.answer, Capture.next, hnext]
      rfl
    | succ n =>
      rw [Capture.answer, Capture.next, hnext]
      exact hafter n

theorem answers_of_buffered {b : StoredBlock} {more : Bytes}
    {outcomes : List (Except CaptureFailure Frame)} (hended : r.feed.ended = false)
    (hb : b.IsIn r.order) (hbuffer : r.feed.buffer = b.bytes ++ more)
    (hafter : (Capture.blocks { (r.absorb b.block).1 with
      feed := { r.feed with buffer := more } }).Answers outcomes stop) :
    (Capture.blocks r).Answers ((r.absorb b.block).2.toList ++ outcomes) stop :=
  answers_of_block (Feed.next_buffered hended hb hbuffer) hafter

/-! ## All blocks -/

def outcomes (r : BlockReader) : List CaptureBlock → List (Except CaptureFailure Frame)
  | [] => []
  | block :: blocks => (r.absorb block).2.toList ++ (r.absorb block).1.outcomes blocks

def absorbAll (r : BlockReader) (blocks : List CaptureBlock) : BlockReader :=
  blocks.foldl (fun r block => (r.absorb block).1) r

theorem outcomes_withFeed (r : BlockReader) (feed : Feed) (blocks : List CaptureBlock) :
    ({ r with feed } : BlockReader).outcomes blocks = r.outcomes blocks := by
  induction blocks generalizing r with
  | nil => rfl
  | cons block blocks ih => rw [outcomes, absorb_withFeed, ih, outcomes]

theorem outcomes_start (feed : Feed) (blocks : List CaptureBlock) :
    ({ feed } : BlockReader).outcomes blocks =
      ({ feed := ⟨{ pieces := [] }, [], [], false⟩ } : BlockReader).outcomes blocks :=
  outcomes_withFeed { feed := ⟨{ pieces := [] }, [], [], false⟩ } feed blocks

theorem outcomes_append (r : BlockReader) (front behind : List CaptureBlock) :
    r.outcomes (front ++ behind) = r.outcomes front ++ (r.absorbAll front).outcomes behind := by
  induction front generalizing r with
  | nil => rfl
  | cons block front ih =>
    rw [List.cons_append, outcomes, ih, outcomes, List.append_assoc]
    rfl

theorem order_absorb (r : BlockReader) (block : CaptureBlock) :
    (r.absorb block).1.order = block.orderBehind r.order := by
  cases block <;> rfl

/-- Where a reader stops: at the end, or in front of a block that does not fit. -/
inductive Stops (left : List StoredBlock) : Except CaptureFailure (Option Frame) → Prop where
  | atEnd (h : left = []) : Stops left (.ok none)
  | tooLarge {b : StoredBlock} {more : List StoredBlock} (h : left = b :: more)
      (hb : capacity ≤ b.bytes.length) :
      Stops left (.error (.invalidFormat (.parse .bufferTooSmall)))

theorem Stops.ne_frame {left : List StoredBlock} (h : Stops left stop) (frame : Frame) :
    stop ≠ .ok (some frame) := by
  cases h <;> simp

/-- **What a reader answers is settled by the blocks that it has taken**: those in front of one that
does not fit. -/
theorem exists_answers {blocks : List StoredBlock} (hready : r.feed.Ready (CaptureBlock.read r.order))
    (hwritten : Written r.order blocks) (hunread : r.feed.unread = encode blocks) :
    ∃ taken left stop, blocks = taken ++ left ∧ (∀ b ∈ taken, b.bytes.length ≤ capacity) ∧
      Stops left stop ∧ (Capture.blocks r).Answers (r.outcomes (contents taken)) stop := by
  induction blocks generalizing r with
  | nil =>
    have hnil : CaptureBlock.read r.order [] = .cutOff 4 := rfl
    obtain ⟨feed, hnext⟩ := hready.next_nil (CaptureBlock.stable _) hnil (by decide) hunread
    exact ⟨[], [], _, rfl, by simp, .atEnd rfl, answers_of_end hnext⟩
  | cons b blocks ih =>
    obtain ⟨hb, hblocks⟩ := hwritten
    rcases hready.next_stored hb hunread with ⟨hfits, feed, hnext, hready', hended, hleft⟩ |
      ⟨hlarge, feed, hnext⟩
    · obtain ⟨taken, left, stop, rfl, hfit, hstops, hanswers⟩ :=
        @ih { (r.absorb b.block).1 with feed } (hready'.of_not_ended hended)
          (by rwa [← order_absorb] at hblocks) hleft
      rw [outcomes_withFeed] at hanswers
      refine ⟨b :: taken, left, stop, rfl, ?_, hstops, answers_of_block hnext hanswers⟩
      rintro b' (_ | ⟨_, hb'⟩)
      · exact hfits
      · exact hfit b' hb'
    · exact ⟨[], _, _, rfl, by simp, .tooLarge rfl hlarge, answers_of_error hnext⟩

end BlockReader

/-! ## Captures of blocks -/

/-- The source hands out blocks, and with its first piece the first of them, a section header. -/
structure ByteSource.HandsOut (s : ByteSource) (blocks : List StoredBlock) : Prop where
  steady : s.Steady
  bytes_eq : s.bytes = encode blocks
  written : Written .little blocks
  opening : ∃ header rest order, blocks = header :: rest ∧ header.block = .section order ∧
    header.bytes.length ≤ s.firstRead.length

theorem BlockKind.ofType_eq_section {type : Nat} (h : ofType type = .section) :
    type = 0x0a0d0d0a := by
  unfold ofType at h
  split at h <;> first | rfl | cases h

theorem StoredBlock.IsIn.magic {header : StoredBlock} {order : ByteOrder}
    (h : header.IsIn .little) (hsection : header.block = .section order) :
    header.bytes.take 4 = Capture.blockMagic ∧ ∃ shorter,
      CaptureBlock.readSection header.bytes = .whole header.block [] shorter := by
  obtain ⟨order', kind, hwhole, hmeans⟩ := h.isWhole
  rw [hsection] at hmeans
  obtain ⟨rfl, -⟩ := hmeans
  have hlen : 28 ≤ header.bytes.length := hwhole.minLength_le
  refine ⟨?_, ?_⟩
  · refine Bytes.eq_of_ofLE_eq ?_ (BlockKind.ofType_eq_section hwhole.type_eq)
    rw [List.length_take, Nat.min_eq_left (by omega)]
    rfl
  · obtain ⟨shorter, hread⟩ := h
    rw [CaptureBlock.read_of_section (by omega) hwhole.type_eq] at hread
    exact ⟨shorter, hread⟩

theorem Capture.start_of_ofSource {s : ByteSource} {r : BlockReader}
    (h : ofSource s = .ok (.blocks r)) : Feed.start s = .ok r.feed := by
  unfold ofSource at h
  split at h
  · cases h
  · rename_i feed hstart
    simp only at h
    split_ifs at h
    · split at h <;> cases h
    · split at h
      · cases h
      · cases h
      · cases h
        exact hstart

theorem ByteSource.HandsOut.opened {s : ByteSource} {blocks : List StoredBlock}
    (h : s.HandsOut blocks) :
    ∃ feed, Feed.Fresh s feed ∧ Capture.ofSource s = .ok (.blocks { feed }) := by
  obtain ⟨header, rest, order, rfl, hsection, hfirst⟩ := h.opening
  obtain ⟨hmagic, hread⟩ := h.written.1.magic hsection
  have hencode : s.bytes = header.bytes ++ encode rest := h.bytes_eq
  obtain ⟨more, hmore⟩ : header.bytes <+: s.firstRead :=
    List.prefix_of_prefix_length_le (hencode ▸ List.prefix_append _ _) s.firstRead_isPrefix hfirst
  obtain ⟨_, hread⟩ := hread
  have hsectionRead := CaptureBlock.stable_readSection.whole more hread
  rw [hmore] at hsectionRead
  obtain ⟨_, hsectionRead⟩ := hsectionRead
  have hlen : 4 ≤ header.bytes.length := by
    have := congrArg List.length hmagic
    simp only [List.length_take, Capture.blockMagic, List.length_cons, List.length_nil] at this
    omega
  have hfront : s.firstRead.take 4 = Capture.blockMagic := by
    rw [← hmore, List.take_append_of_le_length hlen, hmagic]
  obtain ⟨c, hopened⟩ := Capture.opens_blocks h.steady hfront hsectionRead
  obtain ⟨feed, hfresh, ⟨classic, hclassic, -⟩ | ⟨-, -, rfl⟩⟩ :=
    Capture.of_ofSource h.steady hopened
  · -- no classic capture begins like a section header
    refine absurd hclassic ?_
    rw [← List.append_nil s.firstRead]
    exact Capture.read_ne_ok [] hfront classic
  · exact ⟨feed, hfresh, hopened⟩

theorem Capture.Answers.outcome {c : Capture} {outcomes : List (Except CaptureFailure Frame)}
    {left : List StoredBlock} {stop : Except CaptureFailure (Option Frame)}
    (h : c.Answers outcomes stop) (hstops : BlockReader.Stops left stop) {n : Nat} {frame : Frame}
    (hn : c.answer n = .ok (some frame)) : outcomes[n]? = some (.ok frame) := by
  rw [h n] at hn
  cases houtcome : outcomes[n]? with
  | none =>
    rw [houtcome] at hn
    exact absurd hn (hstops.ne_frame frame)
  | some outcome =>
    rw [houtcome] at hn
    cases outcome with
    | error e => cases hn
    | ok f =>
      cases hn
      rfl

theorem ByteSource.HandsOut.exists_answers {s : ByteSource} {blocks : List StoredBlock}
    (h : s.HandsOut blocks) :
    ∃ c feed taken left stop, Capture.ofSource s = .ok c ∧ blocks = taken ++ left ∧
      (∀ b ∈ taken, b.bytes.length ≤ capacity) ∧ BlockReader.Stops left stop ∧
      c.Answers (({ feed } : BlockReader).outcomes (contents taken)) stop := by
  obtain ⟨feed, hfresh, hopened⟩ := h.opened
  obtain ⟨taken, left, stop, hblocks, hfit, hstops, hanswers⟩ :=
    @BlockReader.exists_answers { feed } blocks hfresh.ready h.written
      (hfresh.unread_eq.trans h.bytes_eq)
  exact ⟨_, feed, taken, left, stop, hopened, hblocks, hfit, hstops, hanswers⟩

/-- A frame is that of its place among all packets, be they all taken or not. All are if no block is
as large as the buffer. -/
theorem ByteSource.HandsOut.exists_outcomes {s : ByteSource} {blocks : List StoredBlock}
    (h : s.HandsOut blocks) :
    ∃ c feed, Capture.ofSource s = .ok c ∧
      (∀ n frame, c.answer n = .ok (some frame) →
        (({ feed } : BlockReader).outcomes (contents blocks))[n]? = some (.ok frame)) ∧
      ((∀ b ∈ blocks, b.bytes.length < capacity) →
        c.Answers (({ feed } : BlockReader).outcomes (contents blocks)) (.ok none)) := by
  obtain ⟨c, feed, taken, left, stop, hopened, rfl, -, hstops, hanswers⟩ := h.exists_answers
  refine ⟨c, feed, hopened, fun n frame hn => ?_, fun hsmall => ?_⟩
  · have houtcome := hanswers.outcome hstops hn
    obtain ⟨hlt, -⟩ := List.getElem?_eq_some_iff.1 houtcome
    rw [StoredBlock.contents_append, BlockReader.outcomes_append, List.getElem?_append_left hlt,
      houtcome]
  · cases hstops with
    | atEnd hleft =>
      rw [hleft, List.append_nil]
      exact hanswers
    | @tooLarge b more hleft hb =>
      have hmem : b ∈ taken ++ left := hleft ▸ List.mem_append_right _ List.mem_cons_self
      exact absurd hb (Nat.not_le_of_lt (hsmall b hmem))

end FrameIndex
