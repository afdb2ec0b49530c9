import FrameIndex.Proofs.Capture.ClassicFile
import FrameIndex.Proofs.Capture.Splitting
import Mathlib.Data.List.Infix

/-!
# Reading back what was written

A reader of a classic capture that was cut off anywhere behind its header reads the entries that are
complete, in their order, and then reports the end, or an error if the cut is inside an entry
(`Capture.frames_of_cut`). An entry that is larger than the buffer is never read, and ends a capture
that is otherwise whole (`Capture.frames_of_whole`); one that is exactly as large is read if it
comes into the buffer at once. Each entry is one step (`Feed.Ready.next_entry`), and the last step
meets a part of one (`Feed.Ready.next_cut`).
-/

namespace FrameIndex

open Feed (capacity)

/-! ## One entry -/

namespace Feed

variable {f : Feed} {order : ByteOrder} {e : ClassicEntry}

theorem Ready.next_entry (h : Ready (ClassicRecord.read order) f) {more : Bytes}
    (hunread : f.unread = e.encode order ++ more) :
    e.size ≤ capacity ∧ (∃ g, f.next (ClassicRecord.read order) = (g, .ok (some e.record)) ∧
        Ready (ClassicRecord.read order) g ∧ g.ended = false ∧ g.unread = more) ∨
      capacity ≤ e.size ∧
        ∃ g, f.next (ClassicRecord.read order) = (g, .error (.parse .bufferTooSmall)) := by
  have hread := ClassicEntry.read_encode order e []
  rw [List.append_nil] at hread
  obtain ⟨_, hread⟩ := hread
  have htaken := h.next_whole (ClassicRecord.stable order) hread hunread fun hwhole hfull => by
    -- the front of the size of the buffer is the entry
    have hlen : 16 ≤ (e.encode order).length := by
      simp only [ClassicEntry.length_encode, ClassicEntry.size, ClassicRecord.headerLength]
      omega
    have hcapacity : capacity = 65536 := rfl
    rw [ClassicRecord.IsWhole, hfull, Bytes.num_take (by omega), hunread,
      Bytes.num_append_left (by omega), (e.num_encode order).2.2.1] at hwhole
    rw [ClassicEntry.length_encode]
    exact Nat.le_of_eq hwhole
  rwa [ClassicEntry.length_encode] at htaken

theorem Ready.next_cut (h : Ready (ClassicRecord.read order) f) (hne : f.unread ≠ [])
    (hcut : f.unread <+: e.encode order) (hlt : f.unread.length < e.size) :
    ∃ g fault, (fault = .unexpectedEnd ∨ fault = .bufferTooSmall) ∧
      f.next (ClassicRecord.read order) = (g, .error (.parse fault)) := by
  cases hnext : f.next (ClassicRecord.read order) with
  | mk g answer =>
    obtain ⟨-, -, ⟨hwithin, -⟩ | ⟨-, -, rfl, -⟩⟩ := h.next (ClassicRecord.stable order) hnext
    · rw [ClassicEntry.settled_cut hcut hne hlt] at hwithin
      split_ifs at hwithin
      · obtain rfl := hwithin.eq_error nofun
        exact ⟨g, _, .inr rfl, rfl⟩
      · obtain rfl := hwithin.eq_error nofun
        exact ⟨g, _, .inl rfl, rfl⟩
    · exact ⟨g, _, .inr rfl, rfl⟩

end Feed

/-! ## All entries -/

namespace ClassicEntry

/-- The entries that are complete in a number of bytes, from the first on. -/
def completeIn : List ClassicEntry → Nat → List ClassicEntry
  | [], _ => []
  | e :: entries, n => if e.size ≤ n then e :: completeIn entries (n - e.size) else []

def totalSize : List ClassicEntry → Nat
  | [] => 0
  | e :: entries => e.size + totalSize entries

end ClassicEntry

open ClassicEntry (completeIn totalSize)

/-- How reading a number of bytes ends, behind the entries that were read of those that are complete
in them: at the end of the bytes, inside an entry, or in front of one that does not fit. -/
inductive Ending (n : Nat) (read left : List ClassicEntry) : Option CaptureFailure → Prop where
  | atEnd (hleft : left = []) (hn : n = totalSize read) : Ending n read left none
  | inside {fault : ParseFault} (hleft : left = []) (hn : totalSize read < n)
      (hfault : fault = .unexpectedEnd ∨ fault = .bufferTooSmall) :
      Ending n read left (some (.invalidFormat (.parse fault)))
  | tooLarge {e : ClassicEntry} {more : List ClassicEntry} (hleft : left = e :: more)
      (he : capacity ≤ e.size) :
      Ending n read left (some (.invalidFormat (.parse .bufferTooSmall)))

theorem Ending.cons {n : Nat} {e : ClassicEntry} {read left : List ClassicEntry}
    {stop : Option CaptureFailure} (h : Ending n read left stop) :
    Ending (e.size + n) (e :: read) left stop := by
  cases h with
  | atEnd hleft hn => exact .atEnd hleft (by rw [totalSize, hn])
  | inside hleft hn hfault => exact .inside hleft (by rw [totalSize]; omega) hfault
  | tooLarge hleft he => exact .tooLarge hleft he

namespace Capture

variable {c c' : Capture}

theorem frames_of_next {frame : Frame} (h : c.next = (c', .ok (some frame))) :
    c.frames = (frame :: c'.frames.1, c'.frames.2) := by
  rw [frames]
  split
  · simp_all
  · simp_all
  · rename_i hnext
    rw [h] at hnext
    cases hnext
    rfl

theorem frames_of_end (h : c.next = (c', .ok none)) : c.frames = ([], none) := by
  rw [frames]
  split <;> simp_all

theorem frames_of_error {e : CaptureFailure} (h : c.next = (c', .error e)) :
    c.frames = ([], some e) := by
  rw [frames]
  split <;> simp_all

end Capture

namespace ClassicFile

variable {file : ClassicFile} {feed feed' : Feed} {count : Nat}

/-- The reader of a file behind its header and a number of records. -/
def reader (file : ClassicFile) (feed : Feed) (count : Nat) : ClassicReader where
  feed
  header := file.readHeader
  entered := true
  count
  linkType := file.readHeader.linkType

theorem frames_of_taken {e : ClassicEntry}
    (h : feed.next (ClassicRecord.read file.order) = (feed', .ok (some e.record))) :
    (Capture.classic (file.reader feed count)).frames =
      (file.frame (count + 1) e :: (Capture.classic (file.reader feed' (count + 1))).frames.1,
        (Capture.classic (file.reader feed' (count + 1))).frames.2) := by
  refine Capture.frames_of_next ?_
  rw [Capture.next, @ClassicReader.next_of_entered (file.reader feed count) _ _ rfl h]
  rfl

theorem frames_of_nothing (hready : feed.Ready (ClassicRecord.read file.order))
    (hnil : feed.unread = []) : (Capture.classic (file.reader feed count)).frames = ([], none) := by
  obtain ⟨feed', h⟩ := hready.next_nil (ClassicRecord.stable _)
    (ClassicRecord.read_of_lt_header (by decide)) (by decide) hnil
  refine @Capture.frames_of_end _ (.classic (file.reader feed' count)) ?_
  rw [Capture.next, @ClassicReader.next_of_entered (file.reader feed count) _ _ rfl h]
  rfl

theorem frames_of_fault {fault : ParseFault}
    (h : feed.next (ClassicRecord.read file.order) = (feed', .error (.parse fault))) :
    (Capture.classic (file.reader feed count)).frames =
      ([], some (.invalidFormat (.parse fault))) := by
  refine @Capture.frames_of_error _ (.classic (file.reader feed' count)) _ ?_
  rw [Capture.next, @ClassicReader.next_of_entered (file.reader feed count) _ _ rfl h]
  rfl

/-- A reader behind the header reads the entries that are complete in what is left, up to one that
does not fit. -/
theorem frames_of_unread {entries : List ClassicEntry}
    (hready : feed.Ready (ClassicRecord.read file.order))
    (hunread : feed.unread <+: file.encodeEntries entries) :
    ∃ read left, completeIn entries feed.unread.length = read ++ left ∧
      (∀ e ∈ read, e.size ≤ capacity) ∧
      (Capture.classic (file.reader feed count)).frames.1 = file.frames count read ∧
      Ending feed.unread.length read left (Capture.classic (file.reader feed count)).frames.2 := by
  induction entries generalizing feed count with
  | nil =>
    have hnil : feed.unread = [] := List.prefix_nil.1 hunread
    rw [frames_of_nothing hready hnil, hnil]
    exact ⟨[], [], rfl, by simp, rfl, .atEnd rfl rfl⟩
  | cons e entries ih =>
    have hencode : file.encodeEntries (e :: entries) =
        e.encode file.order ++ file.encodeEntries entries := rfl
    rw [hencode] at hunread
    by_cases hsize : e.size ≤ feed.unread.length
    · -- the entry is complete
      obtain ⟨more, hmore⟩ : e.encode file.order <+: feed.unread :=
        List.prefix_of_prefix_length_le (List.prefix_append _ _) hunread (by simpa using hsize)
      have hlen : feed.unread.length = e.size + more.length := by
        rw [← hmore, List.length_append, ClassicEntry.length_encode]
      have hrest : more <+: file.encodeEntries entries := by
        rwa [← hmore, List.prefix_append_right_inj] at hunread
      have hcomplete : completeIn (e :: entries) feed.unread.length =
          e :: completeIn entries more.length := by
        rw [completeIn, if_pos hsize, hlen, Nat.add_sub_cancel_left]
      rw [hcomplete]
      rcases hready.next_entry hmore.symm with ⟨hfits, feed', hnext, hready', -, rfl⟩ |
        ⟨hlarge, feed', hnext⟩
      · obtain ⟨read, left, hread, hfit, hframes, hending⟩ := @ih feed' (count + 1) hready' hrest
        rw [frames_of_taken hnext, hlen, hread, hframes]
        refine ⟨e :: read, left, rfl, ?_, rfl, hending.cons⟩
        rintro e' (_ | ⟨_, he'⟩)
        · exact hfits
        · exact hfit e' he'
      · rw [frames_of_fault hnext]
        exact ⟨[], _, rfl, by simp, rfl, .tooLarge rfl hlarge⟩
    · -- the bytes end in the entry, or in front of it
      have hcut : feed.unread <+: e.encode file.order :=
        List.prefix_of_prefix_length_le hunread (List.prefix_append _ _) (by simp; omega)
      have hcomplete : completeIn (e :: entries) feed.unread.length = [] := if_neg hsize
      rw [hcomplete]
      by_cases hnil : feed.unread = []
      · rw [frames_of_nothing hready hnil, hnil]
        exact ⟨[], [], rfl, by simp, rfl, .atEnd rfl rfl⟩
      · obtain ⟨feed', fault, hfault, hnext⟩ :=
          hready.next_cut hnil hcut (Nat.lt_of_not_le hsize)
        rw [frames_of_fault hnext]
        exact ⟨[], [], rfl, by simp, rfl,
          .inside rfl (List.length_pos_iff.2 hnil) hfault⟩

/-! ## Whole captures -/

variable {s : ByteSource}

theorem length_encodeEntries (file : ClassicFile) (entries : List ClassicEntry) :
    (file.encodeEntries entries).length = totalSize entries := by
  induction entries with
  | nil => rfl
  | cons e entries ih =>
    have hencode : file.encodeEntries (e :: entries) =
        e.encode file.order ++ file.encodeEntries entries := rfl
    rw [hencode, List.length_append, ClassicEntry.length_encode, ih, totalSize]

theorem drop_encode (file : ClassicFile) :
    file.encode.drop ClassicHeader.length = file.encodeEntries file.entries := by
  rw [encode, ← length_header file, List.drop_left]

theorem length_encode (file : ClassicFile) :
    file.encode.length = ClassicHeader.length + totalSize file.entries := by
  rw [encode, List.length_append, length_header, length_encodeEntries]

theorem frames_enter (r : ClassicReader) :
    (Capture.classic r.enter).frames = (Capture.classic r).frames := by
  have hsame := Capture.next_enter r
  cases hnext : (Capture.classic r).next with
  | mk c answer =>
    rw [hnext] at hsame
    rcases answer with e | _ | frame
    · rw [Capture.frames_of_error hnext, Capture.frames_of_error hsame]
    · rw [Capture.frames_of_end hnext, Capture.frames_of_end hsame]
    · rw [Capture.frames_of_next hnext, Capture.frames_of_next hsame]

theorem exists_opened (hs : s.Steady) (hheader : ClassicHeader.length ≤ s.firstRead.length)
    (hcut : s.bytes <+: file.encode) :
    ∃ c feed, Capture.ofSource s = .ok c ∧
      c.frames = (Capture.classic (file.reader feed 0)).frames ∧
      feed.Ready (ClassicRecord.read file.order) ∧ feed.ended = false ∧
      feed.buffer = s.firstRead.drop ClassicHeader.length ∧
      feed.unread = s.bytes.drop ClassicHeader.length := by
  have hfirst : s.firstRead <+: file.encode := List.IsPrefix.trans s.firstRead_isPrefix hcut
  obtain ⟨rest, hrest⟩ : file.header <+: s.firstRead :=
    List.prefix_of_prefix_length_le (List.prefix_append _ _) hfirst (by rwa [length_header])
  have hread := ClassicHeader.read_append rest file.read_header
  rw [hrest] at hread
  obtain ⟨feed, hfresh, hopened⟩ := Capture.opens_classic hs hread
  refine ⟨_, { feed with buffer := feed.buffer.drop ClassicHeader.length }, hopened,
    (frames_enter _).symm, hfresh.ready_drop _, hfresh.ended_eq, ?_, ?_⟩
  · rw [hfresh.buffer_eq]
  · rw [Feed.unread_drop (by rwa [hfresh.buffer_eq]), hfresh.unread_eq]

theorem exists_frames (hs : s.Steady) (hheader : ClassicHeader.length ≤ s.firstRead.length)
    (hcut : s.bytes <+: file.encode) :
    ∃ c read left, Capture.ofSource s = .ok c ∧
      completeIn file.entries (s.bytes.length - ClassicHeader.length) = read ++ left ∧
      (∀ e ∈ read, e.size ≤ capacity) ∧ c.frames.1 = file.frames 0 read ∧
      Ending (s.bytes.length - ClassicHeader.length) read left c.frames.2 := by
  obtain ⟨c, feed, hopened, hframes, hready, -, -, hunread⟩ := exists_opened hs hheader hcut
  have hentries : feed.unread <+: file.encodeEntries file.entries := by
    rw [hunread, ← drop_encode]
    exact List.IsPrefix.drop hcut _
  obtain ⟨read, left, hread, hfit, hfirst, hending⟩ :=
    @frames_of_unread file _ 0 _ hready hentries
  rw [hunread, List.length_drop] at hread hending
  rw [← hframes] at hfirst hending
  exact ⟨c, read, left, hopened, hread, hfit, hfirst, hending⟩

theorem completeIn_isPrefix (entries : List ClassicEntry) (n : Nat) :
    completeIn entries n <+: entries := by
  induction entries generalizing n with
  | nil => exact List.prefix_refl _
  | cons e entries ih =>
    rw [completeIn]
    split
    · exact (List.prefix_cons_inj e).2 (ih _)
    · exact List.nil_prefix

theorem completeIn_totalSize (entries : List ClassicEntry) :
    completeIn entries (totalSize entries) = entries := by
  induction entries with
  | nil => rfl
  | cons e entries ih =>
    rw [completeIn, totalSize, if_pos (Nat.le_add_right _ _), Nat.add_sub_cancel_left, ih]

def inOnePiece (file : ClassicFile) : ByteSource := { pieces := [file.encode] }

theorem steady_inOnePiece (file : ClassicFile) : (inOnePiece file).Steady := by
  refine ⟨rfl, fun hmem => ?_⟩
  have hlen := file.length_encode
  rw [← List.mem_singleton.1 hmem] at hlen
  simp only [List.length_nil, ClassicHeader.length] at hlen
  omega

theorem bytes_inOnePiece (file : ClassicFile) : (inOnePiece file).bytes = file.encode := by
  simp [inOnePiece, ByteSource.bytes]

theorem header_inOnePiece (file : ClassicFile) :
    ClassicHeader.length ≤ (inOnePiece file).firstRead.length := by
  show ClassicHeader.length ≤ (file.encode.take capacity).length
  rw [List.length_take, file.length_encode]
  simp only [capacity, ClassicHeader.length]
  omega

variable {e : ClassicEntry} {more : List ClassicEntry}

theorem frames_of_larger (hs : s.Steady) (hheader : ClassicHeader.length ≤ s.firstRead.length)
    (hbytes : s.bytes = file.encode) (hentries : file.entries = e :: more)
    (he : capacity < e.size) :
    ∃ c, Capture.ofSource s = .ok c ∧
      c.frames = ([], some (.invalidFormat (.parse .bufferTooSmall))) := by
  obtain ⟨c, feed, hopened, hframes, hready, -, -, hunread⟩ :=
    @exists_opened file s hs hheader (by rw [hbytes])
  rw [hbytes, drop_encode, hentries] at hunread
  rcases hready.next_entry hunread with ⟨hfits, -⟩ | ⟨-, feed', hnext⟩
  · exact absurd hfits (Nat.not_le_of_lt he)
  · exact ⟨c, hopened, hframes.trans (frames_of_fault hnext)⟩

/-- The first entry is refused if it is exactly as large as the buffer, and the file comes in one
piece: the first read leaves 24 of its bytes behind. -/
theorem frames_of_full (hentries : file.entries = e :: more) (he : e.size = capacity) :
    ∃ c, Capture.ofSource (inOnePiece file) = .ok c ∧
      c.frames = ([], some (.invalidFormat (.parse .bufferTooSmall))) := by
  obtain ⟨c, feed, hopened, hframes, -, hended, hbuffer, -⟩ := @exists_opened file (inOnePiece file)
    (steady_inOnePiece file) (header_inOnePiece file) (by rw [bytes_inOnePiece])
  have hcapacity : capacity = 65536 := rfl
  have hfront : feed.buffer = (e.encode file.order).take (capacity - ClassicHeader.length) := by
    have hfirst : (inOnePiece file).firstRead = file.encode.take capacity := rfl
    have hencode : file.encodeEntries (e :: more) =
        e.encode file.order ++ file.encodeEntries more := rfl
    rw [hbuffer, hfirst, List.drop_take, drop_encode, hentries, hencode,
      List.take_append_of_le_length (by rw [ClassicEntry.length_encode]; omega)]
  have hlen : feed.buffer.length = 65512 := by
    rw [hfront, List.length_take, ClassicEntry.length_encode, he]
    rfl
  obtain ⟨missing, hcut, hmissing⟩ :=
    @ClassicEntry.read_cut file.order e _ (hfront ▸ List.take_prefix _ _) (by omega)
  have hnext := Feed.next_of_tooLarge hended hcut (by omega)
  exact ⟨c, hopened, hframes.trans (frames_of_fault hnext)⟩

def filled (n : Nat) (h : n < UInt32.size) : ClassicEntry where
  seconds := 0
  fraction := 0
  onWire := UInt32.ofNat n
  data := List.replicate n 0x5a
  small := by rwa [List.length_replicate]

def ethernetFile (snapLength : UInt32) (entries : List ClassicEntry) : ClassicFile where
  order := .little
  nanoseconds := false
  majorVersion := 2
  minorVersion := 4
  zone := 0
  accuracy := 0
  snapLength
  network := 1
  entries

theorem size_filled {n : Nat} (h : n < UInt32.size) : (filled n h).size = 16 + n := by
  simp [filled, ClassicEntry.size, ClassicRecord.headerLength]

end ClassicFile

namespace Capture

open ClassicFile

variable {file : ClassicFile} {s : ByteSource}

/-- **Reading back a capture that was cut off.** Let every entry fit the buffer. A capture of them
that was cut off anywhere behind its header is opened, and the frames that are read are those of the
entries that are complete, numbered from 1; then comes the end if the cut is behind an entry, and an
error otherwise. Only an entry that is exactly as large as the buffer may end the reading early. -/
theorem frames_of_cut (hs : s.Steady) (hheader : ClassicHeader.length ≤ s.firstRead.length)
    (hcut : s.bytes <+: file.encode) (hfit : ∀ e ∈ file.entries, e.size ≤ capacity) :
    ∃ c read left, ofSource s = .ok c ∧
      completeIn file.entries (s.bytes.length - ClassicHeader.length) = read ++ left ∧
      c.frames.1 = file.frames 0 read ∧
      (left = [] ∧ (c.frames.2 = none ↔ s.bytes.length = ClassicHeader.length + totalSize read) ∨
        ∃ e more, left = e :: more ∧ e.size = capacity ∧
          c.frames.2 = some (.invalidFormat (.parse .bufferTooSmall))) := by
  obtain ⟨c, read, left, hopened, hread, -, hframes, hending⟩ := exists_frames hs hheader hcut
  refine ⟨c, read, left, hopened, hread, hframes, ?_⟩
  have hlong : ClassicHeader.length ≤ s.bytes.length :=
    Nat.le_trans hheader s.firstRead_isPrefix.length_le
  generalize c.frames.2 = stop at hending ⊢
  cases hending with
  | atEnd hleft hn => exact .inl ⟨hleft, ⟨fun _ => by omega, fun _ => rfl⟩⟩
  | inside hleft hn hfault => exact .inl ⟨hleft, ⟨nofun, fun hlen => by omega⟩⟩
  | @tooLarge e more hleft he =>
    have hmem : e ∈ file.entries := by
      have hfront := completeIn_isPrefix file.entries (s.bytes.length - ClassicHeader.length)
      rw [hread, hleft] at hfront
      exact hfront.subset (List.mem_append_right _ List.mem_cons_self)
    exact .inr ⟨e, more, hleft, Nat.le_antisymm (hfit e hmem) he, rfl⟩

/-- A record that is exactly as large as the buffer. -/
def fullFile : ClassicFile := ethernetFile 65535 [filled 65520 (by decide)]

/-- It fits the buffer, and is not read. -/
theorem full_entry_refused :
    (∀ e ∈ fullFile.entries, e.size ≤ capacity) ∧ (inOnePiece fullFile).Steady ∧
      ClassicHeader.length ≤ (inOnePiece fullFile).firstRead.length ∧
      (inOnePiece fullFile).bytes = fullFile.encode ∧
      ∃ c, ofSource (inOnePiece fullFile) = .ok c ∧
        c.frames = ([], some (.invalidFormat (.parse .bufferTooSmall))) := by
  have hsize : (filled 65520 (by decide)).size = capacity := size_filled _
  refine ⟨fun e he => ?_, steady_inOnePiece _, header_inOnePiece _, bytes_inOnePiece _,
    frames_of_full rfl hsize⟩
  rw [List.mem_singleton.1 he, hsize]

def twoPackets : ClassicFile := ethernetFile 65535 [filled 2 (by decide), filled 3 (by decide)]

theorem frames_of_cut_twoPackets :
    ∃ s : ByteSource, s.Steady ∧ ClassicHeader.length ≤ s.firstRead.length ∧
      s.bytes <+: twoPackets.encode ∧ (∀ e ∈ twoPackets.entries, e.size ≤ capacity) ∧
      ∃ c, ofSource s = .ok c ∧ c.frames.1 = twoPackets.frames 0 [filled 2 (by decide)] ∧
        c.frames.2 ≠ none := by
  have hs : ByteSource.Steady { pieces := [twoPackets.encode.take 52] } := ⟨rfl, by decide⟩
  have hheader : ClassicHeader.length ≤
      (ByteSource.firstRead { pieces := [twoPackets.encode.take 52] }).length := by decide
  have hcut : ByteSource.bytes { pieces := [twoPackets.encode.take 52] } <+: twoPackets.encode := by
    simp only [ByteSource.bytes, List.flatten_cons, List.flatten_nil, List.append_nil]
    exact List.take_prefix _ _
  have hfit : ∀ e ∈ twoPackets.entries, e.size ≤ capacity := by decide
  obtain ⟨c, read, left, hopened, hread, hframes, hending⟩ := frames_of_cut hs hheader hcut hfit
  have hcomplete : completeIn twoPackets.entries
      ((ByteSource.bytes { pieces := [twoPackets.encode.take 52] }).length -
        ClassicHeader.length) = [filled 2 (by decide)] := rfl
  rw [hcomplete] at hread
  refine ⟨_, hs, hheader, hcut, hfit, c, hopened, ?_⟩
  rcases hending with ⟨rfl, hstop⟩ | ⟨e, more, rfl, he, -⟩
  · rw [List.append_nil] at hread
    rw [hframes, ← hread]
    refine ⟨rfl, fun hnone => ?_⟩
    rw [hstop, ← hread] at hnone
    exact absurd hnone (by decide)
  · -- the packet that is complete is not as large as the buffer
    have hmem : e ∈ [filled 2 (by decide)] := by
      rw [hread]
      exact List.mem_append_right _ List.mem_cons_self
    rw [List.mem_singleton.1 hmem, size_filled] at he
    exact absurd he (by decide)

/-- **Reading back a whole capture.** The frames of the entries are read in their order, and then
comes the end, unless an entry is at least as large as the buffer: one that is larger is never read,
and every later one neither. -/
theorem frames_of_whole (hs : s.Steady) (hheader : ClassicHeader.length ≤ s.firstRead.length)
    (hbytes : s.bytes = file.encode) :
    ∃ c read left, ofSource s = .ok c ∧ file.entries = read ++ left ∧
      (∀ e ∈ read, e.size ≤ capacity) ∧ c.frames.1 = file.frames 0 read ∧
      (left = [] ∧ c.frames.2 = none ∨
        ∃ e more, left = e :: more ∧ capacity ≤ e.size ∧
          c.frames.2 = some (.invalidFormat (.parse .bufferTooSmall))) := by
  obtain ⟨c, read, left, hopened, hread, hfit, hframes, hending⟩ :=
    @exists_frames file s hs hheader (by rw [hbytes])
  have hlen : s.bytes.length - ClassicHeader.length = totalSize file.entries := by
    rw [hbytes, length_encode, Nat.add_sub_cancel_left]
  rw [hlen, completeIn_totalSize] at hread
  rw [hlen] at hending
  refine ⟨c, read, left, hopened, hread, hfit, hframes, ?_⟩
  generalize c.frames.2 = stop at hending ⊢
  cases hending with
  | atEnd hleft hn => exact .inl ⟨hleft, rfl⟩
  | inside hleft hn hfault =>
    -- there is nothing behind the entries that the reading could end in
    rw [hread, hleft, List.append_nil] at hn
    exact absurd hn (Nat.lt_irrefl _)
  | @tooLarge e more hleft he => exact .inr ⟨e, more, hleft, he, rfl⟩

/-- A packet of 70000 bytes, which the header allows. -/
def jumboFile : ClassicFile := ethernetFile 262144 [filled 70000 (by decide)]

theorem jumbo_refused :
    jumboFile.RespectsSnapLength ∧ (inOnePiece jumboFile).Steady ∧
      ClassicHeader.length ≤ (inOnePiece jumboFile).firstRead.length ∧
      (inOnePiece jumboFile).bytes = jumboFile.encode ∧
      ∃ c, ofSource (inOnePiece jumboFile) = .ok c ∧
        c.frames = ([], some (.invalidFormat (.parse .bufferTooSmall))) := by
  have hsize : (filled 70000 (by decide)).size = 70016 := size_filled _
  have hlarge : capacity < (filled 70000 (by decide)).size := by
    rw [hsize]
    decide
  refine ⟨fun e he => ?_, steady_inOnePiece _, header_inOnePiece _, bytes_inOnePiece _,
    frames_of_larger (steady_inOnePiece _) (header_inOnePiece _) (bytes_inOnePiece _) rfl hlarge⟩
  rw [List.mem_singleton.1 he]
  show (List.replicate 70000 _).length ≤ 262144
  rw [List.length_replicate]
  decide

theorem frames_of_whole_twoPackets :
    (inOnePiece twoPackets).Steady ∧
      ClassicHeader.length ≤ (inOnePiece twoPackets).firstRead.length ∧
      (inOnePiece twoPackets).bytes = twoPackets.encode ∧
      ∃ c, ofSource (inOnePiece twoPackets) = .ok c ∧
        c.frames = (twoPackets.frames 0 twoPackets.entries, none) := by
  have hs := steady_inOnePiece twoPackets
  have hheader := header_inOnePiece twoPackets
  have hbytes := bytes_inOnePiece twoPackets
  obtain ⟨c, read, left, hopened, hentries, -, hframes, hending⟩ :=
    frames_of_whole hs hheader hbytes
  refine ⟨hs, hheader, hbytes, c, hopened, ?_⟩
  rcases hending with ⟨rfl, hstop⟩ | ⟨e, more, rfl, he, -⟩
  · rw [List.append_nil] at hentries
    rw [hentries, ← hframes, ← hstop]
  · -- neither packet is as large as the buffer
    have hmem : e ∈ twoPackets.entries := by
      rw [hentries]
      exact List.mem_append_right _ List.mem_cons_self
    have hsmall : ∀ e ∈ twoPackets.entries, e.size < capacity := by decide
    exact absurd he (Nat.not_le_of_lt (hsmall e hmem))

end Capture

end FrameIndex
