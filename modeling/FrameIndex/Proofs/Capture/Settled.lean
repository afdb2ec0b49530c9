import FrameIndex.Proofs.Capture.Unread

/-!
# What a feed answers is settled by its bytes

Let a source neither fail nor hand out an empty piece (`ByteSource.Steady`), and let items stay what
they are when more bytes follow them (`Feed.Stable`). Then what a feed answers, and what is left of
its bytes, is settled by the bytes themselves, however they come (`Feed.Ready.next`). An item that
is as large as the buffer is the one exception: it is taken if it comes into the buffer whole, and
refused if the feed sees that it is incomplete.
-/

namespace FrameIndex

/-! ## Sources that do not fail -/

namespace ByteSource

/-- The source does not fail, and a read returns something as long as anything is left. -/
structure Steady (s : ByteSource) : Prop where
  failure_eq : s.failure = none
  nil_notMem : [] ∉ s.pieces

def firstRead (s : ByteSource) : Bytes := (s.pieces.headD []).take Feed.capacity

theorem firstRead_isPrefix (s : ByteSource) : s.firstRead <+: s.bytes := by
  obtain ⟨pieces, failure⟩ := s
  cases pieces with
  | nil => simp [firstRead]
  | cons piece rest =>
    exact List.IsPrefix.trans (List.take_prefix _ _) (List.prefix_append piece rest.flatten)

theorem Steady.exists_read {s : ByteSource} (h : s.Steady) :
    ∃ s', s.read Feed.capacity = .ok (s.firstRead, s') ∧ s'.Steady ∧
      (s.firstRead = [] → s'.bytes = []) := by
  obtain ⟨pieces, failure⟩ := s
  obtain ⟨rfl, hpieces⟩ := h
  cases pieces with
  | nil => exact ⟨_, rfl, ⟨rfl, hpieces⟩, fun _ => rfl⟩
  | cons piece rest =>
    have hpiece : piece ≠ [] := fun he => hpieces (he ▸ List.mem_cons_self)
    have hrest : [] ∉ rest := fun hmem => hpieces (List.mem_cons_of_mem _ hmem)
    refine ⟨_, rfl, ⟨rfl, ?_⟩, fun hfirst => ?_⟩
    · by_cases hleft : (piece.drop Feed.capacity).isEmpty = true
      · rw [if_pos hleft]
        exact hrest
      · rw [if_neg hleft, List.mem_cons, not_or]
        exact ⟨fun he => hleft (by rw [← he]; rfl), hrest⟩
    · have : piece.take Feed.capacity = [] := hfirst
      rw [List.take_eq_nil_iff] at this
      exact absurd this (by simp [Feed.capacity, hpiece])

end ByteSource

/-! ## Items that stay what they are -/

/-- The faults are the same, but for how many bytes the second quotes. -/
def ParseFault.Within (fault more : ParseFault) : Prop :=
  fault = more ∨ ∃ input input', fault = .badLength input ∧ more = .badLength input' ∧
    input <+: input'

/-- The faults are the same, but for how many bytes each quotes. -/
def ParseFault.Alike (fault fault' : ParseFault) : Prop :=
  fault = fault' ∨ ∃ input input', fault = .badLength input ∧ fault' = .badLength input' ∧
    (input <+: input' ∨ input' <+: input)

theorem ParseFault.Within.alike {fault fault' more : ParseFault} (h : fault.Within more)
    (h' : fault'.Within more) : fault.Alike fault' := by
  rcases h with rfl | ⟨input, quoted, rfl, rfl, hinput⟩
  · rcases h' with rfl | ⟨input', quoted, rfl, rfl, hinput'⟩
    · exact .inl rfl
    · exact .inr ⟨quoted, input', rfl, rfl, .inr hinput'⟩
  · rcases h' with rfl | ⟨input', quoted', rfl, hquoted, hinput'⟩
    · exact .inr ⟨input, quoted, rfl, rfl, .inl hinput⟩
    · cases hquoted
      exact .inr ⟨input, input', rfl, rfl, List.prefix_or_prefix_of_prefix hinput hinput'⟩

namespace Feed

variable {α : Type} {parse : (input : Bytes) → Item α input} {isItem : Bytes → Prop}

/-- What stands at the front does not change when more bytes follow. An item that is cut off, and
too large for the buffer, stays so until the buffer is full, unless it is as large as the buffer. -/
structure Stable (parse : (input : Bytes) → Item α input) (isItem : Bytes → Prop) : Prop where
  whole {input rest : Bytes} {value : α} {shorter : rest.length < input.length} (more : Bytes)
    (h : parse input = .whole value rest shorter) :
    ∃ shorter', parse (input ++ more) = .whole value (rest ++ more) shorter'
  faulty {input : Bytes} {fault : ParseFault} (more : Bytes) (h : parse input = .faulty fault) :
    ∃ fault', parse (input ++ more) = .faulty fault' ∧ fault.Within fault'
  cutOff {input : Bytes} {missing : Nat} (more : Bytes) (h : parse input = .cutOff missing)
    (hlarge : capacity ≤ input.length + missing) (hmore : (input ++ more).length ≤ capacity) :
    isItem (input ++ more) ∧ (input ++ more).length = capacity ∨
      ∃ missing', parse (input ++ more) = .cutOff missing' ∧
        capacity ≤ (input ++ more).length + missing'

theorem stable_faulty (fault : ParseFault) :
    Stable (fun input => (.faulty fault : Item α input)) isItem where
  whole _ h := by cases h
  faulty _ h := by
    cases h
    exact ⟨fault, rfl, .inl rfl⟩
  cutOff _ h := by cases h

theorem stable_of_front (h : ∀ input,
    (∃ missing, parse input = .cutOff missing ∧ input.length + missing < capacity) ∨
      ∃ (parse' : (input : Bytes) → Item α input) (isItem' : Bytes → Prop),
        Stable parse' isItem' ∧ ∀ more, parse (input ++ more) = parse' (input ++ more) ∧
          (isItem' (input ++ more) → isItem (input ++ more))) : Stable parse isItem := by
  constructor
  case whole =>
    intro input rest value shorter more hparse
    rcases h input with ⟨missing, hcut, -⟩ | ⟨parse', isItem', hstable, hagree⟩
    · rw [hcut] at hparse
      cases hparse
    · have hsame := (hagree []).1
      rw [List.append_nil, hparse] at hsame
      rw [(hagree more).1]
      exact hstable.whole more hsame.symm
  case faulty =>
    intro input fault more hparse
    rcases h input with ⟨missing, hcut, -⟩ | ⟨parse', isItem', hstable, hagree⟩
    · rw [hcut] at hparse
      cases hparse
    · have hsame := (hagree []).1
      rw [List.append_nil, hparse] at hsame
      rw [(hagree more).1]
      exact hstable.faulty more hsame.symm
  case cutOff =>
    intro input missing more hparse hlarge hmore
    rcases h input with ⟨missing', hcut, hroom⟩ | ⟨parse', isItem', hstable, hagree⟩
    · rw [hcut] at hparse
      cases hparse
      exact absurd hlarge (Nat.not_le_of_lt hroom)
    · have hsame := (hagree []).1
      rw [List.append_nil, hparse] at hsame
      rw [(hagree more).1]
      exact (hstable.cutOff more hsame.symm hlarge hmore).imp_left (.imp_left (hagree more).2)

/-! ## Feeds -/

/-- What some bytes settle, as many of them as the buffer holds: an answer, and the bytes that are
left. -/
def settled (parse : (input : Bytes) → Item α input) (bytes : Bytes) :
    Except FeedFault (Option α) × Bytes :=
  let front := bytes.take capacity
  match parse front with
  | .whole value rest _ => (.ok (some value), rest ++ bytes.drop capacity)
  | .faulty fault => (.error (.parse fault), bytes)
  | .cutOff missing =>
    if capacity ≤ front.length + missing then (.error (.parse .bufferTooSmall), bytes)
    else if bytes.isEmpty then (.ok none, bytes)
    else (.error (.parse .unexpectedEnd), bytes)

theorem settled_whole {bytes rest : Bytes} {value : α}
    {shorter : rest.length < (bytes.take capacity).length}
    (h : parse (bytes.take capacity) = .whole value rest shorter) :
    settled parse bytes = (.ok (some value), rest ++ bytes.drop capacity) := by
  simp only [settled, h]

theorem settled_faulty {bytes : Bytes} {fault : ParseFault}
    (h : parse (bytes.take capacity) = .faulty fault) :
    settled parse bytes = (.error (.parse fault), bytes) := by
  simp only [settled, h]

theorem settled_tooLarge {bytes : Bytes} {missing : Nat}
    (h : parse (bytes.take capacity) = .cutOff missing)
    (hlarge : capacity ≤ (bytes.take capacity).length + missing) :
    settled parse bytes = (.error (.parse .bufferTooSmall), bytes) := by
  simp only [settled, h, if_pos hlarge]

theorem settled_end {bytes : Bytes} {missing : Nat}
    (h : parse (bytes.take capacity) = .cutOff missing)
    (hroom : (bytes.take capacity).length + missing < capacity) :
    settled parse bytes =
      if bytes.isEmpty then (.ok none, bytes) else (.error (.parse .unexpectedEnd), bytes) := by
  simp only [settled, h, if_neg (Nat.not_le_of_lt hroom)]

def Within (answer more : Except FeedFault (Option α)) : Prop :=
  answer = more ∨ ∃ fault fault', answer = .error (.parse fault) ∧
    more = .error (.parse fault') ∧ fault.Within fault'

def Alike (answer answer' : Except FeedFault (Option α)) : Prop :=
  answer = answer' ∨ ∃ fault fault', answer = .error (.parse fault) ∧
    answer' = .error (.parse fault') ∧ fault.Alike fault'

theorem Within.eq_ok {answer : Except FeedFault (Option α)} {value : Option α}
    (h : Within answer (.ok value)) : answer = .ok value := by
  rcases h with rfl | ⟨fault, fault', -, hmore, -⟩
  · rfl
  · cases hmore

theorem Within.eq_error {answer : Except FeedFault (Option α)} {fault : ParseFault}
    (h : Within answer (.error (.parse fault))) (hfault : ∀ input, fault ≠ .badLength input) :
    answer = .error (.parse fault) := by
  rcases h with rfl | ⟨fault', more, rfl, hmore, hwithin⟩
  · rfl
  · cases hmore
    rcases hwithin with rfl | ⟨input, quoted, -, hquoted, -⟩
    · rfl
    · exact absurd hquoted (hfault quoted)

theorem Within.alike {answer answer' more : Except FeedFault (Option α)} (h : Within answer more)
    (h' : Within answer' more) : Alike answer answer' := by
  rcases h with rfl | ⟨fault, quoted, rfl, rfl, hfault⟩
  · rcases h' with rfl | ⟨fault', quoted, rfl, rfl, hfault'⟩
    · exact .inl rfl
    · exact .inr ⟨quoted, fault', rfl, rfl, ParseFault.Within.alike (.inl rfl) hfault'⟩
  · rcases h' with rfl | ⟨fault', quoted', rfl, hquoted, hfault'⟩
    · exact .inr ⟨fault, quoted, rfl, rfl, hfault.alike (.inl rfl)⟩
    · cases hquoted
      exact .inr ⟨fault, fault', rfl, rfl, hfault.alike hfault'⟩

/-- Nothing but the bytes decides what a feed answers: its source is steady, and at its end there is
nothing but the beginning of an item. -/
structure Ready (parse : (input : Bytes) → Item α input) (f : Feed) : Prop where
  steady : f.source.Steady
  length_le : f.buffer.length ≤ capacity
  of_ended (h : f.ended = true) : f.unread = f.buffer ∧
    ∃ missing, parse f.buffer = .cutOff missing ∧ f.buffer.length + missing < capacity

variable {f g : Feed}

/-- As long as the source has not come to its end, it does not matter which items are taken. -/
theorem Ready.of_not_ended {β : Type} {parse' : (input : Bytes) → Item β input}
    (h : Ready parse f) (hended : f.ended = false) : Ready parse' f :=
  ⟨h.steady, h.length_le, fun he => absurd (hended.symm.trans he) Bool.false_ne_true⟩

/-- A feed that has read the first piece of a source, and no more. -/
structure Fresh (s : ByteSource) (f : Feed) : Prop where
  steady : f.source.Steady
  buffer_eq : f.buffer = s.firstRead
  unread_eq : f.unread = s.bytes
  ended_eq : f.ended = false

theorem Fresh.start {s : ByteSource} (hs : s.Steady) : ∃ f, start s = .ok f ∧ Fresh s f := by
  obtain ⟨s', hread, hs', -⟩ := hs.exists_read
  have hstart : Feed.start s = .ok ⟨s', [], s.firstRead, false⟩ := by rw [Feed.start, hread]
  exact ⟨_, hstart, hs', rfl, unread_start hstart, rfl⟩

theorem Fresh.ready_drop {s : ByteSource} (h : Fresh s f) (n : Nat) :
    Ready parse { f with buffer := f.buffer.drop n } := by
  refine ⟨h.steady, ?_, fun he => absurd (h.ended_eq.symm.trans he) Bool.false_ne_true⟩
  have hle : f.buffer.length ≤ capacity := h.buffer_eq ▸ List.length_take_le _ _
  rw [List.length_drop]
  omega

theorem Fresh.ready {s : ByteSource} (h : Fresh s f) : Ready parse f := h.ready_drop 0

theorem unread_drop {n : Nat} (h : n ≤ f.buffer.length) :
    unread { f with buffer := f.buffer.drop n } = f.unread.drop n := by
  rw [unread, unread, List.drop_append_of_le_length h]

theorem Ready.take_unread (h : Ready parse f) :
    ∃ more, f.unread.take capacity = f.buffer ++ more ∧
      more ++ f.unread.drop capacity = f.pending ++ f.source.bytes := by
  refine ⟨(f.pending ++ f.source.bytes).take (capacity - f.buffer.length), ?_, ?_⟩
  · rw [unread, List.take_append, List.take_of_length_le h.length_le]
  · rw [unread, List.drop_append, List.drop_eq_nil_of_le h.length_le, List.nil_append,
      List.take_append_drop]

/-! What the buffer shows, the bytes settle. -/

theorem settled_of_whole (stable : Stable parse isItem) (h : Ready parse f) {value : α}
    {rest : Bytes} {shorter : rest.length < f.buffer.length}
    (hparse : parse f.buffer = .whole value rest shorter) :
    settled parse f.unread = (.ok (some value), rest ++ (f.pending ++ f.source.bytes)) := by
  obtain ⟨more, htake, hdrop⟩ := h.take_unread
  have hwhole := stable.whole more hparse
  rw [← htake] at hwhole
  obtain ⟨shorter', hwhole⟩ := hwhole
  rw [settled_whole hwhole, List.append_assoc, hdrop]

theorem settled_of_faulty (stable : Stable parse isItem) (h : Ready parse f) {fault : ParseFault}
    (hparse : parse f.buffer = .faulty fault) :
    ∃ more, settled parse f.unread = (.error (.parse more), f.unread) ∧ fault.Within more := by
  obtain ⟨more, htake, -⟩ := h.take_unread
  obtain ⟨fault', hfaulty, hwithin⟩ := stable.faulty more hparse
  rw [← htake] at hfaulty
  exact ⟨fault', settled_faulty hfaulty, hwithin⟩

theorem settled_of_tooLarge (stable : Stable parse isItem) (h : Ready parse f) {missing : Nat}
    (hparse : parse f.buffer = .cutOff missing) (hlarge : capacity ≤ f.buffer.length + missing) :
    settled parse f.unread = (.error (.parse .bufferTooSmall), f.unread) ∨
      isItem (f.unread.take capacity) ∧ (f.unread.take capacity).length = capacity := by
  obtain ⟨more, htake, -⟩ := h.take_unread
  have hle : (f.buffer ++ more).length ≤ capacity := htake ▸ List.length_take_le _ _
  have hcases := stable.cutOff more hparse hlarge hle
  rw [← htake] at hcases
  rcases hcases with hfull | ⟨missing', hcut, hlarge'⟩
  · exact .inr hfull
  · exact .inl (settled_tooLarge hcut hlarge')

theorem settled_of_ended (h : Ready parse f) (hended : f.ended = true) :
    settled parse f.unread =
      if f.unread.isEmpty then (.ok none, f.unread)
      else (.error (.parse .unexpectedEnd), f.unread) := by
  obtain ⟨hunread, missing, hcut, hroom⟩ := h.of_ended hended
  have htake : f.unread.take capacity = f.buffer := by
    rw [hunread, List.take_of_length_le h.length_le]
  exact settled_end (by rw [htake]; exact hcut) (by rwa [htake])

theorem ready_fill {missing : Nat} (hsteady : f.source.Steady)
    (hlast : f.pending = [] → f.source.bytes = []) (hparse : parse f.buffer = .cutOff missing)
    (hroom : f.buffer.length + missing < capacity) : Ready parse f.fill := by
  refine ⟨hsteady, ?_, fun hended => ?_⟩
  · simp only [fill, List.length_append, List.length_take]
    omega
  · -- nothing was moved, although there is room: nothing is left
    have hmoved : f.pending.take (capacity - f.buffer.length) = [] := List.isEmpty_iff.1 hended
    have hpending : f.pending = [] := by
      rcases List.take_eq_nil_iff.1 hmoved with hzero | hnil
      · omega
      · exact hnil
    have hbuffer : f.fill.buffer = f.buffer := by
      show f.buffer ++ _ = f.buffer
      rw [hmoved, List.append_nil]
    rw [unread_fill, hbuffer, unread, hpending, hlast hpending]
    exact ⟨by simp, missing, hparse, hroom⟩

theorem Ready.refill {missing : Nat} (h : Ready parse f) (hparse : parse f.buffer = .cutOff missing)
    (hroom : f.buffer.length + missing < capacity) : ∃ g, f.refill = .ok g ∧ Ready parse g := by
  unfold Feed.refill
  by_cases hpending : f.pending.isEmpty = true
  · obtain ⟨s', hread, hs', hlast⟩ := h.steady.exists_read
    rw [if_pos hpending, hread]
    exact ⟨_, rfl, ready_fill hs' hlast hparse hroom⟩
  · rw [if_neg hpending]
    exact ⟨_, rfl, ready_fill h.steady
      (fun hnil => absurd (List.isEmpty_iff.2 hnil) hpending) hparse hroom⟩

/-- **What a feed answers is settled by its bytes**, unless an item as large as the buffer stands at
their front and is refused. -/
theorem Ready.next (stable : Stable parse isItem) (h : Ready parse f)
    {answer : Except FeedFault (Option α)} (hnext : f.next parse = (g, answer)) :
    Ready parse g ∧ (∀ value, answer = .ok (some value) → g.ended = false) ∧
      (Within answer (settled parse f.unread).1 ∧ g.unread = (settled parse f.unread).2 ∨
        isItem (f.unread.take capacity) ∧ (f.unread.take capacity).length = capacity ∧
          answer = .error (.parse .bufferTooSmall) ∧ g.unread = f.unread) := by
  fun_induction Feed.next parse f with
  | case1 f hempty =>
    obtain ⟨rfl, rfl⟩ := Prod.mk.inj hnext
    rw [Bool.and_eq_true, List.isEmpty_iff] at hempty
    have hnil : f.unread.isEmpty = true := by rw [(h.of_ended hempty.2).1, hempty.1]; rfl
    rw [settled_of_ended h hempty.2, if_pos hnil]
    exact ⟨h, by simp, .inl ⟨.inl rfl, rfl⟩⟩
  | case2 f hne value rest shorter hparse =>
    obtain ⟨rfl, rfl⟩ := Prod.mk.inj hnext
    -- at the end of the source there would be no whole item
    have hended : f.ended = false := by
      refine Bool.eq_false_iff.2 fun he => ?_
      obtain ⟨-, missing, hcut, -⟩ := h.of_ended he
      rw [hparse] at hcut
      cases hcut
    rw [settled_of_whole stable h hparse]
    refine ⟨⟨h.steady, ?_, ?_⟩, fun _ _ => hended, .inl ⟨.inl rfl, rfl⟩⟩
    · exact Nat.le_trans (Nat.le_of_lt shorter) h.length_le
    · exact fun he => absurd (hended.symm.trans he) Bool.false_ne_true
  | case3 f hne fault hparse =>
    obtain ⟨rfl, rfl⟩ := Prod.mk.inj hnext
    obtain ⟨more, hsettled, hwithin⟩ := settled_of_faulty stable h hparse
    rw [hsettled]
    exact ⟨h, by simp, .inl ⟨.inr ⟨fault, more, rfl, rfl, hwithin⟩, rfl⟩⟩
  | case4 f hne missing hparse hended =>
    obtain ⟨rfl, rfl⟩ := Prod.mk.inj hnext
    have hunread := (h.of_ended hended).1
    have hbuffer : ¬ f.unread.isEmpty = true := fun hnil =>
      hne (by rw [← hunread, hnil, hended]; rfl)
    rw [settled_of_ended h hended, if_neg hbuffer]
    exact ⟨h, by simp, .inl ⟨.inl rfl, rfl⟩⟩
  | case5 f hne missing hparse hended hlarge =>
    obtain ⟨rfl, rfl⟩ := Prod.mk.inj hnext
    refine ⟨h, by simp, ?_⟩
    rcases settled_of_tooLarge stable h hparse hlarge with hsettled | ⟨hitem, hfull⟩
    · rw [hsettled]
      exact .inl ⟨.inl rfl, rfl⟩
    · exact .inr ⟨hitem, hfull, rfl, rfl⟩
  | case6 f hne missing hparse hended hlarge fault hrefill =>
    -- a steady source does not fail
    obtain ⟨g', hg', -⟩ := h.refill hparse (Nat.lt_of_not_le hlarge)
    rw [hrefill] at hg'
    cases hg'
  | case7 f hne missing hparse hended hlarge k hrefill ih =>
    obtain ⟨k', hk, hready⟩ := h.refill hparse (Nat.lt_of_not_le hlarge)
    rw [hrefill] at hk
    cases hk
    rw [← unread_refill hrefill]
    exact ih hready hnext

theorem settled_of_larger (stable : Stable parse isItem) {item more : Bytes} {value : α}
    {shorter : ([] : Bytes).length < item.length} (hitem : parse item = .whole value [] shorter)
    (hlarge : capacity < item.length) :
    (settled parse (item ++ more)).1 = .error (.parse .bufferTooSmall) := by
  have hfront : (item ++ more).take capacity = item.take capacity :=
    List.take_append_of_le_length (Nat.le_of_lt hlarge)
  have hsplit : item.take capacity ++ item.drop capacity = item := List.take_append_drop _ _
  cases hparse : parse (item.take capacity) with
  | whole value' rest shorter' =>
    -- the rest of the item would stand behind an item
    have hwhole := stable.whole (item.drop capacity) hparse
    rw [hsplit] at hwhole
    obtain ⟨_, hwhole⟩ := hwhole
    rw [hitem] at hwhole
    injection hwhole with _ hnil
    have hdrop : item.drop capacity = [] := (List.append_eq_nil_iff.1 hnil.symm).2
    rw [List.drop_eq_nil_iff] at hdrop
    exact absurd hlarge (Nat.not_lt_of_le hdrop)
  | faulty fault =>
    obtain ⟨_, hfaulty, -⟩ := stable.faulty (item.drop capacity) hparse
    rw [hsplit, hitem] at hfaulty
    cases hfaulty
  | cutOff missing =>
    rw [settled_tooLarge (by rw [hfront]; exact hparse)]
    rw [hfront, List.length_take, Nat.min_eq_left (Nat.le_of_lt hlarge)]
    exact Nat.le_add_right _ _

theorem Ready.next_whole (stable : Stable parse isItem) (h : Ready parse f) {item more : Bytes}
    {value : α} {shorter : ([] : Bytes).length < item.length}
    (hitem : parse item = .whole value [] shorter) (hunread : f.unread = item ++ more)
    (hfull : isItem (f.unread.take capacity) → (f.unread.take capacity).length = capacity →
      capacity ≤ item.length) :
    item.length ≤ capacity ∧ (∃ g, f.next parse = (g, .ok (some value)) ∧ Ready parse g ∧
        g.ended = false ∧ g.unread = more) ∨
      capacity ≤ item.length ∧ ∃ g, f.next parse = (g, .error (.parse .bufferTooSmall)) := by
  cases hnext : f.next parse with
  | mk g answer =>
    obtain ⟨hready, hended, ⟨hwithin, hleft⟩ | ⟨hwhole, hlen, rfl, -⟩⟩ := h.next stable hnext
    · by_cases hsize : item.length ≤ capacity
      · have htake : f.unread.take capacity = item ++ more.take (capacity - item.length) := by
          rw [hunread, List.take_append, List.take_of_length_le hsize]
        have hdrop : f.unread.drop capacity = more.drop (capacity - item.length) := by
          rw [hunread, List.drop_append, List.drop_eq_nil_of_le hsize, List.nil_append]
        have hparse := stable.whole (more.take (capacity - item.length)) hitem
        rw [List.nil_append, ← htake] at hparse
        obtain ⟨_, hparse⟩ := hparse
        rw [settled_whole hparse, hdrop, List.take_append_drop] at hleft
        rw [settled_whole hparse] at hwithin
        obtain rfl := hwithin.eq_ok
        exact .inl ⟨hsize, g, rfl, hready, hended value rfl, hleft⟩
      · rw [hunread, settled_of_larger stable hitem (Nat.lt_of_not_le hsize)] at hwithin
        obtain rfl := hwithin.eq_error nofun
        exact .inr ⟨Nat.le_of_not_le hsize, g, rfl⟩
    · exact .inr ⟨hfull hwhole hlen, g, rfl⟩

theorem Ready.next_nil (stable : Stable parse isItem) (h : Ready parse f) {missing : Nat}
    (hparse : parse [] = .cutOff missing) (hroom : missing < capacity) (hunread : f.unread = []) :
    ∃ g, f.next parse = (g, .ok none) := by
  cases hnext : f.next parse with
  | mk g answer =>
    obtain ⟨-, -, ⟨hwithin, -⟩ | ⟨-, hfull, -⟩⟩ := h.next stable hnext
    · have hend : settled parse [] = (.ok none, []) := by
        rw [@settled_end α parse [] missing hparse (by simpa using hroom)]
        rfl
      rw [hunread, hend] at hwithin
      obtain rfl := hwithin.eq_ok
      exact ⟨g, rfl⟩
    · rw [hunread, List.take_nil] at hfull
      cases hfull

/-- An item that the feed sees to be too large is refused, whatever the source still hands out. -/
theorem next_of_tooLarge {missing : Nat} (hended : f.ended = false)
    (hparse : parse f.buffer = .cutOff missing) (hlarge : capacity ≤ f.buffer.length + missing) :
    f.next parse = (f, .error (.parse .bufferTooSmall)) := by
  rw [Feed.next, hended, Bool.and_false, if_neg Bool.false_ne_true, hparse]
  simp only [Bool.false_eq_true, dif_neg, not_false_eq_true, if_pos hlarge]

theorem next_of_whole {value : α} {rest : Bytes} {shorter : rest.length < f.buffer.length}
    (hended : f.ended = false) (hparse : parse f.buffer = .whole value rest shorter) :
    f.next parse = ({ f with buffer := rest }, .ok (some value)) := by
  rw [Feed.next, hended, Bool.and_false, if_neg Bool.false_ne_true, hparse]

theorem next_of_cutOff {missing : Nat} (hended : f.ended = false)
    (hparse : parse f.buffer = .cutOff missing) (hroom : f.buffer.length + missing < capacity)
    (hrefill : f.refill = .ok g) : f.next parse = g.next parse := by
  rw [Feed.next, hended, Bool.and_false, if_neg Bool.false_ne_true, hparse]
  simp only [Bool.false_eq_true, dif_neg, not_false_eq_true, if_neg (Nat.not_le_of_lt hroom)]
  split
  · rename_i hfault
    rw [hrefill] at hfault
    cases hfault
  · rename_i hfeed
    rw [hrefill] at hfeed
    cases hfeed
    rfl

theorem start_of_piece {piece : Bytes} {pieces : List Bytes} (h : piece.length ≤ capacity) :
    start { pieces := piece :: pieces } = .ok ⟨{ pieces }, [], piece, false⟩ := by
  simp only [start, ByteSource.read, List.take_of_length_le h, List.drop_eq_nil_of_le h,
    List.isEmpty_nil, if_true]

theorem refill_of_piece {piece : Bytes} {pieces : List Bytes}
    (hsource : f.source = { pieces := piece :: pieces }) (hpending : f.pending = [])
    (hne : piece ≠ []) (hroom : f.buffer.length + piece.length ≤ capacity) :
    f.refill = .ok ⟨{ pieces }, [], f.buffer ++ piece, false⟩ := by
  have hpiece : piece.length ≤ capacity := by omega
  have hroom' : piece.length ≤ capacity - f.buffer.length := by omega
  rw [refill, hpending, hsource]
  simp only [List.isEmpty_nil, if_true, ByteSource.read, List.take_of_length_le hpiece,
    List.drop_eq_nil_of_le hpiece, fill, List.take_of_length_le hroom',
    List.drop_eq_nil_of_le hroom', List.isEmpty_eq_false_iff.2 hne]

theorem next_of_refill_tooLarge {front piece : Bytes} {pieces : List Bytes} {missing missing' : Nat}
    (hparse : parse front = .cutOff missing) (hroom : front.length + missing < capacity)
    (hne : piece ≠ []) (hpiece : front.length + piece.length ≤ capacity)
    (hparse' : parse (front ++ piece) = .cutOff missing')
    (hlarge : capacity ≤ (front ++ piece).length + missing') :
    next parse ⟨{ pieces := piece :: pieces }, [], front, false⟩ =
      (⟨{ pieces }, [], front ++ piece, false⟩, .error (.parse .bufferTooSmall)) := by
  have hrefill : refill ⟨{ pieces := piece :: pieces }, [], front, false⟩ =
      .ok ⟨{ pieces }, [], front ++ piece, false⟩ := refill_of_piece rfl rfl hne hpiece
  rw [@next_of_cutOff _ _ ⟨_, _, front, false⟩ _ _ rfl hparse hroom hrefill]
  exact next_of_tooLarge rfl hparse' hlarge

/-- Feeds with the same bytes left: nothing but the bytes decides what they answer. -/
structure Twins (parse : (input : Bytes) → Item α input) (f g : Feed) : Prop where
  ready : Ready parse f
  ready' : Ready parse g
  unread_eq : f.unread = g.unread

theorem Twins.of_not_ended {β : Type} {parse' : (input : Bytes) → Item β input}
    (h : Twins parse f g) (hf : f.ended = false) (hg : g.ended = false) : Twins parse' f g :=
  ⟨h.ready.of_not_ended hf, h.ready'.of_not_ended hg, h.unread_eq⟩

theorem Twins.next (stable : Stable parse isItem) (h : Twins parse f g)
    (hitem : isItem (f.unread.take capacity) → (f.unread.take capacity).length ≠ capacity)
    {one : Feed} {answer : Except FeedFault (Option α)} (hone : f.next parse = (one, answer)) :
    ∃ other answer', g.next parse = (other, answer') ∧ Alike answer answer' ∧
      Twins parse one other ∧
      ∀ value, answer = .ok (some value) → one.ended = false ∧ other.ended = false := by
  obtain ⟨hready, hended, hsettled⟩ := h.ready.next stable hone
  cases hother : g.next parse with
  | mk other answer' =>
    obtain ⟨hready', hended', hsettled'⟩ := h.ready'.next stable hother
    obtain ⟨hwithin, hleft⟩ := hsettled.resolve_right fun hfull => hitem hfull.1 hfull.2.1
    rw [← h.unread_eq] at hsettled'
    obtain ⟨hwithin', hleft'⟩ := hsettled'.resolve_right fun hfull => hitem hfull.1 hfull.2.1
    refine ⟨other, answer', rfl, hwithin.alike hwithin',
      ⟨hready, hready', hleft.trans hleft'.symm⟩, fun value hvalue => ⟨hended value hvalue, ?_⟩⟩
    -- an answer with an item has no fault that could quote anything
    have halike := hwithin.alike hwithin'
    rcases halike with heq | ⟨fault, fault', hfault, -⟩
    · exact hended' value (heq ▸ hvalue)
    · rw [hvalue] at hfault
      cases hfault

end Feed

end FrameIndex
