import FrameIndex.Report.Json
import Mathlib.Data.List.Basic

/-!
# JSON texts are legible

The text of a value can be told apart from what follows it, as long as no digit does
(`Json.legible`). A string ends at the first quote that is not escaped, a number before the first
character that is not a digit, and arrays and objects at their closing brackets; the first character
of a text tells which of these it is. So values with the same text are equal. No text has a control
character in it (`Json.printed`), so none has a line break.
-/

namespace FrameIndex

namespace Json

/-! ## Characters of strings -/

def hexValue (c : Char) : Nat :=
  if c.toNat < 58 then c.toNat - 48 else c.toNat - 87

def named : Char → Char
  | 'b' => '\x08'
  | 't' => '\t'
  | 'n' => '\n'
  | 'f' => '\x0c'
  | 'r' => '\r'
  | c => c

/-- The first character that is meant by the text of a string, and the text behind it. -/
def unescape : List Char → Option (Char × List Char)
  | '\\' :: 'u' :: _ :: _ :: high :: low :: rest =>
    some (Char.ofNat (16 * hexValue high + hexValue low), rest)
  | '\\' :: letter :: rest => some (named letter, rest)
  | c :: rest => some (c, rest)
  | [] => none

theorem hexValue_digitChar : ∀ n < 16, hexValue (Nat.digitChar n) = n := by decide

theorem unescape_escape (c : Char) (rest : List Char) :
    unescape (escape c ++ rest) = some (c, rest) := by
  unfold escape
  split_ifs with hquote hbackslash hb ht hn hf hr hcontrol
  · rw [hquote]; rfl
  · rw [hbackslash]; rfl
  · rw [hb]; rfl
  · rw [ht]; rfl
  · rw [hn]; rfl
  · rw [hf]; rfl
  · rw [hr]; rfl
  · have hvalue : 16 * hexValue (Nat.digitChar (c.toNat / 16)) +
        hexValue (Nat.digitChar (c.toNat % 16)) = c.toNat := by
      rw [hexValue_digitChar _ (by omega), hexValue_digitChar _ (by omega)]
      omega
    show some (Char.ofNat _, rest) = some (c, rest)
    rw [hvalue, Char.ofNat_toNat]
  · rw [List.singleton_append, unescape.eq_def]
    split <;> simp_all

theorem escape_cancel {c d : Char} {r s : List Char} (h : escape c ++ r = escape d ++ s) :
    c = d ∧ r = s := by
  have hread := congrArg unescape h
  rw [unescape_escape, unescape_escape] at hread
  simpa using hread

theorem escape_ne_quote (c : Char) (r s : List Char) : escape c ++ r ≠ '"' :: s := by
  unfold escape
  split_ifs <;> simp_all

theorem flatMap_escape_cancel {cs ds r s : List Char}
    (h : cs.flatMap escape ++ '"' :: r = ds.flatMap escape ++ '"' :: s) : cs = ds ∧ r = s := by
  induction cs generalizing ds with
  | nil =>
    cases ds with
    | nil => exact ⟨rfl, (List.cons.inj h).2⟩
    | cons d ds =>
      rw [List.flatMap_cons, List.append_assoc] at h
      exact absurd h.symm (escape_ne_quote _ _ _)
  | cons c cs ih =>
    rw [List.flatMap_cons, List.append_assoc] at h
    cases ds with
    | nil => exact absurd h (escape_ne_quote _ _ _)
    | cons d ds =>
      rw [List.flatMap_cons, List.append_assoc] at h
      obtain ⟨rfl, hrest⟩ := escape_cancel h
      obtain ⟨rfl, hbehind⟩ := ih hrest
      exact ⟨rfl, hbehind⟩

theorem quote_cancel {a b : String} {r s : List Char} (h : quote a ++ r = quote b ++ s) :
    a = b ∧ r = s := by
  simp only [quote, List.cons_append, List.append_assoc, List.nil_append, List.cons.injEq,
    true_and] at h
  obtain ⟨hchars, hbehind⟩ := flatMap_escape_cancel h
  exact ⟨String.toList_inj.1 hchars, hbehind⟩

/-! ## Words of a kind of characters -/

/-- The first character, if there is one, is not of the kind. -/
def Stops (p : Char → Bool) (text : List Char) : Prop := ∀ c ∈ text.head?, p c = false

section

variable {p : Char → Bool} {a b r s : List Char}

theorem takeWhile_word (ha : ∀ c ∈ a, p c = true) (hr : Stops p r) : (a ++ r).takeWhile p = a := by
  have hnothing : r.takeWhile p = [] := by
    cases r with
    | nil => rfl
    | cons c rest => exact List.takeWhile_cons_of_neg (by simp [hr c rfl])
  rw [List.takeWhile_append_of_pos ha, hnothing, List.append_nil]

theorem word_cancel (ha : ∀ c ∈ a, p c = true) (hb : ∀ c ∈ b, p c = true) (hr : Stops p r)
    (hs : Stops p s) (h : a ++ r = b ++ s) : a = b ∧ r = s := by
  have hword : a = b := by rw [← takeWhile_word ha hr, h, takeWhile_word hb hs]
  rw [hword] at h
  exact ⟨hword, List.append_cancel_left h⟩

end

theorem isDigit_of_mem {n : Nat} {c : Char} (h : c ∈ Nat.toDigits 10 n) : c.isDigit = true :=
  Nat.isDigit_of_mem_toDigits (by decide) (by decide) h

theorem toDigits_cancel {m n : Nat} {r s : List Char} (hr : Stops Char.isDigit r)
    (hs : Stops Char.isDigit s) (h : Nat.toDigits 10 m ++ r = Nat.toDigits 10 n ++ s) :
    m = n ∧ r = s := by
  obtain ⟨hdigits, hbehind⟩ :=
    word_cancel (fun _ => isDigit_of_mem) (fun _ => isDigit_of_mem) hr hs h
  have hvalue := congrArg (Nat.ofDigitChars 10 · 0) hdigits
  simp only [Nat.ofDigitChars_ten_toDigits] at hvalue
  exact ⟨hvalue, hbehind⟩

/-! ## Lists with commas -/

section

variable {α : Type} {f : α → List Char}

/-- The text can be told apart from others, whatever follows them that no digit begins. -/
def Legible (f : α → List Char) (a : α) : Prop :=
  ∀ b r s, Stops Char.isDigit r → Stops Char.isDigit s → f a ++ r = f b ++ s → a = b ∧ r = s

/-- What follows an item: nothing, or a comma and the other items. -/
def following (f : α → List Char) : List α → List Char
  | [] => []
  | a :: as => ',' :: [','].intercalate ((a :: as).map f)

theorem intercalate_cons (f : α → List Char) (a : α) (as : List α) :
    [','].intercalate ((a :: as).map f) = f a ++ following f as := by
  cases as with
  | nil => simp [following]
  | cons b bs => simp [following]

theorem stops_following {close : Char} (hclose : close.isDigit = false) (as : List α)
    (rest : List Char) : Stops Char.isDigit (following f as ++ close :: rest) := by
  cases as with
  | nil =>
    rintro c ⟨⟩
    exact hclose
  | cons a as =>
    rintro c ⟨⟩
    rfl

/-- A list is legible up to the character that closes it, if its items are. -/
theorem intercalate_cancel {close : Char} (hcomma : close ≠ ',') (hclose : close.isDigit = false)
    (hopen : ∀ a r s, f a ++ r ≠ close :: s) {as bs : List α} (has : ∀ a ∈ as, Legible f a)
    {r s : List Char}
    (h : [','].intercalate (as.map f) ++ close :: r = [','].intercalate (bs.map f) ++ close :: s) :
    as = bs ∧ r = s := by
  induction as generalizing bs with
  | nil =>
    cases bs with
    | nil => exact ⟨rfl, (List.cons.inj h).2⟩
    | cons b bs =>
      rw [intercalate_cons, List.append_assoc] at h
      exact absurd h.symm (hopen _ _ _)
  | cons a as ih =>
    rw [intercalate_cons, List.append_assoc] at h
    cases bs with
    | nil => exact absurd h (hopen _ _ _)
    | cons b bs =>
      rw [intercalate_cons, List.append_assoc] at h
      obtain ⟨rfl, hbehind⟩ := has a List.mem_cons_self b _ _ (stops_following hclose as r)
        (stops_following hclose bs s) h
      -- behind the item both lists end, or both go on with a comma
      cases as with
      | nil =>
        cases bs with
        | nil => exact ⟨rfl, (List.cons.inj hbehind).2⟩
        | cons b' bs => exact absurd (List.cons.inj hbehind).1 hcomma
      | cons a' as =>
        cases bs with
        | nil => exact absurd (List.cons.inj hbehind).1.symm hcomma
        | cons b' bs =>
          obtain ⟨hrest, hend⟩ := ih (fun c hc => has c (List.mem_cons_of_mem a hc))
            (List.cons.inj hbehind).2
          exact ⟨congrArg (a :: ·) hrest, hend⟩

end

def memberChars (m : String × Json) : List Char := quote m.1 ++ ':' :: chars m.2

theorem charsOfItems_eq (items : List Json) :
    charsOfItems items = [','].intercalate (items.map chars) := by
  induction items with
  | nil => rfl
  | cons item rest ih =>
    cases rest with
    | nil => simp [charsOfItems]
    | cons next rest => simp [charsOfItems, ih]

theorem charsOfMembers_eq (members : List (String × Json)) :
    charsOfMembers members = [','].intercalate (members.map memberChars) := by
  induction members with
  | nil => rfl
  | cons member rest ih =>
    cases rest with
    | nil => simp [charsOfMembers, memberChars]
    | cons next rest => simp [charsOfMembers, memberChars, ih]

/-! ## Values -/

theorem induction {P : Json → Prop} (null : P null) (bool : ∀ b, P (bool b))
    (number : ∀ n, P (number n)) (text : ∀ s, P (text s))
    (array : ∀ items, (∀ v ∈ items, P v) → P (array items))
    (object : ∀ members, (∀ m ∈ members, P m.2) → P (object members)) (v : Json) : P v :=
  @Json.rec P (fun items => ∀ v ∈ items, P v) (fun members => ∀ m ∈ members, P m.2)
    (fun m => P m.2) null bool number text array object (List.forall_mem_nil _)
    (fun _ _ hhead htail => List.forall_mem_cons.2 ⟨hhead, htail⟩) (List.forall_mem_nil _)
    (fun _ _ hhead htail => List.forall_mem_cons.2 ⟨hhead, htail⟩) (fun _ _ h => h) v

inductive Kind where
  | null
  | bool
  | number
  | text
  | array
  | object
  deriving DecidableEq

def kind : Json → Kind
  | .null => .null
  | .bool _ => .bool
  | .number _ => .number
  | .text _ => .text
  | .array _ => .array
  | .object _ => .object

/-- The kind of the values whose texts begin with a character, if there are any. -/
def kindOf? : Char → Option Kind
  | 'n' => some .null
  | 't' | 'f' => some .bool
  | '"' => some .text
  | '[' => some .array
  | '\x7b' => some .object
  | c => if c.isDigit then some .number else none

theorem kindOf?_of_isDigit {c : Char} (h : c.isDigit = true) : kindOf? c = some .number := by
  unfold kindOf?
  split <;> simp_all [Char.isDigit]

theorem exists_chars_eq_cons (v : Json) :
    ∃ c rest, v.chars = c :: rest ∧ kindOf? c = some v.kind := by
  cases v with
  | null => exact ⟨'n', _, rfl, rfl⟩
  | bool b => cases b <;> exact ⟨_, _, rfl, rfl⟩
  | number n =>
    obtain ⟨c, rest, hdigits⟩ := List.exists_cons_of_ne_nil (Nat.toDigits_ne_nil (n := n) (b := 10))
    have hc : c ∈ Nat.toDigits 10 n := hdigits ▸ List.mem_cons_self
    exact ⟨c, rest, by rw [chars, hdigits], kindOf?_of_isDigit (isDigit_of_mem hc)⟩
  | text s => exact ⟨'"', _, by rw [chars, quote, List.cons_append], rfl⟩
  | array items => exact ⟨'[', _, by rw [chars, List.cons_append], rfl⟩
  | object members => exact ⟨'\x7b', _, by rw [chars, List.cons_append], rfl⟩

theorem kind_eq {v w : Json} {r s : List Char} (h : v.chars ++ r = w.chars ++ s) :
    v.kind = w.kind := by
  obtain ⟨c, rest, hv, hkind⟩ := v.exists_chars_eq_cons
  obtain ⟨d, rest', hw, hkind'⟩ := w.exists_chars_eq_cons
  rw [hv, hw] at h
  obtain rfl := (List.cons.inj h).1
  exact Option.some.inj (hkind.symm.trans hkind')

theorem chars_append_ne {close : Char} (hclose : kindOf? close = none) (v : Json)
    (r s : List Char) : v.chars ++ r ≠ close :: s := by
  obtain ⟨c, rest, hv, hkind⟩ := v.exists_chars_eq_cons
  rw [hv]
  intro h
  rw [(List.cons.inj h).1, hclose] at hkind
  cases hkind

theorem memberChars_append_ne {close : Char} (hclose : close ≠ '"') (m : String × Json)
    (r s : List Char) : memberChars m ++ r ≠ close :: s := by
  intro h
  exact hclose (List.cons.inj h).1.symm

theorem legible_memberChars {m : String × Json} (h : Legible chars m.2) :
    Legible memberChars m := by
  intro n r s hr hs htext
  simp only [memberChars, List.append_assoc, List.cons_append] at htext
  obtain ⟨hname, hrest⟩ := quote_cancel htext
  obtain ⟨hvalue, hbehind⟩ := h n.2 r s hr hs (List.cons.inj hrest).2
  exact ⟨Prod.ext hname hvalue, hbehind⟩

/-- **A value is legible.** -/
theorem legible (v : Json) : Legible chars v := by
  induction v using induction with
  | null =>
    intro w r s hr hs h
    cases w with
    | null => exact ⟨rfl, List.append_cancel_left h⟩
    | bool | number | text | array | object => cases kind_eq h
  | bool b =>
    intro w r s hr hs h
    cases w with
    | bool b' =>
      cases b <;> cases b' <;> simp_all [chars]
    | null | number | text | array | object => cases kind_eq h
  | number n =>
    intro w r s hr hs h
    cases w with
    | number n' =>
      simp only [chars] at h
      obtain ⟨rfl, hbehind⟩ := toDigits_cancel hr hs h
      exact ⟨rfl, hbehind⟩
    | null | bool | text | array | object => cases kind_eq h
  | text a =>
    intro w r s hr hs h
    cases w with
    | text b =>
      simp only [chars] at h
      obtain ⟨rfl, hbehind⟩ := quote_cancel h
      exact ⟨rfl, hbehind⟩
    | null | bool | number | array | object => cases kind_eq h
  | array items ih =>
    intro w r s hr hs h
    cases w with
    | array items' =>
      simp only [chars, charsOfItems_eq, List.cons_append, List.append_assoc, List.nil_append,
        List.cons.injEq, true_and] at h
      obtain ⟨rfl, hbehind⟩ := intercalate_cancel (by decide) (by decide)
        (chars_append_ne (by decide)) ih h
      exact ⟨rfl, hbehind⟩
    | null | bool | number | text | object => cases kind_eq h
  | object members ih =>
    intro w r s hr hs h
    cases w with
    | object members' =>
      simp only [chars, charsOfMembers_eq, List.cons_append, List.append_assoc, List.nil_append,
        List.cons.injEq, true_and] at h
      obtain ⟨rfl, hbehind⟩ := intercalate_cancel (by decide) (by decide)
        (memberChars_append_ne (by decide)) (fun m hm => legible_memberChars (ih m hm)) h
      exact ⟨rfl, hbehind⟩
    | null | bool | number | text | array => cases kind_eq h

theorem chars_injective : Function.Injective chars := by
  intro v w h
  have hstops : Stops Char.isDigit [] := nofun
  exact (v.legible w [] [] hstops hstops (congrArg (· ++ []) h)).1

/-! ## Line breaks -/

/-- There is no control character. -/
def Printed (text : List Char) : Prop := ∀ c ∈ text, 32 ≤ c.toNat

instance decidablePrinted (text : List Char) : Decidable (Printed text) :=
  List.decidableBAll (fun c : Char => 32 ≤ c.toNat) text

theorem printed_append {a b : List Char} (ha : Printed a) (hb : Printed b) : Printed (a ++ b) :=
  List.forall_mem_append.2 ⟨ha, hb⟩

theorem printed_cons {c : Char} {text : List Char} (hc : 32 ≤ c.toNat) (h : Printed text) :
    Printed (c :: text) :=
  List.forall_mem_cons.2 ⟨hc, h⟩

theorem le_toNat_digitChar : ∀ n < 16, 32 ≤ (Nat.digitChar n).toNat := by decide

theorem printed_escape (c : Char) : Printed (escape c) := by
  unfold escape
  split_ifs with hquote hbackslash hb ht hn hf hr hcontrol
  · decide
  · decide
  · decide
  · decide
  · decide
  · decide
  · decide
  · have hhigh := le_toNat_digitChar (c.toNat / 16) (by omega)
    have hlow := le_toNat_digitChar (c.toNat % 16) (by omega)
    simp [Printed, hhigh, hlow]
  · simpa [Printed] using hcontrol

theorem printed_quote (s : String) : Printed (quote s) := by
  have hescaped : Printed (s.toList.flatMap escape) := by
    intro c hc
    obtain ⟨d, -, hd⟩ := List.mem_flatMap.1 hc
    exact printed_escape d c hd
  exact printed_cons (by decide) (printed_append hescaped (by decide))

theorem printed_intercalate {α : Type} {f : α → List Char} {as : List α}
    (h : ∀ a ∈ as, Printed (f a)) : Printed ([','].intercalate (as.map f)) := by
  induction as with
  | nil => exact List.forall_mem_nil _
  | cons a as ih =>
    obtain ⟨ha, has⟩ := List.forall_mem_cons.1 h
    rw [intercalate_cons]
    refine printed_append ha ?_
    cases as with
    | nil => exact List.forall_mem_nil _
    | cons b bs => exact printed_cons (by decide) (ih has)

theorem printed (v : Json) : Printed v.chars := by
  induction v using induction with
  | null => decide
  | bool b => cases b <;> decide
  | number n =>
    intro c hc
    have hdigit := isDigit_of_mem hc
    simp only [Char.isDigit, Bool.and_eq_true, decide_eq_true_eq] at hdigit
    exact Nat.le_trans (by decide) (UInt32.le_iff_toNat_le.1 hdigit.1)
  | text s => exact printed_quote s
  | array items ih =>
    rw [chars, charsOfItems_eq]
    exact printed_cons (by decide) (printed_append (printed_intercalate ih) (by decide))
  | object members ih =>
    rw [chars, charsOfMembers_eq]
    have hmembers : ∀ m ∈ members, Printed (memberChars m) := fun m hm =>
      printed_append (printed_quote m.1) (printed_cons (by decide) (ih m hm))
    exact printed_cons (by decide) (printed_append (printed_intercalate hmembers) (by decide))

end Json

end FrameIndex
