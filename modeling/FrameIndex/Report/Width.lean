import FrameIndex.Report.Width.CharClass

/-!
How many columns of a terminal a text takes.

A character alone takes none, one or two columns, and one Khmer sign takes three
(`Width.ofCodePoint`). In a text, what stands behind a character can change that: letters fuse with
the letter behind, pictures join into one, and a selector behind a character says whether it shows
as text, as a picture or in a square. A text is therefore read from its end, and of the part that is
read only what can still matter is kept (`Width.Behind`).
-/

namespace FrameIndex

namespace Width

open CharClass

/-- The columns that a character takes when it stands alone. -/
def ofCodePoint (n : Nat) : Nat :=
  if n ≤ 0xa0 then 1
  else if n = 0x17d8 then 3
  else if isZero n then 0
  else if isWide n then 2
  else 1

/-- A letter that can fuse with what stands in front of it, or a part of such letters. -/
inductive Letter where
  | lamed
  | khmer
  | bugineseYa
  | bugineseYaWithVowel
  | tifinagh
  | tifinaghWithJoiner
  | lisuTone
  | orkhonI
  deriving DecidableEq

/-- A Kirat Rai vowel sign that can fuse with a sign right in front of it. -/
inductive VowelSign where
  | e
  | ai
  deriving DecidableEq

/-- A picture that can join with what stands in front of it, or a part of such pictures. -/
inductive Picture where
  | whole
  /-- A picture with a joiner in front, and the keycap sign in front of that. -/
  | joined
  | joinedKeycap
  | skinTone
  /-- One flag letter, and more of them. -/
  | flagLetter
  | flagLetters
  /-- Flag letters behind which a joiner stands: one, then an even and an odd number. -/
  | joinedFlagLetter
  | joinedEvenLetters
  | joinedOddLetters
  /-- The end of a tag, letters in front of it, and digits in front of those. -/
  | tagEnd
  | tagLetters (count : Nat)
  | tagDigits (count : Nat)
  deriving DecidableEq

/-- What a text begins with, as far as it matters to a character in front. -/
inductive Onset where
  | plain
  | alef
  /-- A letter, and whether a joiner stands in front of it. -/
  | letter (letter : Letter) (joined : Bool)
  | vowelSign (sign : VowelSign)
  | picture (picture : Picture)
  deriving DecidableEq

/-- What stands behind a character: the onset of the text, and which of the selectors are between.
Several are only kept in front of a letter. -/
structure Behind where
  onset : Onset := .plain
  /-- Whether the character is told to show as a picture. -/
  asPicture : Bool := false
  /-- Whether the character is told to show as text. -/
  asText : Bool := false
  /-- Whether the character is told to fill its square. -/
  asSquare : Bool := false
  deriving DecidableEq

def joiner : Nat := 0x200d

/-- The sign that the character in front of it shows as text. -/
def textSelector : Nat := 0xfe0e

/-- The sign that the character in front of it shows as a picture. -/
def pictureSelector : Nat := 0xfe0f

/-- The sign that the quotation mark in front of it is as wide as an ideograph. -/
def squareSelector : Nat := 0xfe01

/-- Whether the onset is a letter that can fuse. -/
def Onset.isLetter : Onset → Bool
  | .alef | .letter _ _ => true
  | _ => false

/-- Whether the onset is a picture with a joiner in front, so that a picture before it becomes a
part of it. -/
def Onset.isJoined : Onset → Bool
  | .picture .joined | .picture .joinedKeycap => true
  | _ => false

/-- The onset that a character makes on its own. -/
def Onset.ofCodePoint (n : Nat) : Onset :=
  if isAlef n then .alef
  else if n = 0x5dc then .letter .lamed false
  else if isKhmerLetter n then .letter .khmer false
  else if n = 0x1a10 then .letter .bugineseYa false
  else if isTifinagh n then .letter .tifinagh false
  else if isSecondLisuTone n then .letter .lisuTone false
  else if n = 0x10c03 then .letter .orkhonI false
  else if n = 0x16d67 then .vowelSign .e
  else if n = 0x16d68 then .vowelSign .ai
  else if isFlagLetter n then .picture .flagLetter
  else if isSkinTone n then .picture .skinTone
  else if isEmoji n then .picture .whole
  else .plain

/-- The columns that a character adds in front of a letter with which it fuses, and the onset of
both. Some letters fuse only where a joiner stands between. -/
def Letter.fuse? (l : Letter) (joined : Bool) (n : Nat) : Option (Int × Onset) :=
  match l with
  | .lamed => if joined ∧ n = 0x5d0 then some (0, .plain) else none
  | .khmer => if n = 0x17d2 then some (-1, .plain) else none
  | .bugineseYa =>
    if joined ∧ n = 0x1a17 then some (0, .letter .bugineseYaWithVowel false) else none
  | .bugineseYaWithVowel => if n = 0x1a15 then some (0, .plain) else none
  | .tifinagh =>
    if n = 0x2d7f then some (1, .letter .tifinaghWithJoiner false)
    else if joined ∧ isTifinagh n then some (0, .plain)
    else none
  | .tifinaghWithJoiner => if isTifinagh n then some (-1, .plain) else none
  | .lisuTone => if isLisuTone n then some (0, .plain) else none
  | .orkhonI => if joined ∧ n = 0x10c32 then some (0, .plain) else none

/-- The columns that a sign adds in front of a vowel sign with which it fuses, and the onset of
both. -/
def VowelSign.fuse? (v : VowelSign) (n : Nat) : Option (Int × Onset) :=
  match v with
  | .e =>
    if n = 0x16d63 ∨ n = 0x16d69 then some (0, .plain)
    else if n = 0x16d67 then some (0, .vowelSign .ai)
    else if n = 0x16d68 then some (1, .vowelSign .e)
    else none
  | .ai => if n = 0x16d63 then some (0, .plain) else none

/-- The picture that a character makes with a tag behind it: a letter or a digit of the tag, or the
flag that the tag belongs to. A tag has three to six letters, or three digits with up to four
letters behind them. -/
def Picture.tag? (p : Picture) (n : Nat) : Option Picture :=
  match p with
  | .tagEnd =>
    if isTagLetter n then some (.tagLetters 1)
    else if isTagDigit n then some (.tagDigits 1)
    else none
  | .tagLetters count =>
    if isTagLetter n ∧ count < 6 then some (.tagLetters (count + 1))
    else if isTagDigit n ∧ count ≤ 4 then some (.tagDigits 1)
    else if n = 0x1f3f4 ∧ 3 ≤ count then some .whole
    else none
  | .tagDigits count =>
    if isTagDigit n ∧ count < 3 then some (.tagDigits (count + 1))
    else if n = 0x1f3f4 ∧ count = 3 then some .whole
    else none
  | _ => none

/-- Whether a joiner in front of a picture opens it to what stands before. -/
def Picture.takesJoiner : Picture → Bool
  | .whole | .skinTone | .flagLetters | .joinedEvenLetters | .joinedOddLetters => true
  | _ => false

/-- The columns that a character adds in front of a picture that it joins, and the picture of
both. -/
def Picture.join? (p : Picture) (n : Nat) : Option (Int × Picture) :=
  if n = joiner ∧ p.takesJoiner then some (0, .joined)
  else
    match p with
    | .whole | .joinedKeycap => none
    | .joined =>
      if n = 0x20e3 then some (0, .joinedKeycap)
      else if isFlagLetter n then some (1, .joinedFlagLetter)
      else if isSkinTone n then some (0, .skinTone)
      else if n = 0xe007f then some (0, .tagEnd)
      else if isEmoji n then some (0, .whole)
      else none
    | .skinTone => if takesSkinTone n then some (0, .whole) else none
    | .flagLetter | .flagLetters => if isFlagLetter n then some (1, .flagLetters) else none
    | .joinedFlagLetter | .joinedOddLetters =>
      if isFlagLetter n then some (-1, .joinedEvenLetters) else none
    | .joinedEvenLetters => if isFlagLetter n then some (3, .joinedOddLetters) else none
    | .tagEnd | .tagLetters _ | .tagDigits _ => (p.tag? n).map fun q => (0, q)

/-- The columns that a character adds in front of an onset with which it makes one, and the onset of
both; `none` where it stands apart. -/
def Onset.extend? (o : Onset) (n : Nat) : Option (Int × Onset) :=
  match o with
  | .plain => none
  | .alef =>
    if isLam n then some (0, .plain)
    else if Width.ofCodePoint n = 0 ∧ !isParting n then some (0, .alef)
    else none
  | .letter l joined =>
    if n = joiner then some (0, .letter l true)
    else if isTransparent n then some (0, o)
    else l.fuse? joined n
  | .vowelSign v => v.fuse? n
  | .picture p => (p.join? n).map fun (width, q) => (width, .picture q)

/-- Whether a character shows as a picture but can be told to show as text. Ideographs in a square
are as wide either way. -/
def isTextual (n : Nat) : Bool :=
  isEmoji n && isSelectable n && !(0x1f200 ≤ n && n ≤ 0x1f2ff)

/-- What a selector leaves of what stands behind it: a letter with its selectors, and nothing
else. -/
def Behind.kept (b : Behind) : Behind := if b.onset.isLetter then b else {}

/-- The columns that a character adds where it is not told to show as a picture, and what then
stands behind the character in front of it. -/
def stepPlain (n : Nat) (b : Behind) : Int × Behind :=
  if n ≤ 0xa0 then (1, {})
  else if n = pictureSelector then
    (0, { (if b.onset.isJoined then b else b.kept) with asPicture := true })
  else if n = textSelector then (0, { b.kept with asText := true })
  else if n = squareSelector then (0, { b.kept with asSquare := true })
  else if b.asText ∧ isTextual n then (1, {})
  else if b.asSquare ∧ isQuotationMark n then (2, {})
  else
    match b.onset.extend? n with
    | some (width, onset) => (width, { onset })
    | none => (ofCodePoint n, { onset := .ofCodePoint n })

/-- The columns that a character adds in front of what stands behind it, and what then stands behind
the character in front of it. A selector counts for nothing behind a character that has only one way
to show. -/
def step (n : Nat) (b : Behind) : Int × Behind :=
  if b.asPicture then
    if isSelectable n then (if b.onset.isJoined then 0 else 2, { onset := .picture .whole })
    else stepPlain n { b.kept with asPicture := false }
  else stepPlain n b

/-- The columns that a list of characters takes, and what it begins with. -/
def ofChars (cs : List Char) : Int × Behind :=
  cs.foldr (fun c (width, behind) =>
    let (added, onset) := step c.toNat behind
    (added + width, onset)) (0, {})

def ofText (s : String) : Nat := (ofChars s.toList).1.toNat

end Width

end FrameIndex
