import FrameIndex.Report.Row

/-!
Rows as JSON, one compact object a line with its members in alphabetical order.
-/

namespace FrameIndex

inductive Json where
  | null
  | bool (value : Bool)
  | number (value : Nat)
  | text (value : String)
  | array (items : List Json)
  | object (members : List (String × Json))

namespace Json

/-- A character of a JSON string. Only quotes, backslashes and control characters are escaped. -/
def escape (c : Char) : List Char :=
  if c = '"' then ['\\', '"']
  else if c = '\\' then ['\\', '\\']
  else if c = '\x08' then ['\\', 'b']
  else if c = '\t' then ['\\', 't']
  else if c = '\n' then ['\\', 'n']
  else if c = '\x0c' then ['\\', 'f']
  else if c = '\r' then ['\\', 'r']
  else if c.toNat < 32 then
    ['\\', 'u', '0', '0', Nat.digitChar (c.toNat / 16), Nat.digitChar (c.toNat % 16)]
  else [c]

def quote (s : String) : List Char := '"' :: s.toList.flatMap escape ++ ['"']

mutual

/-- The text of a value, without blanks. -/
def chars : Json → List Char
  | null => "null".toList
  | bool true => "true".toList
  | bool false => "false".toList
  | number n => Nat.toDigits 10 n
  | text s => quote s
  | array items => '[' :: charsOfItems items ++ [']']
  | object members => '\x7b' :: charsOfMembers members ++ ['\x7d']

/-- The text of the items of an array, with commas between them. -/
def charsOfItems : List Json → List Char
  | [] => []
  | [item] => chars item
  | item :: rest => chars item ++ ',' :: charsOfItems rest

/-- The text of the members of an object, with commas between them. -/
def charsOfMembers : List (String × Json) → List Char
  | [] => []
  | [(name, value)] => quote name ++ ':' :: chars value
  | (name, value) :: rest => quote name ++ ':' :: chars value ++ ',' :: charsOfMembers rest

end

/-- A value that may be missing. -/
def orNull {α : Type} (f : α → Json) : Option α → Json
  | none => null
  | some a => f a

end Json

namespace NamedHeader

def toJson (h : NamedHeader) : Json :=
  .object [("length", .number h.length), ("name", .text h.name), ("offset", .number h.offset)]

end NamedHeader

namespace HeaderMatch

def toJson (s : HeaderMatch) : Json :=
  .object [
    ("bytes", .text s.preview),
    ("depth", .number s.depth),
    ("length", .number s.length),
    ("offset", .number s.offset)]

end HeaderMatch

namespace FragmentNote

def toJson (f : FragmentNote) : Json :=
  .object [
    ("identification", .number f.identification),
    ("more", .bool f.more),
    ("offset", .number f.offset)]

end FragmentNote

namespace ByteRange

def toJson (r : ByteRange) : Json :=
  .object [("length", .number r.length), ("offset", .number r.offset)]

end ByteRange

namespace ReportRow

/-- The row as JSON. A fragment and occurrences are left out when there are none. -/
def toJson (r : ReportRow) : Json :=
  .object <|
    [("caplen", .number r.captureLength), ("descriptor", .text r.layout.name)] ++
    (r.fragment.map fun f => ("fragment", f.toJson)).toList ++
    [ ("frame", .number r.frame),
      ("headers", .array (r.headers.map NamedHeader.toJson)),
      ("payload", Json.orNull ByteRange.toJson r.payload)] ++
    (if r.selected.isEmpty then []
      else [("selected", .array (r.selected.map HeaderMatch.toJson))]) ++
    [("timestamp", Json.orNull Json.text r.timestamp), ("wirelen", .number r.wireLength)]

def jsonLine (r : ReportRow) : String := String.ofList (r.toJson.chars ++ ['\n'])

end ReportRow

end FrameIndex
