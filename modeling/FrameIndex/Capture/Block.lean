import FrameIndex.Capture.Feed
import FrameIndex.Capture.Ticks

/-!
The block format of captures.

A block is a type (4 bytes), its total length (4), a body, and its total length again (4). A section
header says in which byte order the blocks after it are written. What matters here are section
headers, interface descriptions, and enhanced and simple packets; of the other known types it is
only checked that they are well formed, and blocks of unknown types are passed over.
-/

namespace FrameIndex

/-- What an interface description says. -/
structure CaptureInterface where
  linkType : Nat
  /-- The resolution of the interface's clock: microseconds unless stated. -/
  resolution : Nat := 6
  /-- The seconds that are added to the interface's clock. -/
  offset : Int := 0
  deriving DecidableEq

/-- A packet that names its interface. -/
structure EnhancedPacket where
  interface : Nat
  ticks : Nat
  captured : Nat
  onWire : Nat
  /-- The packet's bytes, filled up to a multiple of four. -/
  data : Bytes
  deriving DecidableEq

inductive BlockKind where
  | section
  | interface
  | simple
  | names
  | statistics
  | enhanced
  | secrets
  | custom
  | unknown
  deriving DecidableEq

inductive CaptureBlock where
  | section (order : ByteOrder)
  | interface (description : CaptureInterface)
  | enhanced (packet : EnhancedPacket)
  | simple (onWire : Nat) (data : Bytes)
  | other
  deriving DecidableEq

/-- Why a body is no block: bytes are missing, or what it holds is wrong. -/
inductive BodyFault where
  | cutOff (missing : Nat)
  | faulty (fault : ParseFault)

/-- An option of a block: a code, and a value filled up to a multiple of four bytes. -/
structure BlockOption where
  code : Nat
  value : Bytes
  deriving DecidableEq

namespace BlockKind

/-- The kind that a type stands for. The type of a section header is the same in both byte
orders. -/
def ofType (type : Nat) : BlockKind :=
  match type with
  | 0x0a0d0d0a => .section
  | 1 => .interface
  | 3 => .simple
  | 4 => .names
  | 5 => .statistics
  | 6 => .enhanced
  | 10 => .secrets
  | 0xbad | 0x40000bad => .custom
  | _ => .unknown

def minLength : BlockKind → Nat
  | .section => 28
  | .interface | .secrets => 20
  | .simple | .custom => 16
  | .names | .unknown => 12
  | .statistics => 24
  | .enhanced => 32

theorem le_minLength (kind : BlockKind) : 12 ≤ kind.minLength := by
  cases kind <;> decide

end BlockKind

namespace CaptureBlock

/-- The next multiple of four. -/
def align (n : Nat) : Nat := (n + 3) / 4 * 4

/-- The options at the front, up to the first that is not complete. -/
def options (order : ByteOrder) (bs : Bytes) : List BlockOption :=
  let length := align (bs.num order 2 2)
  if 4 ≤ bs.length ∧ 4 + length ≤ bs.length then
    { code := bs.num order 0 2, value := bs.slice 4 length } :: options order (bs.drop (4 + length))
  else []
  termination_by bs.length
  decreasing_by
    simp only [List.length_drop]
    omega

/-- The interface with what one option says of it: its resolution or its offset. The offset is
little-endian in every section. -/
def withOption (i : CaptureInterface) (o : BlockOption) : CaptureInterface :=
  if o.code = 9 ∧ o.value ≠ [] then { i with resolution := o.value.byteAt 0 }
  else if o.code = 14 ∧ 8 ≤ o.value.length then
    { i with offset := Ticks.signed (o.value.le 0 8) }
  else i

/-- How many bytes the names at the front lack at least; 0 if they are complete. Each is a kind, a
length and a value filled up to a multiple of four bytes, and four zero bytes stand behind the last.
A lone byte that is not zero lacks the other byte of its kind; any other beginning of a name or of
the zeros lacks what makes it four bytes. -/
def missingNames (order : ByteOrder) (bs : Bytes) : Nat :=
  let length := align (bs.num order 2 2)
  if bs.length < 4 then if bs.length = 1 ∧ bs ≠ [0] then 1 else 4 - bs.length
  else if (bs.take 4).all (· == 0) then 0
  else if bs.length - 4 < length then length - (bs.length - 4)
  else missingNames order (bs.drop (4 + length))
  termination_by bs.length
  decreasing_by
    simp only [List.length_drop]
    omega

/-- The data of a length at the front, filled up to a multiple of four bytes. A length that the
filling would take past 32 bits is a fault at `place`. -/
def takeFilled (bs : Bytes) (length : Nat) (place : Bytes) : Except BodyFault Bytes :=
  if UInt32.size ≤ length + 5 then .error (.faulty (.badLength place))
  else if bs.length < align length then .error (.cutOff (align length - bs.length))
  else .ok (bs.take (align length))

/-- What a block holds, where the total length behind its body agrees with the one in front. -/
def closed (length trailer : Nat) (rest : Bytes) (block : CaptureBlock) :
    Except BodyFault CaptureBlock :=
  if trailer = length then .ok block else .error (.faulty (.badLength rest))

/-- What the body of a block of a kind holds. `trailer` is the total length behind the body: section
headers, simple packets and unknown blocks need not repeat theirs. -/
def ofBody (order : ByteOrder) (kind : BlockKind) (length trailer : Nat) (body : Bytes) :
    Except BodyFault CaptureBlock :=
  match kind with
  | .section => .ok (.section order)
  | .interface =>
    let description := (options order (body.drop 8)).foldl withOption
      { linkType := body.num order 0 2 }
    closed length trailer [] (.interface description)
  | .simple => .ok (.simple (body.num order 0 4) (body.drop 4))
  | .names =>
    let missing := missingNames order body
    if missing = 0 then closed length trailer [] .other else .error (.cutOff missing)
  | .statistics => closed length trailer [] .other
  | .enhanced => do
    let captured := body.num order 12 4
    let data ← takeFilled (body.drop 20) captured body
    closed length trailer [] (.enhanced {
      interface := body.num order 0 4
      ticks := body.num order 4 4 * UInt32.size + body.num order 8 4
      captured
      onWire := body.num order 16 4
      data })
  | .secrets => do
    let _ ← takeFilled (body.drop 8) (body.num order 4 4) (body.drop 8)
    closed length trailer [] .other
  | .custom => closed length trailer (body.drop 4) .other
  | .unknown => .ok .other

def readBody (order : ByteOrder) (kind : BlockKind) (input : Bytes) : Item CaptureBlock input :=
  let length := input.num order 4 4
  if input.length < kind.minLength then .cutOff (kind.minLength - input.length)
  else if _hmin : length < kind.minLength then .faulty (.badLength (input.drop 8))
  else if input.length < length - 4 then .cutOff (length - 4 - input.length)
  else if _hlen : input.length < length then .cutOff (length - input.length)
  else
    match ofBody order kind length (input.num order (length - 4) 4)
      (input.slice 8 (length - 12)) with
    | .error (.faulty fault) => .faulty fault
    | .error (.cutOff missing) => .cutOff missing
    | .ok block =>
      .whole block (input.drop length) (by
        have := kind.le_minLength
        simp only [List.length_drop, length] at *
        omega)

/-- The byte order that the mark of a section header tells. -/
def markedOrder? (input : Bytes) : Option ByteOrder :=
  if input.le 8 4 = 0x1a2b3c4d then some .little
  else if input.be 8 4 = 0x1a2b3c4d then some .big
  else none

/-- The section header at the front, in the byte order that it marks. -/
def readSection (input : Bytes) : Item CaptureBlock input :=
  if input.length < 12 then .cutOff (12 - input.length)
  else
    match markedOrder? input with
    | some order => readBody order .section input
    | none => .faulty .unknownByteOrder

def read (order : ByteOrder) (input : Bytes) : Item CaptureBlock input :=
  if input.length < 4 then .cutOff (4 - input.length)
  else
    match BlockKind.ofType (input.num order 0 4) with
    | .section => readSection input
    | kind => readBody order kind input

end CaptureBlock

end FrameIndex
