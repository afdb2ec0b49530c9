import FrameIndex.Bytes

/-!
Header identifiers: which protocol a header belongs to.

An identifier is 32 bits: a protocol number (bits 0 to 5), the pack of protocols it is numbered in
(bits 6 to 10) and a set of class bits (bits 11 to 31). Pack and protocol alone tell headers apart;
the classes only say which presence bits a header sets. `ofBits_bits` and `bits_ofBits` say that
the three fields and the 32 bits carry the same information.
-/

namespace FrameIndex

/-- A pack of protocols, the class bits, and the protocol's number within its pack. -/
structure HeaderId where
  pack : Fin 32
  protocol : Fin 64
  classes : Fin 2097152
  deriving DecidableEq

/-- The packs that have a name. -/
inductive Pack where
  | core
  | lan
  | tcpip
  | options
  deriving DecidableEq

namespace Pack

def number : Pack → Nat
  | .core => 0
  | .lan => 1
  | .tcpip => 2
  | .options => 31

def ofNumber? (n : Nat) : Option Pack := [core, lan, tcpip, options].find? (·.number == n)

def name : Pack → String
  | .core => "core"
  | .lan => "lan"
  | .tcpip => "tcpip"
  | .options => "options"

end Pack

namespace HeaderId

/-- The identifier with the low bits of the given fields. -/
def ofFields (pack protocol classes : Nat) : HeaderId :=
  ⟨Fin.ofNat 32 pack, Fin.ofNat 64 protocol, Fin.ofNat 2097152 classes⟩

/-- Pack and protocol in one number: what tells headers apart. -/
def ordinal (id : HeaderId) : Nat := id.pack * 64 + id.protocol

def bits (id : HeaderId) : Nat := id.classes * 2048 + id.ordinal

def ofBits (n : Nat) : HeaderId := ofFields (n / 64) n (n / 2048)

/-- Whether two identifiers name the same header: classes do not count. -/
def agrees (a b : HeaderId) : Bool := a.ordinal == b.ordinal

def hasClass (id : HeaderId) : Bool := id.classes.val != 0

/-- Whether the identifier is one of an option or extension header. -/
def isOption (id : HeaderId) : Bool := id.pack.val == Pack.options.number

def packName? (id : HeaderId) : Option String := (Pack.ofNumber? id.pack).map Pack.name

theorem ordinal_lt (id : HeaderId) : id.ordinal < 2048 := by
  have := id.pack.isLt
  have := id.protocol.isLt
  simp only [ordinal]
  omega

theorem bits_lt (id : HeaderId) : id.bits < 4294967296 := by
  have := id.ordinal_lt
  have := id.classes.isLt
  simp only [bits]
  omega

theorem ofBits_bits (id : HeaderId) : ofBits id.bits = id := by
  obtain ⟨⟨p, hp⟩, ⟨q, hq⟩, ⟨c, hc⟩⟩ := id
  simp only [ofBits, ofFields, bits, ordinal, Fin.ofNat, mk.injEq, Fin.mk.injEq]
  omega

theorem bits_ofBits (n : Nat) : (ofBits n).bits = n % 4294967296 := by
  simp only [ofBits, ofFields, bits, ordinal, Fin.ofNat]
  omega

theorem agrees_iff {a b : HeaderId} :
    a.agrees b ↔ a.pack = b.pack ∧ a.protocol = b.protocol := by
  have := a.protocol.isLt
  have := b.protocol.isLt
  simp only [agrees, ordinal, beq_iff_eq, Fin.ext_iff]
  omega

end HeaderId

end FrameIndex
