import FrameIndex.ProtocolHeaders
import FrameIndex.PlainLayouts
import FrameIndex.Type2.Draft

/-!
One step of a traversal, which looks for the headers of a frame.

A traversal stands at a layer and an offset. One step reads the header there, records it, and says
which layer comes next and where, if any. Once a record is refused the traversal is full, and
records nothing more.
-/

namespace FrameIndex

/-- What a header is expected to be. -/
inductive Layer where
  | ethernet
  | llc
  | vlan
  | arp
  | ipv4
  | ipv6
  | ipv6Extension (kind : Ipv6Extension)
  | tcp
  | udp
  | icmp
  | icmpv6
  | gre
  deriving DecidableEq

namespace Layer

/-- The layer that an EtherType announces. -/
def ofEtherType? : Nat → Option Layer
  | 0x0800 => some .ipv4
  | 0x86dd => some .ipv6
  | 0x0806 => some .arp
  | 0x8100 => some .vlan
  | 0x88a8 => some .vlan
  | 0x9100 => some .vlan
  | _ => none

/-- The layer that an IP protocol number announces. -/
def ofProtocol? : Nat → Option Layer
  | 1 => some .icmp
  | 4 => some .ipv4
  | 6 => some .tcp
  | 17 => some .udp
  | 41 => some .ipv6
  | 47 => some .gre
  | 58 => some .icmpv6
  | _ => none

/-- The layer that a next-header number of IPv6 announces, in front of the given bytes. -/
def ofNextHeader? (next : Nat) (rest : Bytes) : Option Layer :=
  if rest.length < Ipv6Extension.minLength then ofProtocol? next
  else
    match Ipv6Extension.ofNextHeader? next with
    | some kind => some (.ipv6Extension kind)
    | none => ofProtocol? next

end Layer

/-- A layer, and the offset where its header begins. -/
structure Station where
  layer : Layer
  offset : Nat
  deriving DecidableEq

/-- What a traversal has found. -/
structure Traversal where
  /-- The most records, if there is a limit. -/
  limit : Option Nat
  draft : Type2.Draft
  fragment : Option FragmentPlace
  /-- Why a record was refused, if one was. -/
  refused : Option LayoutError
  deriving DecidableEq

/-- A number that fits in 16 bits, or the largest that does. -/
def clampWord (n : Nat) : UInt16 := UInt16.ofNat (min n 65535)

namespace Traversal

/-- The traversal that has found nothing in a frame yet. -/
def start (limit : Option Nat) (data : Bytes) : Traversal where
  limit
  draft := { captureLength := clampWord data.length, framing := .other }
  fragment := none
  refused := none

/-- Whether a record was refused. Nothing is recorded from then on. -/
def full (t : Traversal) : Bool := t.refused.isSome

/-- Notes the link framing. -/
def framed (t : Traversal) (framing : LinkFraming) : Traversal :=
  { t with draft := { t.draft with framing } }

/-- Records a header, and tells whether that was possible. -/
def note (t : Traversal) (id : HeaderId) (offset length : Nat) : Traversal × Bool :=
  if t.full then (t, false)
  else
    match t.draft.pushWithin t.limit id offset length with
    | .ok draft => ({ t with draft }, true)
    | .error refusal => ({ t with refused := some refusal }, false)

/-- Records a header and goes on, or stops. -/
def noteThen (t : Traversal) (id : HeaderId) (offset length : Nat)
    (next : Traversal → Traversal × Option Station) : Traversal × Option Station :=
  match t.note id offset length with
  | (t, true) => next t
  | (t, false) => (t, none)

/-- Records a header and stops. -/
def noteLast (t : Traversal) (id : HeaderId) (offset : Nat) :
    Option Nat → Traversal × Option Station
  | none => (t, none)
  | some length => t.noteThen id offset length fun t => (t, none)

/-- Records the options of an area that begins at an offset, up to the first that is refused. -/
def noteOptions (t : Traversal) (idOf : Nat → HeaderId) (offset : Nat) :
    List OptionSpan → Traversal
  | [] => t
  | span :: rest =>
    match t.note (idOf span.kind) offset span.length with
    | (t, true) => t.noteOptions idOf (offset + span.length) rest
    | (t, false) => t

/-- The flags of fragment data. -/
def fragmentFlags (more : Bool) : UInt8 :=
  UInt8.ofNat (1 <<< (if more then FragmentPlace.moreBit else FragmentPlace.lastBit))

/-- The fragment data of an IPv4 header at an offset: what the datagram holds of it, as far as it
was captured. -/
def ipv4Fragment (data : Bytes) (offset : Nat) (h : Ipv4Header) : FragmentPlace :=
  let dataOffset := offset + h.length
  { identification := UInt32.ofNat h.identification
    offset := UInt16.ofNat h.fragmentOffset
    flags := fragmentFlags h.moreFragments
    ipVersion := 4
    dataOffset := clampWord dataOffset
    dataLength := clampWord (min (h.totalLength - h.length) (data.length - dataOffset)) }

/-- The fragment data of an IPv6 fragment header at an offset: everything captured after it. -/
def ipv6Fragment (data : Bytes) (offset : Nat) : FragmentPlace :=
  let rest : Bytes := data.drop offset
  let dataOffset := offset + 8
  { identification := UInt32.ofNat (rest.be 4 4)
    offset := UInt16.ofNat (rest.be 2 2 / 8 * 8)
    flags := fragmentFlags (rest.be 2 2 % 2 == 1)
    ipVersion := 6
    dataOffset := clampWord dataOffset
    dataLength := clampWord (data.length - dataOffset) }

/-- What comes after a header, if the layer is known. -/
def thenAt (t : Traversal) (layer : Option Layer) (offset : Nat) : Traversal × Option Station :=
  (t, layer.map fun layer => ⟨layer, offset⟩)

/-- An Ethernet header: a type names the next layer, a length announces an LLC header. -/
def ethernetStep (data : Bytes) (offset : Nat) (t : Traversal) : Traversal × Option Station :=
  match EthernetHeader.typeField? (data.drop offset) with
  | none => (t, none)
  | some type =>
    t.noteThen .ethernet offset EthernetHeader.length fun t =>
      if type < 0x0600 then t.thenAt (some .llc) (offset + EthernetHeader.length)
      else
        (t.framed .ether).thenAt (Layer.ofEtherType? type) (offset + EthernetHeader.length)

/-- An LLC header of three bytes, and the SNAP header of five that may follow it. -/
def llcStep (data : Bytes) (offset : Nat) (t : Traversal) : Traversal × Option Station :=
  let rest := data.drop offset
  if rest.length < 3 then (t, none)
  else
    (t.framed .llc).noteThen .llc offset 3 fun t =>
      if Bytes.byteAt rest 0 = 0xaa ∧ Bytes.byteAt rest 1 = 0xaa ∧ 8 ≤ rest.length then
        (t.framed .snap).noteThen .snap (offset + 3) 5 fun t =>
          t.thenAt (Layer.ofEtherType? (Bytes.be rest 6 2)) (offset + 8)
      else (t, none)

/-- A VLAN tag. -/
def vlanStep (data : Bytes) (offset : Nat) (t : Traversal) : Traversal × Option Station :=
  match VlanTag.typeField? (data.drop offset) with
  | none => (t, none)
  | some type =>
    t.noteThen .vlan offset VlanTag.length fun t =>
      t.thenAt (Layer.ofEtherType? type) (offset + VlanTag.length)

/-- An IPv4 header with its options. Only a first fragment goes on to the next layer. -/
def ipv4Step (data : Bytes) (offset : Nat) (t : Traversal) : Traversal × Option Station :=
  match Ipv4Header.read? (data.drop offset) with
  | none => (t, none)
  | some h =>
    t.noteThen .ipv4 offset h.length fun t =>
      let t := t.noteOptions HeaderId.ipv4Option (offset + 20) (OptionSpan.parse h.options)
      let t := if h.isFragment then { t with fragment := some (ipv4Fragment data offset h) } else t
      if h.fragmentOffset = 0 then t.thenAt (Layer.ofProtocol? h.protocol) (offset + h.length)
      else (t, none)

/-- An IPv6 header. -/
def ipv6Step (data : Bytes) (offset : Nat) (t : Traversal) : Traversal × Option Station :=
  match Ipv6Header.nextHeader? (data.drop offset) with
  | none => (t, none)
  | some next =>
    let after := offset + Ipv6Header.length
    t.noteThen .ipv6 offset Ipv6Header.length fun t =>
      t.thenAt (Layer.ofNextHeader? next (data.drop after)) after

/-- An extension header of IPv6. Only a first fragment goes on to the next layer. -/
def ipv6ExtensionStep (data : Bytes) (kind : Ipv6Extension) (offset : Nat) (t : Traversal) :
    Traversal × Option Station :=
  let rest := data.drop offset
  let length := kind.length rest
  let after := offset + length
  if rest.length < length then (t, none)
  else
    t.noteThen kind.id offset length fun t =>
      let next := Layer.ofNextHeader? (Bytes.byteAt rest 0) (data.drop after)
      match kind with
      | .fragment =>
        let info := ipv6Fragment data offset
        let t := { t with fragment := some info }
        if info.offset = 0 then t.thenAt next after else (t, none)
      | _ => t.thenAt next after

/-- A TCP header with its options. -/
def tcpStep (data : Bytes) (offset : Nat) (t : Traversal) : Traversal × Option Station :=
  match TcpHeader.read? (data.drop offset) with
  | none => (t, none)
  | some h =>
    t.noteThen .tcp offset h.length fun t =>
      (t.noteOptions HeaderId.tcpOption (offset + 20) (OptionSpan.parse h.options), none)

/-- A GRE header: in front of bridged Ethernet, or of what an EtherType names. -/
def greStep (data : Bytes) (offset : Nat) (t : Traversal) : Traversal × Option Station :=
  match GreHeader.read? (data.drop offset) with
  | none => (t, none)
  | some h =>
    t.noteThen .gre offset h.length fun t =>
      t.thenAt
        (if h.protocol = GreHeader.bridgedEthernet then some .ethernet
          else Layer.ofEtherType? h.protocol)
        (offset + h.length)

/-- Reads the header at a station, and tells where the traversal goes on. -/
def step (data : Bytes) (s : Station) (t : Traversal) : Traversal × Option Station :=
  let rest := data.drop s.offset
  match s.layer with
  | .ethernet => t.ethernetStep data s.offset
  | .llc => t.llcStep data s.offset
  | .vlan => t.vlanStep data s.offset
  | .arp => t.noteLast .arp s.offset (ArpMessage.length? rest)
  | .ipv4 => t.ipv4Step data s.offset
  | .ipv6 => t.ipv6Step data s.offset
  | .ipv6Extension kind => t.ipv6ExtensionStep data kind s.offset
  | .tcp => t.tcpStep data s.offset
  | .udp => t.noteLast .udp s.offset (UdpHeader.length? rest)
  | .icmp => t.noteLast .icmp s.offset (IcmpHeader.length? rest)
  | .icmpv6 => t.noteLast .icmpv6 s.offset (Icmpv6Header.length? rest)
  | .gre => t.greStep data s.offset

end Traversal

end FrameIndex
