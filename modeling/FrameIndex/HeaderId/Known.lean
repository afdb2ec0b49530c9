import FrameIndex.HeaderId

/-!
The well-known header identifiers, their names, and the option numbering of TCP and IPv4.
-/

namespace FrameIndex

namespace HeaderId

/-- The whole captured frame. -/
def frame : HeaderId := ofFields Pack.core.number 0 0
/-- The bytes after the last header. -/
def payload : HeaderId := ofFields Pack.core.number 1 0

/-- A link-layer header, which sets one presence bit. -/
def link (protocol bit : Nat) : HeaderId := ofFields Pack.lan.number protocol (1 <<< bit)

/-- A network or transport header, which sets one presence bit. -/
def network (protocol bit : Nat) : HeaderId := ofFields Pack.tcpip.number protocol (1 <<< bit)

/-- An option or extension header. It sets no presence bit. -/
def option (protocol : Nat) : HeaderId := ofFields Pack.options.number protocol 0

def ethernet : HeaderId := link 0 0
def vlan : HeaderId := link 1 1
def llc : HeaderId := link 2 2
def snap : HeaderId := link 3 3

def ipv4 : HeaderId := network 0 4
def ipv6 : HeaderId := network 1 5
def arp : HeaderId := network 2 6
def icmp : HeaderId := network 3 7
def icmpv6 : HeaderId := network 4 8
def tcp : HeaderId := network 5 9
def udp : HeaderId := network 6 10
def gre : HeaderId := network 7 11

/-- The identifier of a TCP option: its kind, kinds from 15 up sharing one number. -/
def tcpOption (kind : Nat) : HeaderId := option (min kind 15)

/-- The identifier of an IPv4 option: its five-bit option number. -/
def ipv4Option (type : Nat) : HeaderId := option (16 + type % 32)

def ipv6HopByHop : HeaderId := option 48
def ipv6Routing : HeaderId := option 49
def ipv6Fragment : HeaderId := option 50
def ipv6DestOptions : HeaderId := option 51
def ipv6Auth : HeaderId := option 52

/-- The well-known identifiers with their names, in the order they are listed. -/
def known : List (HeaderId × String) := [
  (frame, "frame"),
  (payload, "payload"),
  (ethernet, "ethernet"),
  (vlan, "vlan"),
  (llc, "llc"),
  (snap, "snap"),
  (ipv4, "ipv4"),
  (ipv6, "ipv6"),
  (arp, "arp"),
  (icmp, "icmp"),
  (icmpv6, "icmpv6"),
  (tcp, "tcp"),
  (udp, "udp"),
  (gre, "gre"),
  (option 0, "tcp.eol"),
  (option 1, "tcp.nop"),
  (option 2, "tcp.mss"),
  (option 3, "tcp.window_scale"),
  (option 4, "tcp.sack_permitted"),
  (option 5, "tcp.sack"),
  (option 8, "tcp.timestamp"),
  (option 16, "ipv4.eol"),
  (option 17, "ipv4.nop"),
  (option 18, "ipv4.security"),
  (option 19, "ipv4.lsrr"),
  (option 20, "ipv4.timestamp"),
  (option 23, "ipv4.record_route"),
  (option 25, "ipv4.ssrr"),
  (option 36, "ipv4.router_alert"),
  (ipv6HopByHop, "ipv6.hop_by_hop"),
  (ipv6Routing, "ipv6.routing"),
  (ipv6Fragment, "ipv6.fragment"),
  (ipv6DestOptions, "ipv6.dest_options"),
  (ipv6Auth, "ipv6.auth")]

/-- The name of the well-known identifier that agrees, "unknown" when there is none. -/
def name (id : HeaderId) : String :=
  ((known.find? (·.1.agrees id)).map (·.2)).getD "unknown"

/-- The well-known identifier with a name; upper and lower case ASCII letters are alike. -/
def ofName? (text : String) : Option HeaderId :=
  (known.find? (·.2 == text.toLower)).map (·.1)

/-- The well-known identifier with an ordinal, or else one without classes. -/
def ofOrdinal (ordinal : Nat) : HeaderId :=
  ((known.find? (·.1.ordinal == ordinal % 2048)).map (·.1)).getD (ofBits (ordinal % 2048))

def isFrame (id : HeaderId) : Bool := id.agrees frame

def isPayload (id : HeaderId) : Bool := id.agrees payload

/-- The identifier spelled out with all its fields. -/
def describe (id : HeaderId) : String :=
  s!"HeaderId({id.name} {id.pack.val}:{id.protocol.val} class=0x" ++
    String.ofList (Nat.toDigits 16 id.classes) ++ ")"

end HeaderId

end FrameIndex
