import FrameIndex.HeaderId.Known

/-!
Reading the fixed part of protocol headers. Each reader takes the rest of a frame from the header's
first byte on, and answers `none` when no whole, well-formed header is there.
-/

namespace FrameIndex

namespace EthernetHeader

def length : Nat := 14

/-- The type field; values below 0x0600 are the length of an IEEE 802.3 frame. -/
def typeField? (rest : Bytes) : Option Nat :=
  if length ≤ rest.length then some (rest.be 12 2) else none

theorem length_le {rest : Bytes} {type : Nat} (h : typeField? rest = some type) :
    length ≤ rest.length := by
  simp only [typeField?, Option.ite_none_right_eq_some] at h
  exact h.1

end EthernetHeader

namespace VlanTag

def length : Nat := 4

/-- The type of what the tag is in front of. -/
def typeField? (rest : Bytes) : Option Nat :=
  if length ≤ rest.length then some (rest.be 2 2) else none

theorem length_le {rest : Bytes} {type : Nat} (h : typeField? rest = some type) :
    length ≤ rest.length := by
  simp only [typeField?, Option.ite_none_right_eq_some] at h
  exact h.1

end VlanTag

namespace ArpMessage

/-- The size of an ARP message: eight bytes, and two hardware and two protocol addresses. -/
def length? (rest : Bytes) : Option Nat :=
  let length := 8 + 2 * (rest.byteAt 4 + rest.byteAt 5)
  if 8 ≤ rest.length ∧ length ≤ rest.length then some length else none

theorem length_bounds {rest : Bytes} {n : Nat} (h : length? rest = some n) :
    0 < n ∧ n ≤ rest.length := by
  simp only [length?, Option.ite_none_right_eq_some, Option.some.injEq] at h
  omega

end ArpMessage

structure Ipv4Header where
  length : Nat
  totalLength : Nat
  identification : Nat
  moreFragments : Bool
  /-- Where the fragment belongs in its datagram, in bytes. -/
  fragmentOffset : Nat
  protocol : Nat
  options : Bytes
  deriving DecidableEq

namespace Ipv4Header

def isFragment (h : Ipv4Header) : Bool := h.moreFragments || h.fragmentOffset != 0

/-- The IPv4 header at the front: version 4, and as many words as it says, at least five. -/
def read? (rest : Bytes) : Option Ipv4Header :=
  let length := rest.byteAt 0 % 16 * 4
  if 20 ≤ rest.length ∧ rest.byteAt 0 / 16 = 4 ∧ 20 ≤ length ∧ length ≤ rest.length then
    some {
      length
      totalLength := rest.be 2 2
      identification := rest.be 4 2
      moreFragments := rest.be 6 2 / 8192 % 2 == 1
      fragmentOffset := rest.be 6 2 % 8192 * 8
      protocol := rest.byteAt 9
      options := rest.slice 20 (length - 20) }
  else none

theorem length_bounds {rest : Bytes} {h : Ipv4Header} (hr : read? rest = some h) :
    20 ≤ h.length ∧ h.length ≤ rest.length := by
  simp only [read?, Option.ite_none_right_eq_some, Option.some.injEq] at hr
  obtain ⟨hc, rfl⟩ := hr
  exact hc.2.2

theorem options_eq {rest : Bytes} {h : Ipv4Header} (hr : read? rest = some h) :
    h.options = rest.slice 20 (h.length - 20) := by
  simp only [read?, Option.ite_none_right_eq_some, Option.some.injEq] at hr
  obtain ⟨-, rfl⟩ := hr
  rfl

end Ipv4Header

namespace Ipv6Header

def length : Nat := 40

/-- What follows the IPv6 header at the front. -/
def nextHeader? (rest : Bytes) : Option Nat :=
  if length ≤ rest.length ∧ rest.byteAt 0 / 16 = 6 then some (rest.byteAt 6) else none

theorem length_le {rest : Bytes} {next : Nat} (h : nextHeader? rest = some next) :
    length ≤ rest.length := by
  simp only [nextHeader?, Option.ite_none_right_eq_some] at h
  exact h.1.1

end Ipv6Header

inductive Ipv6Extension where
  | hopByHop
  | routing
  | fragment
  | destOptions
  | auth
  deriving DecidableEq

namespace Ipv6Extension

/-- The extension header that a next-header number announces. -/
def ofNextHeader? : Nat → Option Ipv6Extension
  | 0 => some .hopByHop
  | 43 => some .routing
  | 44 => some .fragment
  | 51 => some .auth
  | 60 => some .destOptions
  | _ => none

/-- The identifier under which the extension is recorded. -/
def id : Ipv6Extension → HeaderId
  | .hopByHop => HeaderId.ipv6HopByHop
  | .routing => HeaderId.ipv6Routing
  | .fragment => HeaderId.ipv6Fragment
  | .destOptions => HeaderId.ipv6DestOptions
  | .auth => HeaderId.ipv6Auth

/-- The size that the extension states. Authentication headers count words of four bytes, the
others words of eight. -/
def length (kind : Ipv6Extension) (rest : Bytes) : Nat :=
  match kind with
  | .fragment => 8
  | .auth => (rest.byteAt 1 + 2) * 4
  | .hopByHop | .routing | .destOptions => (rest.byteAt 1 + 1) * 8

/-- The fewest bytes that are looked at as an extension header. -/
def minLength : Nat := 8

theorem minLength_le_length (kind : Ipv6Extension) (rest : Bytes) :
    minLength ≤ kind.length rest := by
  cases kind <;> simp only [length, minLength] <;> omega

end Ipv6Extension

structure TcpHeader where
  length : Nat
  options : Bytes
  deriving DecidableEq

namespace TcpHeader

/-- The TCP header at the front, as many words as it says, at least five. -/
def read? (rest : Bytes) : Option TcpHeader :=
  let length := rest.byteAt 12 / 16 * 4
  if 20 ≤ rest.length ∧ 20 ≤ length ∧ length ≤ rest.length then
    some { length, options := rest.slice 20 (length - 20) }
  else none

theorem length_bounds {rest : Bytes} {h : TcpHeader} (hr : read? rest = some h) :
    20 ≤ h.length ∧ h.length ≤ rest.length := by
  simp only [read?, Option.ite_none_right_eq_some, Option.some.injEq] at hr
  obtain ⟨hc, rfl⟩ := hr
  exact hc.2

theorem options_eq {rest : Bytes} {h : TcpHeader} (hr : read? rest = some h) :
    h.options = rest.slice 20 (h.length - 20) := by
  simp only [read?, Option.ite_none_right_eq_some, Option.some.injEq] at hr
  obtain ⟨-, rfl⟩ := hr
  rfl

end TcpHeader

namespace UdpHeader

/-- The size of the UDP header at the front. -/
def length? (rest : Bytes) : Option Nat := if 8 ≤ rest.length then some 8 else none

theorem length_bounds {rest : Bytes} {n : Nat} (h : length? rest = some n) :
    0 < n ∧ n ≤ rest.length := by
  simp only [length?, Option.ite_none_right_eq_some, Option.some.injEq] at h
  omega

end UdpHeader

namespace IcmpHeader

/-- The size of the ICMP header at the front. Timestamp messages have one of exactly 20 bytes, and
nothing may follow it. -/
def length? (rest : Bytes) : Option Nat :=
  if rest.length < 8 then none
  else if (rest.byteAt 0 = 13 ∨ rest.byteAt 0 = 14) ∧ rest.byteAt 1 = 0 then
    if rest.length = 20 then some 20 else none
  else some 8

theorem length_bounds {rest : Bytes} {n : Nat} (h : length? rest = some n) :
    0 < n ∧ n ≤ rest.length := by
  unfold length? at h
  split at h
  · cases h
  · split at h
    · rw [Option.ite_none_right_eq_some] at h
      cases h.2
      omega
    · cases h
      omega

end IcmpHeader

namespace Icmpv6Header

/-- The size of the ICMPv6 header at the front of a message of less than four gigabytes. -/
def length? (rest : Bytes) : Option Nat :=
  if 8 ≤ rest.length ∧ rest.length < 4294967296 then some 8 else none

theorem length_bounds {rest : Bytes} {n : Nat} (h : length? rest = some n) :
    0 < n ∧ n ≤ rest.length := by
  simp only [length?, Option.ite_none_right_eq_some, Option.some.injEq] at h
  omega

end Icmpv6Header

structure GreHeader where
  length : Nat
  protocol : Nat
  deriving DecidableEq

namespace GreHeader

def bridgedEthernet : Nat := 0x6558

/-- The GRE header at the front. Checksum, key and sequence number take four bytes each. -/
def read? (rest : Bytes) : Option GreHeader :=
  let flags := rest.be 0 2
  let length := 4 + 4 * [15, 13, 12].countP flags.testBit
  if 4 ≤ rest.length ∧ length ≤ rest.length then some { length, protocol := rest.be 2 2 }
  else none

theorem length_bounds {rest : Bytes} {h : GreHeader} (hr : read? rest = some h) :
    4 ≤ h.length ∧ h.length ≤ rest.length := by
  simp only [read?, Option.ite_none_right_eq_some, Option.some.injEq] at hr
  obtain ⟨hc, rfl⟩ := hr
  exact ⟨Nat.le_add_right 4 _, hc.2⟩

end GreHeader

/-- One option of an option area: its kind and its length in bytes. -/
structure OptionSpan where
  kind : Nat
  length : Nat
  deriving DecidableEq

namespace OptionSpan

/-- The options at the front of an option area, up to the first that is malformed. The end-of-list
option takes the rest of the area, a run of no-operation options counts as one, and every other
option states its length, at least two. -/
def parse : Bytes → List OptionSpan
  | [] => []
  | kind :: tail =>
    if kind.toNat = 0 then [⟨0, tail.length + 1⟩]
    else if kind.toNat = 1 then
      let more := (tail.takeWhile (· == 1)).length
      ⟨1, more + 1⟩ :: parse (tail.drop more)
    else
      match tail with
      | [] => []
      | length :: rest =>
        if 2 ≤ length.toNat ∧ length.toNat ≤ rest.length + 2 then
          ⟨kind.toNat, length.toNat⟩ :: parse (rest.drop (length.toNat - 2))
        else []
  termination_by bs => bs.length
  decreasing_by all_goals simp_wf <;> omega

end OptionSpan

end FrameIndex
