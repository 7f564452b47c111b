/-
Network addresses and their text.

An IPv4 address is four bytes, shown in decimal between dots.  An IPv6 address is eight
groups of sixteen bits, shown in hexadecimal between colons; the longest run of at least
two zero groups, the first of them if there are several, is shown as `::`.  Addresses that
stand for an IPv4 address show it as such.

An IPv6 address may mean a different host on each link, and then a zone tells which link is
meant; zone zero leaves it open.  Where a port follows, an IPv6 address is put between
brackets, together with its zone if it has one.
-/
namespace StubResolver

/-- An IPv4 address. -/
structure Ipv4 where
  a : UInt8
  b : UInt8
  c : UInt8
  d : UInt8
deriving DecidableEq, Repr

/-- An IPv4 address as text. -/
def Ipv4.text (address : Ipv4) : String :=
  s!"{address.a}.{address.b}.{address.c}.{address.d}"

/-- An IPv6 address. -/
structure Ipv6 where
  groups : Vector UInt16 8
deriving DecidableEq, Repr

namespace Ipv6

/-- The groups of the address that stands for an IPv4 address, up to the IPv4 address
itself. -/
def mapped : List UInt16 := [0, 0, 0, 0, 0, 0xFFFF]

/-- The IPv4 address whose halves are two groups. -/
def ipv4OfGroups (high low : UInt16) : Ipv4 :=
  ⟨UInt8.ofNat (high.toNat / 256), UInt8.ofNat high.toNat,
    UInt8.ofNat (low.toNat / 256), UInt8.ofNat low.toNat⟩

/-- How many groups at the front are zero. -/
def zerosAtFront (groups : List UInt16) : Nat :=
  (groups.takeWhile (· = 0)).length

/-- Where the longest run of zero groups begins, and how long it is; the first run wins. -/
def longestZeros (groups : List UInt16) : Nat × Nat :=
  (List.range groups.length).foldl
    (fun best start =>
      let length := zerosAtFront (groups.drop start)
      if best.2 < length then (start, length) else best)
    (0, 0)

/-- Groups in hexadecimal, between colons. -/
def groupsText (groups : List UInt16) : String :=
  ":".intercalate (groups.map fun group => String.ofList (Nat.toDigits 16 group.toNat))

/-- An IPv6 address as text. -/
def text (address : Ipv6) : String :=
  let groups := address.groups.toList
  if groups.take 6 = mapped then
    "::ffff:" ++ (ipv4OfGroups address.groups[6] address.groups[7]).text
  else
    let (start, length) := longestZeros groups
    if length < 2 then groupsText groups
    else groupsText (groups.take start) ++ "::" ++ groupsText (groups.drop (start + length))

end Ipv6

/-- The address of a host. -/
inductive HostAddress where
  | v4 (address : Ipv4)
  /-- The host with an address in a zone, where zone zero is none in particular. -/
  | v6 (address : Ipv6) (zone : UInt32)
deriving DecidableEq, Repr

/-- The address of a host as text, with the zone if there is one in particular. -/
def HostAddress.text : HostAddress → String
  | .v4 address => address.text
  | .v6 address zone => if zone = 0 then address.text else address.text ++ s!"%{zone}"

/-- Where datagrams can be sent to: a host and a port on it. -/
structure Endpoint where
  host : HostAddress
  port : UInt16
deriving DecidableEq, Repr

/-- An endpoint as text. -/
def Endpoint.text (endpoint : Endpoint) : String :=
  match endpoint.host with
  | .v4 .. => endpoint.host.text ++ s!":{endpoint.port}"
  | .v6 .. => "[" ++ endpoint.host.text ++ s!"]:{endpoint.port}"

end StubResolver
