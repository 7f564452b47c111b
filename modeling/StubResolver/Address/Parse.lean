/-
Reading the text of network addresses.

The parts of an IPv4 address are decimal numbers of at most three digits without needless
zeros.  The groups of an IPv6 address have up to four hexadecimal digits, `::` stands for
at least one zero group and occurs at most once, and the last two groups may be written as
an IPv4 address.

The zone of an IPv6 address is a decimal number behind `%`.  Only an endpoint names one: a
host address alone is read without.
-/
import StubResolver.Address

namespace StubResolver

/-- The number that a nonempty run of digits stands for. -/
def numeral? (base : Nat) (digits : List Char) : Option Nat :=
  let digit? (c : Char) : Option Nat :=
    let value :=
      if '0' ≤ c ∧ c ≤ '9' then c.toNat - '0'.toNat
      else if 'a' ≤ c ∧ c ≤ 'z' then c.toNat - 'a'.toNat + 10
      else if 'A' ≤ c ∧ c ≤ 'Z' then c.toNat - 'A'.toNat + 10
      else base
    if value < base then some value else none
  if digits.isEmpty then none
  else digits.foldlM (fun value c => (digit? c).map (value * base + ·)) 0

namespace Ipv4

/-- One of the four parts of an IPv4 address. -/
def part? (digits : List Char) : Option UInt8 :=
  match digits, numeral? 10 digits with
  | '0' :: _ :: _, _ => none
  | _, some value => if digits.length ≤ 3 ∧ value < 256 then some (UInt8.ofNat value) else none
  | _, none => none

/-- The IPv4 address that a text stands for. -/
def parse? (text : List Char) : Option Ipv4 :=
  match (text.splitOn '.').map part? with
  | [some a, some b, some c, some d] => some ⟨a, b, c, d⟩
  | _ => none

end Ipv4

namespace Ipv6

/-- One group of an IPv6 address. -/
def group? (digits : List Char) : Option UInt16 :=
  if digits.length ≤ 4 then (numeral? 16 digits).map UInt16.ofNat else none

/-- The two halves of an IPv4 address. -/
def groupsOfIpv4 (address : Ipv4) : List UInt16 :=
  [UInt16.ofNat (address.a.toNat * 256 + address.b.toNat),
    UInt16.ofNat (address.c.toNat * 256 + address.d.toNat)]

/-- The groups that some pieces between colons stand for; the last piece may be an IPv4
address if `dotted` allows it. -/
def groups? (dotted : Bool) : List (List Char) → Option (List UInt16)
  | [] => some []
  | [last] =>
    match group? last with
    | some group => some [group]
    | none => if dotted then (Ipv4.parse? last).map groupsOfIpv4 else none
  | piece :: pieces =>
    match group? piece, groups? dotted pieces with
    | some group, some groups => some (group :: groups)
    | _, _ => none

/-- What stands before and behind the first `::` of a text. -/
def splitAtGap : List Char → Option (List Char × List Char)
  | [] => none
  | ':' :: ':' :: rest => some ([], rest)
  | c :: rest => (splitAtGap rest).map fun (before, behind) => (c :: before, behind)

/-- The pieces of a text between colons, where the empty text has none. -/
def pieces (text : List Char) : List (List Char) :=
  if text.isEmpty then [] else text.splitOn ':'

/-- The IPv6 address with some groups, if they are eight. -/
def ofGroups? (groups : List UInt16) : Option Ipv6 :=
  if h : groups.toArray.size = 8 then some ⟨groups.toArray, h⟩ else none

/-- The IPv6 address that a text stands for. -/
def parse? (text : List Char) : Option Ipv6 :=
  match splitAtGap text with
  | none => (groups? true (pieces text)).bind ofGroups?
  | some (before, behind) =>
    match groups? false (pieces before), groups? true (pieces behind) with
    | some first, some last =>
      let zeros := 8 - (first.length + last.length)
      if zeros = 0 then none else ofGroups? (first ++ List.replicate zeros 0 ++ last)
    | _, _ => none

end Ipv6

/-- The host address that a text stands for. -/
def HostAddress.parse? (text : String) : Option HostAddress :=
  match Ipv4.parse? text.toList with
  | some address => some (.v4 address)
  | none => (Ipv6.parse? text.toList).map (.v6 · 0)

namespace Endpoint

/-- The port that a text stands for. -/
def port? (digits : List Char) : Option UInt16 :=
  match numeral? 10 digits with
  | some value => if value < UInt16.size then some (UInt16.ofNat value) else none
  | none => none

/-- The zone that a text stands for. -/
def zone? (digits : List Char) : Option UInt32 :=
  match numeral? 10 digits with
  | some value => if value < UInt32.size then some (UInt32.ofNat value) else none
  | none => none

/-- The host that the text between brackets stands for: an IPv6 address, and the zone of it
if there is one. -/
def scoped? (text : List Char) : Option HostAddress :=
  match text.splitOn '%' with
  | [address] => (Ipv6.parse? address).map (.v6 · 0)
  | [address, zone] =>
    match Ipv6.parse? address, zone? zone with
    | some address, some zone => some (.v6 address zone)
    | _, _ => none
  | _ => none

/-- The endpoint that a text stands for. -/
def parse? (text : String) : Option Endpoint :=
  match text.toList with
  | '[' :: rest =>
    match rest.splitOn ']' with
    | [host, ':' :: port] =>
      match scoped? host, port? port with
      | some host, some port => some ⟨host, port⟩
      | _, _ => none
    | _ => none
  | characters =>
    match characters.splitOn ':' with
    | [address, port] =>
      match Ipv4.parse? address, port? port with
      | some address, some port => some ⟨.v4 address, port⟩
      | _, _ => none
    | _ => none

end Endpoint

end StubResolver
