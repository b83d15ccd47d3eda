import Mathlib.Algebra.Group.Nat.Defs
import Mathlib.Data.List.Basic
import Mathlib.Data.Nat.Notation

/-!
# IP addresses

The addresses of Python's `ipaddress`: how a text is read as an address, and the special ranges that an
address can belong to.
-/

inductive IpAddress where
  | v4 (ip : ℕ)
  | v6 (ip : ℕ)
  deriving DecidableEq, Repr

namespace IpAddress

/-- The number with the given digits in a base. -/
def ofDigits (base : ℕ) (digits : List ℕ) : ℕ := digits.foldl (fun n d => base * n + d) 0

def parseOctet (s : List Char) : Option ℕ :=
  if s = [] ∨ ¬s.all Char.isDigit ∨ 3 < s.length ∨ (s ≠ ['0'] ∧ s.head? = some '0') then none
  else
    let octet := ofDigits 10 (s.map fun c => c.toNat - '0'.toNat)
    if octet > 255 then none else some octet

def ipv4IntFromString (s : List Char) : Option ℕ :=
  let octets := s.splitOn '.'
  if octets.length ≠ 4 then none else (octets.mapM parseOctet).map (ofDigits 256)

def hexValue (c : Char) : Option ℕ :=
  if c.isDigit then some (c.toNat - '0'.toNat)
  else if 'a' ≤ c ∧ c ≤ 'f' then some (c.toNat - 'a'.toNat + 10)
  else if 'A' ≤ c ∧ c ≤ 'F' then some (c.toNat - 'A'.toNat + 10)
  else none

def parseHextet (s : List Char) : Option ℕ :=
  if s = [] ∨ 4 < s.length then none else (s.mapM hexValue).map (ofDigits 16)

/-- The parts between the colons, with a dotted address at the end written as two hextets. -/
def ipv6Parts (s : List Char) : Option (List (List Char)) :=
  let parts := s.splitOn ':'
  if parts.length < 3 then none
  else if '.' ∈ parts.getLastD [] then
    (ipv4IntFromString (parts.getLastD [])).map fun ip =>
      parts.dropLast ++ [Nat.toDigits 16 (ip / 65536 % 65536), Nat.toDigits 16 (ip % 65536)]
  else some parts

/-- The parts on one side of `::`: the outer one may be empty only when it is alone. -/
def besideSkip (outer : Option (List Char)) (parts : List (List Char)) : Option (List (List Char)) :=
  if outer = some [] then (if parts.length = 1 then some [] else none) else some parts

def ipv6IntFromString (s : List Char) : Option ℕ :=
  match ipv6Parts s with
  | none => none
  | some parts =>
    if 9 < parts.length then none
    else
      match (List.range parts.length).filter fun i => 1 ≤ i ∧ i + 1 < parts.length ∧ parts[i]? = some [] with
      | [] => if parts.length = 8 then (parts.mapM parseHextet).map (ofDigits 65536) else none
      | [skip] =>
        match besideSkip parts.head? (parts.take skip), besideSkip parts.getLast? (parts.drop (skip + 1)) with
        | some hi, some lo =>
          if 8 ≤ hi.length + lo.length then none
          else
            match hi.mapM parseHextet, lo.mapM parseHextet with
            | some hi, some lo =>
              some (ofDigits 65536 (hi ++ List.replicate (8 - (hi.length + lo.length)) 0 ++ lo))
            | _, _ => none
        | _, _ => none
      | _ => none

/-- The address in front of a scope id. -/
def splitScopeId (s : List Char) : Option (List Char) :=
  match s.dropWhile (· ≠ '%') with
  | [] => some s
  | _ :: scopeId => if scopeId = [] ∨ '%' ∈ scopeId then none else some (s.takeWhile (· ≠ '%'))

/-- `ipaddress.ip_address`: nothing when it raises. -/
def ipAddress (s : String) : Option IpAddress :=
  match ipv4IntFromString s.toList with
  | some ip => some (.v4 ip)
  | none =>
    if '/' ∈ s.toList then none
    else ((splitScopeId s.toList).bind ipv6IntFromString).map .v6

/-- A network: its address and the number of its leading bits. -/
structure Network where
  address : ℕ
  bits : ℕ

def Network.contains (width : ℕ) (ip : ℕ) (network : Network) : Bool :=
  ip / 2 ^ (width - network.bits) == network.address / 2 ^ (width - network.bits)

def network4 (octets : List ℕ) (bits : ℕ) : Network := ⟨ofDigits 256 octets, bits⟩

/-- A network whose address ends in zeros after the given hextets. -/
def network6 (hextets : List ℕ) (bits : ℕ) : Network :=
  ⟨ofDigits 65536 (hextets ++ List.replicate (8 - hextets.length) 0), bits⟩

def privateNetworks4 : List Network :=
  [network4 [0, 0, 0, 0] 8, network4 [10, 0, 0, 0] 8, network4 [127, 0, 0, 0] 8, network4 [169, 254, 0, 0] 16,
    network4 [172, 16, 0, 0] 12, network4 [192, 0, 0, 0] 24, network4 [192, 0, 0, 170] 31,
    network4 [192, 0, 2, 0] 24, network4 [192, 168, 0, 0] 16, network4 [198, 18, 0, 0] 15,
    network4 [198, 51, 100, 0] 24, network4 [203, 0, 113, 0] 24, network4 [240, 0, 0, 0] 4,
    network4 [255, 255, 255, 255] 32]

def privateNetworksExceptions4 : List Network :=
  [network4 [192, 0, 0, 9] 32, network4 [192, 0, 0, 10] 32]

def privateNetworks6 : List Network :=
  [network6 [0, 0, 0, 0, 0, 0, 0, 1] 128, network6 [] 128, network6 [0, 0, 0, 0, 0, 0xffff] 96,
    network6 [0x64, 0xff9b, 1] 48, network6 [0x100] 64, network6 [0x2001] 23, network6 [0x2001, 0xdb8] 32,
    network6 [0x2002] 16, network6 [0xfc00] 7, network6 [0xfe80] 10]

def privateNetworksExceptions6 : List Network :=
  [network6 [0x2001, 1, 0, 0, 0, 0, 0, 1] 128, network6 [0x2001, 1, 0, 0, 0, 0, 0, 2] 128,
    network6 [0x2001, 3] 32, network6 [0x2001, 4, 0x112] 48, network6 [0x2001, 0x20] 28,
    network6 [0x2001, 0x30] 28]

def reservedNetworks6 : List Network :=
  [network6 [] 8, network6 [0x100] 8, network6 [0x200] 7, network6 [0x400] 6, network6 [0x800] 5,
    network6 [0x1000] 4, network6 [0x4000] 3, network6 [0x6000] 3, network6 [0x8000] 3, network6 [0xa000] 3,
    network6 [0xc000] 3, network6 [0xe000] 4, network6 [0xf000] 5, network6 [0xf800] 6, network6 [0xfe00] 9]

def isPrivate4 (ip : ℕ) : Bool :=
  privateNetworks4.any (Network.contains 32 ip) && privateNetworksExceptions4.all (!Network.contains 32 ip ·)

def isPrivate : IpAddress → Bool
  | .v4 ip => isPrivate4 ip
  | .v6 ip =>
    if ip / 2 ^ 32 = 0xffff then isPrivate4 (ip % 2 ^ 32)
    else privateNetworks6.any (Network.contains 128 ip) && privateNetworksExceptions6.all (!Network.contains 128 ip ·)

def isLoopback : IpAddress → Bool
  | .v4 ip => (network4 [127, 0, 0, 0] 8).contains 32 ip
  | .v6 ip => ip == 1

def isLinkLocal : IpAddress → Bool
  | .v4 ip => (network4 [169, 254, 0, 0] 16).contains 32 ip
  | .v6 ip => (network6 [0xfe80] 10).contains 128 ip

def isMulticast : IpAddress → Bool
  | .v4 ip => (network4 [224, 0, 0, 0] 4).contains 32 ip
  | .v6 ip => (network6 [0xff00] 8).contains 128 ip

def isReserved : IpAddress → Bool
  | .v4 ip => (network4 [240, 0, 0, 0] 4).contains 32 ip
  | .v6 ip => reservedNetworks6.any (Network.contains 128 ip)

def isUnspecified : IpAddress → Bool
  | .v4 ip => ip == 0
  | .v6 ip => ip == 0

/-- None of the special ranges: the address can be reached from everywhere. -/
def isPublic (ip : IpAddress) : Bool :=
  !(ip.isPrivate || ip.isLoopback || ip.isLinkLocal || ip.isMulticast || ip.isReserved || ip.isUnspecified)

example : ipAddress "::ffff:127.0.0.1" = some (.v6 0xffff7f000001) := by decide +kernel

end IpAddress
