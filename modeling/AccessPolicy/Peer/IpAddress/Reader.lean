import AccessPolicy.Peer.IpAddress
import AccessPolicy.Text.Digits
import AccessPolicy.Text.Segments

/-!
# Reading addresses

An address of version 4 is four decimal octets between dots.  An address of
version 6 is eight hexadecimal groups between colons; the last two may be
written as an address of version 4, and two colons side by side may stand, once,
for one or more groups of zeros.  Nothing may stand before or behind.
-/

namespace AccessPolicy

namespace IPv4Address

/-- Read an octet: at most three digits, no zero in front of others, at most
255. -/
def octet? (text : List Char) : Option UInt8 :=
  if text.length ≤ 3 ∧ (text.length ≤ 1 ∨ text.head? ≠ some '0') then
    (Text.number? 10 text).bind fun number =>
      if number < 256 then some (UInt8.ofNat number) else none
  else none

/-- Read an address of version 4. -/
def read? (text : List Char) : Option IPv4Address :=
  ((Text.segments '.' text).mapM octet?).bind ofOctets?

end IPv4Address

namespace IPv6Address

/-- Read a group: one to four hexadecimal digits. -/
def group? (text : List Char) : Option UInt16 :=
  if text.length ≤ 4 then (Text.number? 16 text).map UInt16.ofNat else none

/-- Read the groups of some parts, the last of which may be an address of
version 4. -/
def groupsOrQuad? : List (List Char) → Option (List UInt16)
  | [] => some []
  | [last] =>
      match IPv4Address.read? last with
      | some quad => some quad.asGroups
      | none => (group? last).map ([·])
  | part :: next :: rest => do
      let group ← group? part
      let groups ← groupsOrQuad? (next :: rest)
      some (group :: groups)

/-- The parts between the colons; an empty text has none. -/
def colonParts (text : List Char) : List (List Char) :=
  if text.isEmpty then [] else Text.segments ':' text

/-- The texts before and behind the first two colons that stand side by
side. -/
def splitAtGap? : List Char → Option (List Char × List Char)
  | [] => none
  | ':' :: ':' :: behind => some ([], behind)
  | c :: rest =>
      (splitAtGap? rest).map fun (before, behind) => (c :: before, behind)

/-- Read an address of version 6. -/
def read? (text : List Char) : Option IPv6Address :=
  match splitAtGap? text with
  | none => (groupsOrQuad? (colonParts text)).bind ofGroups?
  | some (before, behind) => do
      let head ← (colonParts before).mapM group?
      let tail ← groupsOrQuad? (colonParts behind)
      aroundGap? head tail

end IPv6Address

namespace IpAddress

/-- Read an address of either version. -/
def read? (text : List Char) : Option IpAddress :=
  match IPv4Address.read? text with
  | some address => some (.v4 address)
  | none => (IPv6Address.read? text).map .v6

/-- The address that a text spells, if it spells one. -/
def ofString? (text : String) : Option IpAddress :=
  read? text.toList

end IpAddress

end AccessPolicy
