import AccessPolicy.Peer.IpAddress
import AccessPolicy.Text.Digits
import AccessPolicy.Text.Segments

/-!
# Writing addresses

An address of version 4 is written in decimal octets.  An address of version 6
is written in lower case hexadecimal groups without leading zeros, and its
longest run of two or more zero groups, the first of the longest, as two
colons.  An address of version 6 that carries one of version 4 shows that one
in its own form.
-/

namespace AccessPolicy

/-- An address of version 4 in decimal octets. -/
def IPv4Address.written (address : IPv4Address) : List Char :=
  Text.joined '.' (address.octets.map fun octet => Text.digits 10 octet.toNat)

namespace IPv6Address

/-- The number of zero groups in a row from an index on. -/
def zeroRun (groups : List UInt16) (start : Nat) : Nat :=
  ((groups.drop start).takeWhile (· == 0)).length

/-- The index at which the longest row of zero groups begins, the first such
index if there are several. -/
def longestZeroRun (groups : List UInt16) : Nat :=
  (List.range groups.length).foldl (fun best start =>
    if zeroRun groups best < zeroRun groups start then start else best) 0

/-- Groups between colons. -/
def writtenGroups (groups : List UInt16) : List Char :=
  Text.joined ':' (groups.map fun group => Text.digits 16 group.toNat)

/-- An address of version 6 in hexadecimal groups. -/
def written (address : IPv6Address) : List Char :=
  match address.carried? with
  | some inner => "::ffff:".toList ++ inner.written
  | none =>
      let start := longestZeroRun address.groups
      let length := zeroRun address.groups start
      if 1 < length then
        writtenGroups (address.groups.take start) ++ [':', ':'] ++
          writtenGroups (address.groups.drop (start + length))
      else writtenGroups address.groups

end IPv6Address

namespace IpAddress

/-- The characters of an address in the form in which it is listed. -/
def written : IpAddress → List Char
  | .v4 address => address.written
  | .v6 address => address.written

/-- The form in which an address is listed. -/
def text (address : IpAddress) : String :=
  String.ofList address.written

end IpAddress

end AccessPolicy
