/-!
# Addresses of the Internet Protocol

An address of version 4 is four octets, one of version 6 is eight groups of
sixteen bits.  An address of version 6 whose first five groups are zero and
whose sixth is `ffff` carries an address of version 4 and is the same as that
one wherever the host counts, not the spelling.
-/

namespace AccessPolicy

/-- An address of version 4, octet by octet. -/
structure IPv4Address where
  first : UInt8
  second : UInt8
  third : UInt8
  fourth : UInt8
  deriving DecidableEq, Repr

/-- An address of version 6, as its eight groups. -/
structure IPv6Address where
  groups : List UInt16
  length_groups : groups.length = 8
  deriving DecidableEq, Repr

/-- An address of either version. -/
inductive IpAddress where
  | v4 (address : IPv4Address)
  | v6 (address : IPv6Address)
  deriving DecidableEq, Repr

namespace IPv4Address

/-- The octets in their order. -/
def octets (address : IPv4Address) : List UInt8 :=
  [address.first, address.second, address.third, address.fourth]

/-- The address with the given octets, if there are four of them. -/
def ofOctets? : List UInt8 → Option IPv4Address
  | [first, second, third, fourth] => some ⟨first, second, third, fourth⟩
  | _ => none

@[simp]
theorem ofOctets?_octets (address : IPv4Address) :
    ofOctets? address.octets = some address :=
  rfl

/-- The host itself is every address whose first octet is 127. -/
def isLoopback (address : IPv4Address) : Bool :=
  address.first == 127

/-- The group of sixteen bits made of two octets, the higher one first. -/
def joinOctets (high low : UInt8) : UInt16 :=
  UInt16.ofNat (256 * high.toNat + low.toNat)

/-- The two groups in which an address of version 6 carries this one. -/
def asGroups (address : IPv4Address) : List UInt16 :=
  [joinOctets address.first address.second,
    joinOctets address.third address.fourth]

/-- The address carried by two groups. -/
def ofGroups (high low : UInt16) : IPv4Address where
  first := UInt8.ofNat (high.toNat / 256)
  second := UInt8.ofNat (high.toNat % 256)
  third := UInt8.ofNat (low.toNat / 256)
  fourth := UInt8.ofNat (low.toNat % 256)

/-- What is carried by the groups of an address is the address. -/
theorem ofGroups_joinOctets (address : IPv4Address) :
    ofGroups (joinOctets address.first address.second)
      (joinOctets address.third address.fourth) = address := by
  have parts (high low : UInt8) :
      UInt8.ofNat ((joinOctets high low).toNat / 256) = high ∧
        UInt8.ofNat ((joinOctets high low).toNat % 256) = low := by
    have h := high.toNat_lt
    have l := low.toNat_lt
    have whole : (joinOctets high low).toNat = 256 * high.toNat + low.toNat := by
      simp only [joinOctets, UInt16.toNat_ofNat']
      omega
    rw [whole]
    constructor <;> apply UInt8.toNat_inj.mp <;>
      simp only [UInt8.toNat_ofNat'] <;> omega
  cases address
  simp [ofGroups, parts]

end IPv4Address

namespace IPv6Address

/-- The address with the given groups, if there are eight of them. -/
def ofGroups? (groups : List UInt16) : Option IPv6Address :=
  if eight : groups.length = 8 then some ⟨groups, eight⟩ else none

@[simp]
theorem ofGroups?_groups (address : IPv6Address) :
    ofGroups? address.groups = some address := by
  simp [ofGroups?, address.length_groups]

/-- The address that begins with some groups, ends with others and has zeros
between, if at least one group is left for the zeros. -/
def aroundGap? (head tail : List UInt16) : Option IPv6Address :=
  if head.length + tail.length < 8 then
    ofGroups? (head ++
      List.replicate (8 - (head.length + tail.length)) 0 ++ tail)
  else none

/-- The address of version 4 that this one carries, if it carries one. -/
def carried? (address : IPv6Address) : Option IPv4Address :=
  match address.groups with
  | [0, 0, 0, 0, 0, 0xFFFF, high, low] => some (IPv4Address.ofGroups high low)
  | _ => none

/-- The host itself is the address whose last group is one and whose others
are zero. -/
def isLoopback (address : IPv6Address) : Bool :=
  address.groups == [0, 0, 0, 0, 0, 0, 0, 1]

end IPv6Address

namespace IpAddress

/-- The same host in its shorter version, where there is one. -/
def canonical : IpAddress → IpAddress
  | .v4 address => .v4 address
  | .v6 address =>
      match address.carried? with
      | some inner => .v4 inner
      | none => .v6 address

/-- Whether an address, taken as it stands, is one of the host itself. -/
def isLiteralLoopback : IpAddress → Bool
  | .v4 address => address.isLoopback
  | .v6 address => address.isLoopback

/-- Whether an address is one of the host itself, in whatever version it is
given. -/
def isLoopback (address : IpAddress) : Bool :=
  address.canonical.isLiteralLoopback

def isV6 : IpAddress → Bool
  | .v4 _ => false
  | .v6 _ => true

end IpAddress

end AccessPolicy
