import AccessPolicy.Fault
import AccessPolicy.Peer.IpAddress.Reader

/-!
# Resolvers

A resolver gives the address of a host or says why there is none.  A text that
spells an address is that address, whatever else the resolver knows.
-/

namespace AccessPolicy

/-- Gives a host its address. -/
abbrev Resolver := String → Except ResolutionFault IpAddress

/-- The resolver that takes address texts for themselves and leaves all other
hosts to another one. -/
def Resolver.literalFirst (others : Resolver) : Resolver :=
  fun host =>
    match IpAddress.ofString? host with
    | some address => .ok address
    | none => others host

theorem Resolver.literalFirst_of_spelled {host : String} {address : IpAddress}
    (spelled : IpAddress.ofString? host = some address) (others : Resolver) :
    literalFirst others host = .ok address := by
  simp [literalFirst, spelled]

theorem Resolver.literalFirst_of_not_spelled {host : String}
    (notSpelled : IpAddress.ofString? host = none) (others : Resolver) :
    literalFirst others host = others host := by
  simp [literalFirst, notSpelled]

/-- A fixed table of hosts.  Of several entries for one host the newest
counts. -/
structure HostTable where
  /-- The entries, the newest first. -/
  entries : List (String × IpAddress)
  deriving DecidableEq, Repr

namespace HostTable

def empty : HostTable where
  entries := []

/-- Give a host an address. -/
def add (table : HostTable) (host : String) (address : IpAddress) : HostTable where
  entries := (host, address) :: table.entries

/-- The table filled by entries in their order. -/
def ofEntries (entries : List (String × IpAddress)) : HostTable :=
  entries.foldl (fun table (host, address) => table.add host address) empty

/-- The address that the table has under exactly this text. -/
def address? (table : HostTable) (host : String) : Option IpAddress :=
  table.entries.lookup host

/-- The reason given for a host that is not in the table. -/
def unknownHost : String := "unknown host"

/-- The resolver over a table. -/
def resolver (table : HostTable) : Resolver :=
  Resolver.literalFirst fun host =>
    match table.address? host with
    | some address => .ok address
    | none => .error { host := host, reason := unknownHost }

@[simp]
theorem address?_empty (host : String) : empty.address? host = none :=
  rfl

theorem address?_add (table : HostTable) (host other : String)
    (address : IpAddress) :
    (table.add host address).address? other =
      if other = host then some address else table.address? other := by
  by_cases equal : other = host
  · simp [address?, add, equal]
  · have differs : (other == host) = false := beq_eq_false_iff_ne.mpr equal
    simp [address?, add, List.lookup_cons, differs, equal]

end HostTable

/-- A service that knows the addresses of hosts, the preferred one first. -/
abbrev NameService := String → Except String (List IpAddress)

/-- The resolver over a name service.  A host with a NUL character is refused
without a look-up. -/
def NameService.resolver (service : NameService) : Resolver :=
  Resolver.literalFirst fun host =>
    if '\x00' ∈ host.toList then
      .error { host := host, reason := "file name contained an unexpected NUL byte" }
    else
      match service host with
      | .error reason => .error { host := host, reason := reason }
      | .ok [] => .error { host := host, reason := "no addresses returned" }
      | .ok (address :: _) => .ok address

/-- The name service of a host without a network.  The words are what it says to
every question. -/
def NameService.offline (words : String := "") : NameService :=
  fun _ => .error words

end AccessPolicy
