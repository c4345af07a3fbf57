import AccessPolicy.Peer.Resolver

/-!
# Host directories

A table of hosts together with exceptions to it.  An exception holds for
exactly one text, even one that spells an address, and says either which
address that host has or why it has none.  A newer exception replaces an older
one.
-/

namespace AccessPolicy

/-- What a directory says about a host in spite of its table. -/
inductive HostException where
  | resolves (address : IpAddress)
  | fails (reason : String)
  deriving DecidableEq, Repr

/-- The answer to a resolution that meets an exception. -/
def HostException.answer (host : String) :
    HostException → Except ResolutionFault IpAddress
  | .resolves address => .ok address
  | .fails reason => .error { host := host, reason := reason }

/-- A host table with exceptions, the newest exception first. -/
structure HostDirectory where
  table : HostTable
  exceptions : List (String × HostException)
  deriving DecidableEq, Repr

namespace HostDirectory

def empty : HostDirectory where
  table := .empty
  exceptions := []

/-- Add an entry to the table. -/
def addHost (directory : HostDirectory) (host : String) (address : IpAddress) :
    HostDirectory :=
  { directory with table := directory.table.add host address }

/-- Make an exception for a host. -/
def addException (directory : HostDirectory) (host : String)
    (exception : HostException) : HostDirectory :=
  { directory with exceptions := (host, exception) :: directory.exceptions }

/-- The resolver that looks at the exceptions first and then at the table. -/
def resolver (directory : HostDirectory) : Resolver :=
  fun host =>
    match directory.exceptions.lookup host with
    | some exception => exception.answer host
    | none => directory.table.resolver host

end HostDirectory

end AccessPolicy
