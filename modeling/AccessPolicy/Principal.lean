/-!
# Principals

Who makes a request.  A principal is known by its identifier; the display name
is carried along and decides nothing.
-/

namespace AccessPolicy

/-- The identifier of a principal, compared character by character. -/
structure PrincipalId where
  text : String
  deriving DecidableEq, Repr

/-- Whether an authority recorded on a value is this identifier. -/
def PrincipalId.matchesAuthority (id : PrincipalId) (authority : String) : Bool :=
  id.text == authority

@[simp]
theorem PrincipalId.matchesAuthority_eq_true_iff {id : PrincipalId}
    {authority : String} :
    id.matchesAuthority authority = true ↔ authority = id.text := by
  rw [matchesAuthority, beq_iff_eq]
  exact eq_comm

/-- The party on whose behalf a request is made. -/
structure Principal where
  id : PrincipalId
  /-- How the principal is shown; no decision reads it. -/
  name : String
  deriving DecidableEq, Repr

end AccessPolicy
