import AccessPolicy.Visibility.Evaluator

/-!
# Administrators who own an item

The decision that shows a field to the administrators among the owners of an
item.  Two collaborators are asked, the second only when the first has said
yes: whether the principal is an administrator, and which values name the
owners.  A collaborator that does not answer is reported and never read as a
yes.
-/

namespace AccessPolicy

/-- Answers whether a principal is an administrator. -/
abbrev AdministratorService := Principal → Except RetrievalFault Bool

namespace AdministratorService

/-- The service that knows the identifiers of all administrators. -/
def roster (ids : List PrincipalId) : AdministratorService :=
  fun principal => .ok (ids.contains principal.id)

/-- The service that gives one answer to all. -/
def always (answer : Bool) : AdministratorService :=
  fun _ => .ok answer

/-- The service that cannot be reached. -/
def unavailable (fault : RetrievalFault) : AdministratorService :=
  fun _ => .error fault

end AdministratorService

/-- Answers which values an item has in a schema and an element. -/
abbrev ValueStore := Item → String → String → Except RetrievalFault (List FieldValue)

namespace ValueStore

/-- The store that reads the values on the item itself. -/
def loaded : ValueStore :=
  fun item schema element => .ok (item.valuesOf schema element)

/-- The store that finds the same values everywhere. -/
def fixed (values : List FieldValue) : ValueStore :=
  fun _ _ _ => .ok values

/-- The store that cannot be reached. -/
def unavailable (fault : RetrievalFault) : ValueStore :=
  fun _ _ _ => .error fault

end ValueStore

/-- Whether a value names a principal as its authority. -/
def FieldValue.namesOwner (value : FieldValue) (id : PrincipalId) : Bool :=
  value.authority.any id.matchesAuthority

@[simp]
theorem FieldValue.namesOwner_eq_true_iff {value : FieldValue}
    {id : PrincipalId} :
    value.namesOwner id = true ↔ value.authority = some id.text := by
  rcases h : value.authority with _ | authority <;> simp [namesOwner, h]

/-- The two collaborators of the decision about ownership. -/
structure Ownership where
  administrators : AdministratorService
  store : ValueStore

namespace Ownership

/-- Whether the field may be shown to the principal as an administrator who
owns the item.  The field itself plays no part. -/
def decide (ownership : Ownership) (query : Query) : Reply :=
  match query.principal with
  | none => { verdict := .ok false }
  | some principal =>
      let asked := Call.administrator principal.id
      match ownership.administrators principal with
      | .error fault => { verdict := .error (.retrieval fault), calls := [asked] }
      | .ok false => { verdict := .ok false, calls := [asked] }
      | .ok true =>
          let looked := Call.values query.item.id FieldName.ownerSchema
            FieldName.ownerElement
          let owners := ownership.store query.item FieldName.ownerSchema
            FieldName.ownerElement
          { verdict :=
              match owners with
              | .error fault => .error (.retrieval fault)
              | .ok values => .ok (values.any (·.namesOwner principal.id))
            calls := [asked, looked] }

/-- The decision as an evaluator. -/
def evaluator (ownership : Ownership) : Evaluator :=
  Evaluator.steady ownership.decide

/-- How the decision is shown: its collaborators stay hidden. -/
def description : String :=
  "OwnerAdminEvaluator \x7b .. \x7d"

/-- The decision over a roster and the values on the item. -/
def ofRoster (ids : List PrincipalId) : Ownership where
  administrators := .roster ids
  store := .loaded

end Ownership

end AccessPolicy
