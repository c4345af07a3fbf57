import AccessPolicy.Visibility.Policy

/-!
# The values that a principal may see

An open value is shown to everyone.  A restricted value is shown when its level
has an evaluator and that evaluator allows its field; a level without an
evaluator hides its values.  One walk over an item asks about each pair of level
and field once and remembers what it was told, so that two values of one field
at one level are shown together or not at all.  The first error ends the walk,
and nothing is shown.
-/

namespace AccessPolicy

/-- A question put to the evaluator of a level, and its reply. -/
structure Consultation where
  level : Level
  query : Query
  reply : Reply

/-- A value together with its index in the item. -/
abbrev IndexedValue := FieldValue × Nat

/-- What comes of one walk over an item. -/
structure Visibility where
  /-- The values to be shown, in item order. -/
  result : Except AccessError (List IndexedValue)
  /-- The questions asked on the way, in order. -/
  trace : List Consultation
  /-- The policy afterwards, its evaluators having been asked. -/
  policy : VisibilityPolicy

namespace Visibility

/-- The calls made on the way, in order. -/
def calls (outcome : Visibility) : List Call :=
  outcome.trace.flatMap (·.reply.calls)

/-- Show a value in front of all others, if it is allowed. -/
def showFirst (allowed : Bool) (value : IndexedValue) (outcome : Visibility) :
    Visibility :=
  if allowed then { outcome with result := outcome.result.map (value :: ·) }
  else outcome

/-- Put a question in front of all others. -/
def askedFirst (consultation : Consultation) (outcome : Visibility) :
    Visibility :=
  { outcome with trace := consultation :: outcome.trace }

end Visibility

/-- What was decided for pairs of level and field. -/
abbrev Decisions := List ((Level × FieldName) × Bool)

namespace VisibilityPolicy

/-- Walk over the remaining values of an item, with the decisions made so
far. -/
def walk (principal : Option Principal) (item : Item) :
    List IndexedValue → Decisions → VisibilityPolicy → Visibility
  | [], _, policy => { result := .ok [], trace := [], policy := policy }
  | value :: rest, decided, policy =>
      match value.1.restriction? with
      | none => (walk principal item rest decided policy).showFirst true value
      | some level =>
          match policy.evaluator? level with
          | none => walk principal item rest decided policy
          | some evaluator =>
              match decided.lookup (level, value.1.field) with
              | some allowed =>
                  (walk principal item rest decided policy).showFirst
                    allowed value
              | none =>
                  let query := { principal, item, field := value.1.field }
                  let (reply, evaluator) := evaluator.ask query
                  let policy := policy.register level evaluator
                  let consultation := { level, query, reply }
                  match reply.verdict with
                  | .error error =>
                      { result := .error error
                        trace := [consultation]
                        policy := policy }
                  | .ok allowed =>
                      let decided :=
                        ((level, value.1.field), allowed) :: decided
                      ((walk principal item rest decided policy).showFirst
                        allowed value).askedFirst consultation

/-- The values of an item that a principal may see. -/
def visible (policy : VisibilityPolicy) (principal : Option Principal)
    (item : Item) : Visibility :=
  walk principal item item.values.zipIdx [] policy

/-- The values that each of several principals may see, asked one after the
other of one policy. -/
def visibleInTurn (policy : VisibilityPolicy) (item : Item) :
    List (Option Principal) → List Visibility
  | [] => []
  | principal :: others =>
      let outcome := policy.visible principal item
      outcome :: visibleInTurn outcome.policy item others

end VisibilityPolicy

end AccessPolicy
