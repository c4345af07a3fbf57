import AccessPolicy.Fault
import AccessPolicy.Metadata.Item
import AccessPolicy.Principal

/-!
# Evaluators

An evaluator says whether a field of an item may be shown to a principal.  It
may change its mind: an answer may depend on everything that the evaluator has
been asked before.  So an evaluator is the list of its past questions together
with a function that answers the next one, and asking gives the answer and the
evaluator as it is afterwards.

An answer comes with the calls that were made to reach it, in order.
-/

namespace AccessPolicy

/-- The question whether a field of an item may be shown. -/
structure Query where
  /-- Who asks; none for an anonymous request. -/
  principal : Option Principal
  item : Item
  field : FieldName
  deriving DecidableEq, Repr

/-- A call made while a question was being decided. -/
inductive Call where
  /-- The administrator service was asked about a principal. -/
  | administrator (id : PrincipalId)
  /-- The store was asked for the values of a schema and an element. -/
  | values (itemId schema element : String)
  /-- A rehearsed evaluator was asked. -/
  | rehearsal (level : Level) (principal : Option PrincipalId)
      (itemId : String) (field : FieldName)
  deriving DecidableEq, Repr

/-- One line that tells of a call. -/
def Call.text : Call → String
  | .administrator id => s!"authz {id.text}"
  | .values itemId schema element => s!"store {itemId} {schema} {element}"
  | .rehearsal level principal itemId field =>
      let asker := (principal.map PrincipalId.text).getD "-"
      s!"eval {level.rank.toNat} {asker} {itemId} {field.dotted}"

/-- What an evaluator answers, and the calls that it took. -/
structure Reply where
  verdict : Except AccessError Bool
  calls : List Call := []

/-- A decision that may depend on the questions asked before. -/
structure Evaluator where
  /-- The questions asked so far, the newest first. -/
  past : List Query
  /-- The answer to a question, given those asked before it. -/
  answer : List Query → Query → Reply

namespace Evaluator

/-- Ask a question; the evaluator remembers it. -/
def ask (evaluator : Evaluator) (query : Query) : Reply × Evaluator :=
  (evaluator.answer evaluator.past query,
    { evaluator with past := query :: evaluator.past })

/-- The evaluator that answers every question by itself, whatever was asked
before. -/
def steady (decide : Query → Reply) : Evaluator where
  past := []
  answer := fun _ query => decide query

/-- The evaluator that gives prepared answers one after the other, and refuses
when there are none left. -/
def rehearsed (level : Level) (answers : List (Except AccessError Bool)) :
    Evaluator where
  past := []
  answer := fun past query =>
    { verdict := answers[past.length]?.getD (.ok false)
      calls := [.rehearsal level (query.principal.map Principal.id)
        query.item.id query.field] }

/-- An evaluator is steady when its answers never depend on the past. -/
def IsSteady (evaluator : Evaluator) : Prop :=
  ∃ decide : Query → Reply, ∀ past query,
    evaluator.answer past query = decide query

theorem isSteady_steady (decide : Query → Reply) : (steady decide).IsSteady :=
  ⟨decide, fun _ _ => rfl⟩

end Evaluator

end AccessPolicy
