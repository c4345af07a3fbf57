import AccessPolicy.Visibility.Filter
import AccessPolicy.Visibility.Ownership

/-!
# The item side of a session

A session holds one item and one visibility policy.  Steps change the item, ask
for its values, replace the policy or ask what a principal may see.
-/

namespace AccessPolicy.Session

/-- What is said about a value besides its field and its text. -/
structure Details where
  /-- The place, if it is not to be the next one in the field. -/
  place : Option Nat := none
  language : Option String := none
  authority : Option String := none
  confidence : Option Int := none
  level : Option Level := none
  deriving DecidableEq, Repr

/-- A new value with the details set on it. -/
def Details.applyTo (details : Details) (value : FieldValue) : FieldValue :=
  { value with
    place := details.place.getD value.place
    language := details.language
    authority := details.authority
    confidence := details.confidence
    level := details.level }

/-- On whose behalf a question is asked. -/
inductive Asker where
  /-- A principal that is named, or nobody. -/
  | named (principal : Option Principal)
  /-- The principal of the latest request, if it has passed the gate. -/
  | ofContext
  deriving DecidableEq, Repr

/-- The principal behind an asker, given the one of the latest request. -/
def Asker.principal (asker : Asker) (ofContext : Option Principal) :
    Option Principal :=
  match asker with
  | .named principal => principal
  | .ofContext => ofContext

/-- The state of the item side. -/
structure ItemState where
  item : Item
  policy : VisibilityPolicy

/-- A step on the item side. -/
inductive ItemStep where
  | newItem (id : String)
  | addValue (field : FieldName) (text : String) (details : Details)
  | addOwner (display owner : String)
  /-- Append a value as it is. -/
  | push (value : FieldValue)
  | remove (index : Nat)
  /-- Show the item. -/
  | dump
  | lookup (schema element : String)
  /-- Replace the policy by one made by registrations. -/
  | setPolicy (registrations : List (Level × Evaluator))
  /-- Ask which values may be seen. -/
  | visible (asker : Asker)
  /-- Ask one decision about ownership. -/
  | decide (ownership : Ownership) (asker : Asker) (field : FieldName)

/-- What a step on the item side answers. -/
inductive ItemAnswer where
  | created (id : String)
  /-- A value was added; the number of values and the last of them. -/
  | added (count : Nat) (last : FieldValue)
  /-- A value was removed; the number of values left, and the value. -/
  | removed (count : Nat) (value : FieldValue)
  | noValueAt (index : Nat)
  | contents (item : Item)
  | found (values : List FieldValue)
  | policy (description : String)
  | shown (outcome : Visibility)
  | decided (reply : Reply)

namespace ItemState

/-- The item side before the first step. -/
def start : ItemState where
  item := { id := "item" }
  policy := .empty

/-- Append a value and answer with it. -/
def add (state : ItemState) (value : FieldValue) : ItemAnswer × ItemState :=
  let item := state.item.append value
  (.added item.values.length value, { state with item := item })

/-- Do one step, given the principal of the latest request. -/
def step (ofContext : Option Principal) (state : ItemState) :
    ItemStep → ItemAnswer × ItemState
  | .newItem id => (.created id, { state with item := { id := id } })
  | .addValue field text details =>
      state.add (details.applyTo (state.item.nextValue field text))
  | .addOwner display owner => state.add (state.item.ownerValue display owner)
  | .push value => state.add value
  | .remove index =>
      match state.item.values[index]? with
      | none => (.noValueAt index, state)
      | some value =>
          let item := state.item.removeAt index
          (.removed item.values.length value, { state with item := item })
  | .dump => (.contents state.item, state)
  | .lookup schema element =>
      (.found (state.item.valuesOf schema element), state)
  | .setPolicy registrations =>
      let policy := VisibilityPolicy.ofRegistrations registrations
      (.policy policy.description, { state with policy := policy })
  | .visible asker =>
      let outcome := state.policy.visible (asker.principal ofContext) state.item
      (.shown outcome, { state with policy := outcome.policy })
  | .decide ownership asker field =>
      (.decided (ownership.decide
        { principal := asker.principal ofContext
          item := state.item
          field := field }), state)

end ItemState

end AccessPolicy.Session
