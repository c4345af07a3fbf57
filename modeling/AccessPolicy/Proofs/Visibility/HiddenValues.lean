import AccessPolicy.Proofs.Visibility.OwnerAdministrators

/-!
# What hidden values give away

To a principal from whom a value is hidden, the value might as well not be there
or say something else: under a policy of rosters the principal sees the same
values.  The one exception are the values that name the owners of the item,
which decide who sees the others even where they are hidden themselves.

Whether a policy of rosters shows a value depends on its field, on its level and
on the owners.  So both what is shown and who owns the item are found by keeping
the values of some fields and levels, and such a choice does not notice a change
to values that it leaves out.
-/

namespace AccessPolicy

/-- Other values written for those of an item.  Each value may be left as it is;
one that is free may be dropped, or replaced by any other in its field and at
its level. -/
inductive Rewriting (isFree : IndexedValue → Prop) :
    List IndexedValue → List FieldValue → Prop
  | nil : Rewriting isFree [] []
  | leave {values : List IndexedValue} {others : List FieldValue}
      (value : IndexedValue) (later : Rewriting isFree values others) :
      Rewriting isFree (value :: values) (value.1 :: others)
  | drop {values : List IndexedValue} {others : List FieldValue} {value : IndexedValue}
      (free : isFree value) (later : Rewriting isFree values others) :
      Rewriting isFree (value :: values) others
  | replace {values : List IndexedValue} {others : List FieldValue}
      {value : IndexedValue} {other : FieldValue} (free : isFree value)
      (sameField : other.field = value.1.field) (sameLevel : other.level = value.1.level)
      (later : Rewriting isFree values others) :
      Rewriting isFree (value :: values) (other :: others)

namespace Rewriting

variable {isFree : IndexedValue → Prop} {values : List IndexedValue}
  {others : List FieldValue}

/-- A choice that leaves out every value in the field and at the level of a free
one does not notice what becomes of the free values. -/
theorem filter_eq (rewriting : Rewriting isFree values others) (keep : FieldValue → Bool)
    (ignores : ∀ value ∈ values, isFree value → ∀ other : FieldValue,
      other.field = value.1.field → other.level = value.1.level → ¬keep other = true) :
    others.filter keep = (values.map Prod.fst).filter keep := by
  induction rewriting with
  | nil => rfl
  | leave value _ ih =>
      have later := ih (List.forall_mem_cons.mp ignores).2
      rw [List.map_cons, List.filter_cons, List.filter_cons, later]
  | @drop _ _ value free _ ih =>
      obtain ⟨ignoresFirst, ignoresLater⟩ := List.forall_mem_cons.mp ignores
      rw [List.map_cons, List.filter_cons_of_neg (ignoresFirst free value.1 rfl rfl),
        ih ignoresLater]
  | @replace _ _ value other free sameField sameLevel _ ih =>
      obtain ⟨ignoresFirst, ignoresLater⟩ := List.forall_mem_cons.mp ignores
      rw [List.map_cons, List.filter_cons_of_neg (ignoresFirst free value.1 rfl rfl),
        List.filter_cons_of_neg (ignoresFirst free other sameField sameLevel),
        ih ignoresLater]

end Rewriting

/-- Whether a value may be changed unnoticed by someone who is shown some values:
it is not among them, and it does not name an owner. -/
def IsFreeBeside (shown : List IndexedValue) (value : IndexedValue) : Prop :=
  value ∉ shown ∧ ¬(value.1.field.schema = "cris" ∧ value.1.field.element = "owner")

/-- The owners of an item are found among its owner values, which are not free. -/
theorem Item.isOwnedBy_of_rewriting {item : Item} {shown : List IndexedValue}
    {others : List FieldValue}
    (rewriting : Rewriting (IsFreeBeside shown) item.values.zipIdx others)
    (id : PrincipalId) :
    Item.isOwnedBy { item with values := others } id = item.isOwnedBy id := by
  have sameOwnerValues := rewriting.filter_eq
    (·.field.belongsTo FieldName.ownerSchema FieldName.ownerElement) <| by
      intro value _ free other sameField _ isOwner
      rw [sameField, FieldName.belongsTo_eq_true_iff] at isOwner
      exact free.2 isOwner
  rw [List.zipIdx_map_fst] at sameOwnerValues
  rw [isOwnedBy, isOwnedBy, ← List.any_filter, ← List.any_filter, sameOwnerValues]

namespace VisibilityPolicy

variable {rosters : List (Level × List PrincipalId)} {principal : Option Principal}
  {item : Item}

/-- Whether a value is shown depends on its level and on the owners. -/
theorem rostersShow_congr {first second : Item} {value other : FieldValue}
    (sameOwners : ∀ id, first.isOwnedBy id = second.isOwnedBy id)
    (sameLevel : value.level = other.level) :
    rostersShow rosters principal first value =
      rostersShow rosters principal second other := by
  simp only [rostersShow, FieldValue.restriction?, sameOwners, sameLevel]

theorem map_fst_filter_zipIdx (keep : FieldValue → Bool) (values : List FieldValue) :
    (values.zipIdx.filter fun value => keep value.1).map Prod.fst = values.filter keep := by
  rw [← Function.comp_def, ← List.filter_map, List.zipIdx_map_fst]

/-- Hidden values do not influence what is seen.

Under a policy of rosters, whatever it was asked before, a principal is always
shown some values of an item.  Of the values that are not shown and do not name
an owner, drop any and replace the text, the language, the authority, the
confidence and the place of any: the principal is shown the same values in the
same order. -/
theorem visible_of_rewriting (rosters : List (Level × List PrincipalId))
    (principal : Option Principal) (item : Item) :
    ∃ shown,
      (∀ policy : VisibilityPolicy, policy.Continues (ofRosters rosters) →
        (policy.visible principal item).result = .ok shown) ∧
      ∀ others, Rewriting (IsFreeBeside shown) item.values.zipIdx others →
        ∀ policy : VisibilityPolicy, policy.Continues (ofRosters rosters) →
          ∃ shownOthers,
            (policy.visible principal { item with values := others }).result =
              .ok shownOthers ∧
            shownOthers.map Prod.fst = shown.map Prod.fst := by
  let shown := item.values.zipIdx.filter fun value =>
    rostersShow rosters principal item value.1
  refine ⟨shown, fun policy continues =>
    result_visible_of_continues_ofRosters continues, ?_⟩
  intro others rewriting policy continues
  refine ⟨_, result_visible_of_continues_ofRosters continues, ?_⟩
  have hidden : ∀ value ∈ item.values.zipIdx, IsFreeBeside shown value →
      ∀ other : FieldValue, other.field = value.1.field → other.level = value.1.level →
        ¬rostersShow rosters principal item other = true := by
    intro value member free other _ sameLevel shows
    rw [rostersShow_congr (fun _ => rfl) sameLevel] at shows
    exact free.1 (List.mem_filter.mpr ⟨member, shows⟩)
  have sameRule : rostersShow rosters principal { item with values := others } =
      rostersShow rosters principal item := by
    funext value
    exact rostersShow_congr (Item.isOwnedBy_of_rewriting rewriting) rfl
  calc
    _ = others.filter (rostersShow rosters principal { item with values := others }) :=
      map_fst_filter_zipIdx _ _
    _ = item.values.filter (rostersShow rosters principal item) := by
      rw [sameRule, rewriting.filter_eq _ hidden, List.zipIdx_map_fst]
    _ = shown.map Prod.fst := (map_fst_filter_zipIdx _ _).symm

/-- An owner who is named by a value that she does not see herself.  One hidden
value is dropped and another says something else; she is shown the open value
and her own note as before. -/
theorem visible_of_dropped_and_replaced :
    let alice : Principal := { id := ⟨"7"⟩, name := "Alice" }
    let rosters : List (Level × List PrincipalId) := [(⟨2⟩, [⟨"7"⟩]), (⟨5⟩, [⟨"8"⟩])]
    let policy := ofRosters rosters
    let note : FieldName := { schema := "dc", element := "note" }
    let owner : FieldValue :=
      { field := { schema := "cris", element := "owner", qualifier := some "main" }
        text := "Alice", authority := some "7", level := some ⟨9⟩ }
    let title : FieldValue := { field := { schema := "dc", element := "title" }, text := "open" }
    let draft : FieldValue := { field := note, text := "draft", level := some ⟨2⟩ }
    let review : FieldValue := { field := note, text := "reject", level := some ⟨5⟩ }
    let other : FieldValue :=
      { field := note, text := "accept", authority := some "7", place := 4, level := some ⟨5⟩ }
    let item : Item := { id := "item", values := [owner, title, review, draft, review] }
    let others := [owner, title, draft, other]
    policy.Continues (ofRosters rosters) ∧
      (policy.visible (some alice) item).result = .ok [(title, 1), (draft, 3)] ∧
      Rewriting (IsFreeBeside [(title, 1), (draft, 3)]) item.values.zipIdx others ∧
      ∃ shown,
        (policy.visible (some alice) { item with values := others }).result = .ok shown ∧
          shown.map Prod.fst = [title, draft] := by
  intro alice rosters policy note owner title draft review other item others
  obtain ⟨shown, shows, unnoticed⟩ := visible_of_rewriting rosters (some alice) item
  have continues : policy.Continues (ofRosters rosters) := Continues.refl policy
  have before : (policy.visible (some alice) item).result =
      .ok [(title, 1), (draft, 3)] := by
    rw [result_visible_of_continues_ofRosters continues]
    rfl
  obtain rfl : [(title, 1), (draft, 3)] = shown :=
    Except.ok.inj (before.symm.trans (shows policy continues))
  have freeAt (index : Nat) (hidden : index ≠ 1 ∧ index ≠ 3) :
      IsFreeBeside [(title, 1), (draft, 3)] (review, index) := by
    simp [IsFreeBeside, hidden, review, note]
  have rewriting : Rewriting (IsFreeBeside [(title, 1), (draft, 3)])
      item.values.zipIdx others :=
    .leave _ (.leave _ (.drop (freeAt 2 (by decide)) (.leave _
      (.replace (freeAt 4 (by decide)) rfl rfl .nil))))
  exact ⟨continues, before, rewriting, unnoticed others rewriting policy continues⟩

end VisibilityPolicy

end AccessPolicy
