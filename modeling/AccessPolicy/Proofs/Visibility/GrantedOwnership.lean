import AccessPolicy.Proofs.Visibility.OwnerAdministrators
import Mathlib.Data.List.Forall2

/-!
# Granting ownership

Recording an owner adds an open value to an item and one name to its owners.
Under a policy of rosters everybody sees the new value, and apart from it only
the new owner sees more than before: all that the rosters with this owner open.

Behind this is one law.  More owners and more members on the rosters never hide
a value.  For those who become neither owners nor members it holds in both
directions, and nothing changes for them.
-/

namespace AccessPolicy

/-- Recording an owner makes one principal an owner and leaves the others as they
are. -/
theorem Item.isOwnedBy_addOwner {item : Item} {display owner : String} {id : PrincipalId} :
    (item.addOwner display owner).isOwnedBy id = true ↔
      item.isOwnedBy id = true ∨ owner = id.text := by
  simp only [isOwnedBy, values_addOwner, List.any_append, Bool.or_eq_true, List.any_cons,
    List.any_nil, Bool.or_false, Bool.and_eq_true, FieldName.belongsTo_eq_true_iff,
    FieldValue.namesOwner_eq_true_iff]
  apply or_congr_right
  constructor
  · rintro ⟨-, names⟩
    exact Option.some.inj names
  · rintro rfl
    exact ⟨⟨rfl, rfl⟩, rfl⟩

namespace VisibilityPolicy

variable {rosters larger : List (Level × List PrincipalId)} {principal : Option Principal}
  {first second item : Item} {value : FieldValue} {level : Level} {asker : Principal}

/-- A principal is shown some values of an item by the policy of some rosters,
whatever the policy was asked before. -/
def AlwaysShows (rosters : List (Level × List PrincipalId)) (principal : Option Principal)
    (item : Item) (shown : List IndexedValue) : Prop :=
  ∀ policy : VisibilityPolicy, policy.Continues (ofRosters rosters) →
    (policy.visible principal item).result = .ok shown

theorem alwaysShows_filter (rosters : List (Level × List PrincipalId))
    (principal : Option Principal) (item : Item) :
    AlwaysShows rosters principal item
      (item.values.zipIdx.filter fun value => rostersShow rosters principal item value.1) :=
  fun _ continues => result_visible_of_continues_ofRosters continues

/-! ## More owners, more members -/

/-- Rosters are enlarged when each is registered for its level as before, with at
least the members that it had. -/
def Enlarged (rosters larger : List (Level × List PrincipalId)) : Prop :=
  List.Forall₂ (fun old new => new.1 = old.1 ∧ ∀ id ∈ old.2, id ∈ new.2) rosters larger

theorem Enlarged.refl (rosters : List (Level × List PrincipalId)) : Enlarged rosters rosters :=
  List.forall₂_same.mpr fun _ _ => ⟨rfl, fun _ member => member⟩

theorem Enlarged.reverse (enlarged : Enlarged rosters larger) :
    Enlarged rosters.reverse larger.reverse :=
  List.forall₂_reverse_iff.mpr enlarged

/-- A level keeps its members when the rosters are enlarged. -/
theorem Enlarged.lookup {ids : List PrincipalId} (enlarged : Enlarged rosters larger)
    (known : rosters.lookup level = some ids) :
    ∃ more, larger.lookup level = some more ∧ ∀ id ∈ ids, id ∈ more := by
  induction enlarged with
  | nil => contradiction
  | @cons old new _ _ grown _ ih =>
      rcases grown with ⟨sameLevel, keeps⟩
      rw [List.lookup_cons] at known ⊢
      rw [sameLevel]
      cases atLevel : level == old.1 with
      | true =>
          rw [atLevel] at known
          obtain rfl := Option.some.inj known
          exact ⟨new.2, rfl, keeps⟩
      | false =>
          rw [atLevel] at known
          exact ih known

/-- What is shown stays shown when owners and members are added. -/
theorem rostersShow_mono (enlarged : Enlarged rosters larger)
    (owners : ∀ asker, principal = some asker →
      first.isOwnedBy asker.id = true → second.isOwnedBy asker.id = true)
    (shows : rostersShow rosters principal first value = true) :
    rostersShow larger principal second value = true := by
  cases restricted : value.restriction? with
  | none => simp only [rostersShow, restricted]
  | some level =>
      simp only [rostersShow, restricted, Option.any_eq_true, Bool.and_eq_true,
        List.contains_iff_mem] at shows ⊢
      rcases shows with ⟨ids, known, asker, asks, listed, owned⟩
      rcases enlarged.reverse.lookup known with ⟨more, knownToo, keeps⟩
      exact ⟨more, knownToo, asker, asks, keeps asker.id listed, owners asker asks owned⟩

/-- Who owns the one item exactly if the other is shown the same values of both. -/
theorem rostersShow_of_same_ownership
    (sameOwnership : ∀ asker, principal = some asker →
      (first.isOwnedBy asker.id = true ↔ second.isOwnedBy asker.id = true)) :
    rostersShow rosters principal first value = rostersShow rosters principal second value := by
  rw [Bool.eq_iff_iff]
  constructor
  · exact rostersShow_mono (Enlarged.refl rosters) fun asker asks =>
      (sameOwnership asker asks).mp
  · exact rostersShow_mono (Enlarged.refl rosters) fun asker asks =>
      (sameOwnership asker asks).mpr

/-- An owner is shown a value if it is open or she is on the roster of its level. -/
theorem rostersShow_of_owner (owned : item.isOwnedBy asker.id = true) :
    rostersShow rosters (some asker) item value = true ↔
      value.level = none ∨ value.level = some Level.everyone ∨
        ∃ level ids, value.level = some level ∧ IsLatest rosters level ids ∧
          asker.id ∈ ids := by
  rw [rostersShow_eq_true_iff]
  apply or_congr_right
  apply or_congr_right
  constructor
  · rintro ⟨level, ids, another, atLevel, latest, asks, listed, -⟩
    obtain rfl := Option.some.inj asks
    exact ⟨level, ids, atLevel, latest, listed⟩
  · rintro ⟨level, ids, atLevel, latest, listed⟩
    exact ⟨level, ids, asker, atLevel, latest, rfl, listed,
      Item.isOwnedBy_eq_true_iff.mp owned⟩

/-! ## The value that records an owner -/

/-- With an owner recorded, the new value is shown behind what is shown of the old
ones. -/
theorem filter_addOwner (item : Item) (display owner : String) :
    ((item.addOwner display owner).values.zipIdx.filter fun value =>
        rostersShow rosters principal (item.addOwner display owner) value.1) =
      (item.values.zipIdx.filter fun value =>
        rostersShow rosters principal (item.addOwner display owner) value.1) ++
          [(item.ownerValue display owner, item.values.length)] := by
  rw [Item.values_addOwner, List.zipIdx_append, List.filter_append, Nat.zero_add]
  -- The new value has no level, so it is shown to whoever asks.
  rfl

/-- To those who are not the new owner, the old values are shown as before. -/
theorem rostersShow_addOwner_of_ne {owner : String}
    (others : ∀ asker, principal = some asker → asker.id.text ≠ owner)
    (item : Item) (display : String) (value : FieldValue) :
    rostersShow rosters principal (item.addOwner display owner) value =
      rostersShow rosters principal item value := by
  apply rostersShow_of_same_ownership
  intro asker asks
  rw [Item.isOwnedBy_addOwner]
  exact or_iff_left fun same => others asker asks same.symm

/-- Granting ownership affects only the new owner.

Under a policy of rosters, record an owner of an item.  Everybody else, and an
anonymous request too, is shown the same values as before, and behind them the
new one.  The new owner is shown all that she was shown before and the new
value: exactly the open values and those at the levels whose latest roster lists
her.  And whoever asks about whatever item is shown at least as much when
rosters are enlarged. -/
theorem visible_addOwner (rosters : List (Level × List PrincipalId)) :
    (∀ (item : Item) (display owner : String) (principal : Option Principal),
        (∀ asker, principal = some asker → asker.id.text ≠ owner) →
        ∃ shown, AlwaysShows rosters principal item shown ∧
          AlwaysShows rosters principal (item.addOwner display owner)
            (shown ++ [(item.ownerValue display owner, item.values.length)])) ∧
      (∀ (item : Item) (display : String) (asker : Principal),
        let granted := item.addOwner display asker.id.text
        ∃ shown more, AlwaysShows rosters (some asker) item shown ∧
          AlwaysShows rosters (some asker) granted more ∧
          shown.Sublist more ∧
          (item.ownerValue display asker.id.text, item.values.length) ∈ more ∧
          more.Sublist granted.values.zipIdx ∧
          ∀ index value, granted.values[index]? = some value →
            ((value, index) ∈ more ↔
              value.level = none ∨ value.level = some Level.everyone ∨
                ∃ level ids, value.level = some level ∧ IsLatest rosters level ids ∧
                  asker.id ∈ ids)) ∧
      ∀ larger, Enlarged rosters larger → ∀ (principal : Option Principal) (item : Item),
        ∃ shown more, AlwaysShows rosters principal item shown ∧
          AlwaysShows larger principal item more ∧ shown.Sublist more := by
  refine ⟨?_, ?_, ?_⟩
  · intro item display owner principal others
    refine ⟨_, alwaysShows_filter rosters principal item, ?_⟩
    have granted := alwaysShows_filter rosters principal (item.addOwner display owner)
    rw [filter_addOwner] at granted
    simp only [rostersShow_addOwner_of_ne others] at granted
    exact granted
  · intro item display asker granted
    have owned : granted.isOwnedBy asker.id = true := Item.isOwnedBy_addOwner.mpr (.inr rfl)
    refine ⟨_, _, alwaysShows_filter rosters (some asker) item,
      alwaysShows_filter rosters (some asker) granted, ?_, ?_, List.filter_sublist, ?_⟩
    · rw [filter_addOwner]
      apply List.Sublist.trans _ (List.sublist_append_left _ _)
      apply List.monotone_filter_right
      intro value shows
      apply rostersShow_mono (Enlarged.refl rosters) _ shows
      intro _ _ ownedBefore
      exact Item.isOwnedBy_addOwner.mpr (.inl ownedBefore)
    · rw [filter_addOwner]
      exact List.mem_append_right _ (List.mem_singleton_self _)
    · intro index value stands
      rw [List.mem_filter, List.mk_mem_zipIdx_iff_getElem?, and_iff_right stands,
        rostersShow_of_owner owned]
  · intro larger enlarged principal item
    refine ⟨_, _, alwaysShows_filter rosters principal item,
      alwaysShows_filter larger principal item, ?_⟩
    apply List.monotone_filter_right
    intro value shows
    exact rostersShow_mono enlarged (fun _ _ owned => owned) shows

/-- Bob owns an item, and Alice is made an owner too.  Bob is shown the new value
behind the old ones.  Alice is shown the note, since she is on the roster of its
level, and not the review, until the roster of that level is enlarged. -/
theorem visible_addOwner_of_second_owner :
    let alice : Principal := { id := ⟨"7"⟩, name := "Alice" }
    let bob : Principal := { id := ⟨"8"⟩, name := "Bob" }
    let rosters : List (Level × List PrincipalId) :=
      [(⟨2⟩, [alice.id, bob.id]), (⟨3⟩, [bob.id])]
    let larger : List (Level × List PrincipalId) :=
      [(⟨2⟩, [alice.id, bob.id]), (⟨3⟩, [alice.id, bob.id])]
    let note : FieldValue :=
      { field := { schema := "dc", element := "note" }, text := "note", level := some ⟨2⟩ }
    let review : FieldValue :=
      { field := { schema := "dc", element := "note" }, text := "review", level := some ⟨3⟩ }
    let owner : FieldValue := { field := .owner, text := "Bob", authority := some "8" }
    let item : Item := { id := "item", values := [note, review, owner] }
    let granted := item.addOwner "Alice" "7"
    (∃ shown, AlwaysShows rosters (some bob) item shown ∧
        AlwaysShows rosters (some bob) granted (shown ++ [(item.ownerValue "Alice" "7", 3)])) ∧
      (∃ more, AlwaysShows rosters (some alice) granted more ∧
        (note, 0) ∈ more ∧ (review, 1) ∉ more) ∧
      Enlarged rosters larger ∧
      ∃ shown more, AlwaysShows rosters (some alice) granted shown ∧
        AlwaysShows larger (some alice) granted more ∧ shown.Sublist more := by
  intro alice bob rosters larger note review owner item granted
  rcases visible_addOwner rosters with ⟨unaffected, affected, grown⟩
  refine ⟨?_, ?_, ?_⟩
  · apply unaffected item "Alice" "7" (some bob)
    intro asker asks
    obtain rfl := Option.some.inj asks
    decide
  · rcases affected item "Alice" alice with ⟨-, more, -, shows, -, -, -, exactly⟩
    refine ⟨more, shows, ?_, ?_⟩
    · apply (exactly 0 note rfl).mpr
      exact .inr (.inr ⟨⟨2⟩, _, rfl, lookup_reverse_eq_some_iff.mp rfl, .head _⟩)
    · intro shown
      rcases (exactly 1 review rfl).mp shown with isOpen | isOpen | restricted
      · contradiction
      · exact absurd isOpen (by decide)
      · rcases restricted with ⟨level, ids, atLevel, latest, listed⟩
        obtain rfl := Option.some.inj atLevel
        obtain rfl := Option.some.inj (lookup_reverse_eq_some_iff.mpr latest)
        exact absurd listed (by decide)
  · have enlarged : Enlarged rosters larger :=
      .cons ⟨rfl, fun _ member => member⟩
        (.cons ⟨rfl, fun _ member => .tail _ member⟩ .nil)
    exact ⟨enlarged, grown larger enlarged (some alice) granted⟩

end VisibilityPolicy

end AccessPolicy
