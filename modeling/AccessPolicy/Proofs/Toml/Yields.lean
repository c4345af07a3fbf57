import AccessPolicy.Toml.Scanner

/-!
# What a scanner takes

A scanner yields a property when every value that it takes has it, from whatever
text.  The property of what a composed scanner takes follows from those of its
parts.
-/

namespace AccessPolicy.Toml.Scanner

variable {α β : Type} {property : α → Prop} {result : β → Prop}

/-- Every value that a scanner takes has a property. -/
def Yields (property : α → Prop) (scanner : Scanner α) : Prop :=
  ∀ text value rest, scanner text = some (value, rest) → property value

theorem yields_true (scanner : Scanner α) : scanner.Yields fun _ => True :=
  fun _ _ _ _ => trivial

theorem yields_pure {value : α} (holds : property value) :
    Yields property (pure value) := by
  intro text other rest taken
  obtain ⟨rfl, rfl⟩ := Prod.mk.inj (Option.some.inj taken)
  exact holds

/-- A value that needs no text is taken as it is. -/
theorem yields_liftM (value? : Option α) :
    Yields (fun value => value? = some value) (liftM value?) := by
  intro text value rest taken
  rw [liftM_apply] at taken
  obtain ⟨other, present, same⟩ := Option.map_eq_some_iff.mp taken
  rw [present, (Prod.mk.inj same).1]

theorem Yields.bind {scanner : Scanner α} {next : α → Scanner β}
    (first : scanner.Yields property)
    (andThen : ∀ value, property value → (next value).Yields result) :
    Yields result (scanner >>= next) := by
  intro text value rest taken
  rw [bind_apply, Option.bind_eq_some_iff] at taken
  obtain ⟨⟨between, remaining⟩, takenFirst, takenNext⟩ := taken
  exact andThen between (first _ _ _ takenFirst) _ _ _ takenNext

/-- What is taken on the way may be anything. -/
theorem yields_bind {scanner : Scanner α} {next : α → Scanner β}
    (andThen : ∀ value, (next value).Yields result) : Yields result (scanner >>= next) :=
  (yields_true scanner).bind fun value _ => andThen value

theorem Yields.map {scanner : Scanner α} {change : α → β}
    (taken : scanner.Yields fun value => result (change value)) :
    Yields result (change <$> scanner) := by
  intro text value rest changed
  rw [map_apply] at changed
  obtain ⟨⟨before, remaining⟩, first, same⟩ := Option.map_eq_some_iff.mp changed
  obtain ⟨rfl, -⟩ := Prod.mk.inj same
  exact taken _ _ _ first

theorem Yields.orElse {first second : Scanner α} (one : first.Yields property)
    (another : second.Yields property) : Yields property (first <|> second) := by
  intro text value rest taken
  rw [orElse_apply, Option.or_eq_some_iff] at taken
  rcases taken with takenFirst | ⟨-, takenSecond⟩
  · exact one _ _ _ takenFirst
  · exact another _ _ _ takenSecond

theorem Yields.optional {scanner : Scanner α} (taken : scanner.Yields property) :
    Yields (fun value? => ∀ value, value? = some value → property value)
      (optional scanner) := by
  refine Yields.orElse (Yields.map ?_) (yields_pure (by simp))
  intro text value rest first other same
  obtain rfl := Option.some.inj same
  exact taken _ _ _ first

theorem yields_followers {item : Scanner α} (separator : Scanner Unit)
    (taken : item.Yields property) (text : List Char) :
    ∀ value ∈ (followers separator item text).1, property value := by
  induction text using followers.induct separator item with
  | case1 text absent =>
      rw [followers_of_none absent]
      simp
  | case2 text first rest present shorter _ _ _ ih =>
      rw [followers_of_some present shorter]
      refine List.forall_mem_cons.mpr ⟨?_, ih⟩
      exact yields_bind (fun _ => taken) _ _ _ present
  | case3 text first rest present longer =>
      rw [followers, present]
      simp [longer]

theorem Yields.separatedBy {item : Scanner α} (separator : Scanner Unit)
    (taken : item.Yields property) :
    Yields (fun values => ∀ value ∈ values, property value)
      (separatedBy separator item) := by
  refine taken.bind fun first holds => ?_
  intro text values rest others
  rw [bind_apply] at others
  obtain ⟨rfl, -⟩ := Prod.mk.inj (Option.some.inj others)
  exact List.forall_mem_cons.mpr ⟨holds, yields_followers separator taken text⟩

end AccessPolicy.Toml.Scanner
