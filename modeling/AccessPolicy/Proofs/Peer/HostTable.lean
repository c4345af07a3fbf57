import AccessPolicy.Peer.Resolver
import Mathlib.Data.List.Induction

/-!
# Host tables and their histories

A table is filled by entries, one after the other, and answers for a host with the
address that the host was given last.  Since only these latest addresses count, entries of
different hosts may change places, and what a later entry replaces may be left out.  A text
that spells an address is resolved before the table is looked at, so an entry for such a
text is never seen, and a resolver of any other kind gives the same answer.
-/

namespace AccessPolicy

/-- Whatever resolver is asked for all other hosts, spelled addresses resolve alike. -/
theorem Resolver.literalFirst_congr_of_spelled {host : String} {address : IpAddress}
    (spelled : IpAddress.ofString? host = some address) (first second : Resolver) :
    literalFirst first host = literalFirst second host := by
  rw [literalFirst_of_spelled spelled, literalFirst_of_spelled spelled]

namespace HostTable

/-- A history of entries, the oldest first. -/
abbrev History := List (String × IpAddress)

variable {entry : String × IpAddress} {before after entries : History} {host : String}

/-! ## The latest address of a host -/

/-- The address that a host was given last. -/
def latest? (entries : History) (host : String) : Option IpAddress :=
  (entries.filter (·.1 = host)).getLast?.map Prod.snd

theorem latest?_append (first second : History) (host : String) :
    latest? (first ++ second) host = (latest? second host).or (latest? first host) := by
  rw [latest?, List.filter_append, List.getLast?_append, Option.map_or, latest?, latest?]

theorem latest?_singleton_self (host : String) (address : IpAddress) :
    latest? [(host, address)] host = some address := by
  simp [latest?]

theorem latest?_singleton_of_ne (differs : entry.1 ≠ host) : latest? [entry] host = none := by
  simp [latest?, differs]

theorem latest?_eq_none_iff :
    latest? entries host = none ↔ ∀ entry ∈ entries, entry.1 ≠ host := by
  simp [latest?]

/-- Around an entry of the history, the later ones count first, and then the entry. -/
theorem latest?_around (before : History) (entry : String × IpAddress) (after : History)
    (host : String) :
    latest? (before ++ entry :: after) host =
      (latest? after host).or ((latest? [entry] host).or (latest? before host)) := by
  rw [← List.singleton_append, latest?_append, latest?_append, Option.or_assoc]

/-- The latest address stands behind all others of the host. -/
theorem latest?_eq_some_iff {address : IpAddress} :
    latest? entries host = some address ↔
      ∃ before after, entries = before ++ (host, address) :: after ∧
        ∀ later ∈ after, later.1 ≠ host := by
  constructor
  · intro latest
    rcases Option.map_eq_some_iff.mp latest with ⟨⟨name, given⟩, isLast, rfl⟩
    rcases List.getLast?_eq_some_iff.mp isLast with ⟨others, ofHost⟩
    rcases List.filter_eq_append_iff.mp ofHost with ⟨front, back, rfl, -, lastAlone⟩
    rcases List.filter_eq_cons_iff.mp lastAlone with ⟨between, after, rfl, -, same, nothing⟩
    obtain rfl := of_decide_eq_true same
    refine ⟨front ++ between, after, by simp, ?_⟩
    simpa [List.filter_eq_nil_iff] using nothing
  · rintro ⟨before, after, rfl, absent⟩
    rw [latest?_around, latest?_eq_none_iff.mpr absent, latest?_singleton_self]
    rfl

/-- An entry of another host does not count, nor one that a later entry replaces. -/
theorem latest?_drop
    (uncounted : entry.1 ≠ host ∨ ∃ later ∈ after, later.1 = host) :
    latest? (before ++ entry :: after) host = latest? (before ++ after) host := by
  rw [latest?_around, latest?_append]
  rcases uncounted with differs | ⟨later, member, same⟩
  · rw [latest?_singleton_of_ne differs, Option.none_or]
  · have known : latest? after host ≠ none := by
      intro unknown
      exact latest?_eq_none_iff.mp unknown later member same
    rcases Option.ne_none_iff_exists'.mp known with ⟨address, latest⟩
    rw [latest, Option.some_or, Option.some_or]

/-- Neighbours of different hosts may change places. -/
theorem latest?_swap {neighbour : String × IpAddress} (different : entry.1 ≠ neighbour.1)
    (before after : History) (host : String) :
    latest? (before ++ neighbour :: entry :: after) host =
      latest? (before ++ entry :: neighbour :: after) host := by
  have pair : latest? [neighbour, entry] host = latest? [entry, neighbour] host := by
    by_cases same : entry.1 = host
    · have differs : neighbour.1 ≠ host := by
        rw [← same]
        exact different.symm
      simp [latest?, same, differs]
    · simp [latest?, same]
  change latest? (before ++ ([neighbour, entry] ++ after)) host =
    latest? (before ++ ([entry, neighbour] ++ after)) host
  simp only [latest?_append, pair]

/-! ## Tables -/

theorem ofEntries_append_singleton (earlier : History) (host : String) (address : IpAddress) :
    ofEntries (earlier ++ [(host, address)]) = (ofEntries earlier).add host address := by
  simp only [ofEntries, List.foldl_append, List.foldl_cons, List.foldl_nil]

/-- A table has for each host the address that the host was given last. -/
theorem address?_ofEntries (entries : History) (host : String) :
    (ofEntries entries).address? host = latest? entries host := by
  induction entries using List.reverseRecOn with
  | nil => rfl
  | append_singleton earlier last ih =>
      rcases last with ⟨name, address⟩
      rw [ofEntries_append_singleton, address?_add, latest?_append, ih]
      by_cases same : host = name
      · subst same
        rw [if_pos rfl, latest?_singleton_self, Option.some_or]
      · rw [if_neg same, latest?_singleton_of_ne (Ne.symm same), Option.none_or]

theorem resolver_of_not_spelled {table : HostTable}
    (notSpelled : IpAddress.ofString? host = none) :
    table.resolver host =
      (table.address? host).elim (.error { host, reason := unknownHost }) .ok := by
  rw [resolver, Resolver.literalFirst_of_not_spelled notSpelled]
  cases table.address? host <;> rfl

/-- Two histories resolve alike when they have the same latest addresses, of hosts that are
no addresses themselves. -/
theorem resolver_ofEntries_congr {first second : History}
    (same : ∀ host, IpAddress.ofString? host = none → latest? first host = latest? second host) :
    (ofEntries first).resolver = (ofEntries second).resolver := by
  funext host
  cases spelled : IpAddress.ofString? host with
  | some address => exact Resolver.literalFirst_congr_of_spelled spelled _ _
  | none =>
      rw [resolver_of_not_spelled spelled, resolver_of_not_spelled spelled, address?_ofEntries,
        address?_ofEntries, same host spelled]

theorem resolver_eq_ok_iff {address : IpAddress}
    (notSpelled : IpAddress.ofString? host = none) :
    (ofEntries entries).resolver host = .ok address ↔ latest? entries host = some address := by
  rw [resolver_of_not_spelled notSpelled, address?_ofEntries]
  cases latest? entries host <;> simp

theorem resolver_eq_error_iff {fault : ResolutionFault}
    (notSpelled : IpAddress.ofString? host = none) :
    (ofEntries entries).resolver host = .error fault ↔
      latest? entries host = none ∧ fault = { host, reason := unknownHost } := by
  rw [resolver_of_not_spelled notSpelled, address?_ofEntries]
  cases latest? entries host <;> simp [eq_comm]

/-- A table behaves as its history of entries.

A text that spells an address is resolved to that address, whatever the table holds, and
as by any name service.  Any other host has the address of the last entry for exactly this
text, and is unknown if there is no entry for it.  Two neighbours of different hosts may
change places, and an entry that a later one replaces may be left out; an entry for a text
that spells an address may be added anywhere. -/
theorem resolver_ofEntries (entries : History) :
    let table := ofEntries entries
    (∀ host address, IpAddress.ofString? host = some address →
        table.resolver host = .ok address ∧
          ∀ service : NameService, service.resolver host = table.resolver host) ∧
      (∀ host, IpAddress.ofString? host = none →
        (∀ address, table.resolver host = .ok address ↔
          ∃ before after, entries = before ++ (host, address) :: after ∧
            ∀ later ∈ after, later.1 ≠ host) ∧
        ∀ fault, table.resolver host = .error fault ↔
          (∀ entry ∈ entries, entry.1 ≠ host) ∧ fault = { host, reason := "unknown host" }) ∧
      (∀ before entry neighbour after, entries = before ++ entry :: neighbour :: after →
        entry.1 ≠ neighbour.1 →
        (ofEntries (before ++ neighbour :: entry :: after)).resolver = table.resolver) ∧
      (∀ before entry after, entries = before ++ entry :: after →
        (∃ later ∈ after, later.1 = entry.1) →
        (ofEntries (before ++ after)).resolver = table.resolver) ∧
      ∀ before entry after, entries = before ++ after →
        (IpAddress.ofString? entry.1).isSome = true →
        (ofEntries (before ++ entry :: after)).resolver = table.resolver := by
  intro table
  refine ⟨?_, ?_, ?_, ?_, ?_⟩
  · intro host address spelled
    refine ⟨Resolver.literalFirst_of_spelled spelled _, fun service => ?_⟩
    exact Resolver.literalFirst_congr_of_spelled spelled _ _
  · intro host notSpelled
    constructor
    · intro address
      rw [resolver_eq_ok_iff notSpelled, latest?_eq_some_iff]
    · intro fault
      rw [resolver_eq_error_iff notSpelled, latest?_eq_none_iff]
      rfl
  · rintro before entry neighbour after rfl different
    apply resolver_ofEntries_congr
    intro host _
    exact latest?_swap different before after host
  · rintro before entry after rfl ⟨later, member, sameHost⟩
    apply resolver_ofEntries_congr
    intro host _
    apply Eq.symm
    apply latest?_drop
    by_cases same : entry.1 = host
    · exact .inr ⟨later, member, sameHost.trans same⟩
    · exact .inl same
  · rintro before entry after rfl spelled
    apply resolver_ofEntries_congr
    intro host notSpelled
    apply latest?_drop
    left
    rintro rfl
    rw [notSpelled] at spelled
    contradiction

/-- A host with a new address, a text that spells an address with an entry of its own, and
the host in other spellings. -/
theorem resolver_ofEntries_of_replaced_host :
    let older : IpAddress := .v4 ⟨203, 0, 113, 1⟩
    let newer : IpAddress := .v4 ⟨203, 0, 113, 2⟩
    let entries : History :=
      [("a.example", older), ("::1", older), ("b.example", older), ("a.example", newer)]
    let table := ofEntries entries
    let literal : IpAddress := .v6 ⟨[0, 0, 0, 0, 0, 0, 0, 1], rfl⟩
    table.resolver "::1" = .ok literal ∧
      NameService.offline.resolver "::1" = .ok literal ∧
      table.resolver "a.example" = .ok newer ∧
      table.resolver " a.example" =
        .error { host := " a.example", reason := "unknown host" } ∧
      table.resolver "A.example" = .error { host := "A.example", reason := "unknown host" } ∧
      (ofEntries [("a.example", older), ("::1", older), ("a.example", newer),
        ("b.example", older)]).resolver = table.resolver ∧
      (ofEntries [("::1", older), ("b.example", older), ("a.example", newer)]).resolver =
        table.resolver ∧
      (ofEntries [("a.example", older), ("::1", older), ("b.example", older),
        ("a.example", newer), ("::ffff:0:1", newer)]).resolver = table.resolver := by
  intro older newer entries table literal
  rcases resolver_ofEntries entries with ⟨spelled, other, swapped, dropped, added⟩
  rcases spelled "::1" literal (by decide) with ⟨byTable, byService⟩
  refine ⟨byTable, (byService .offline).trans byTable, ?_, ?_, ?_, ?_, ?_, ?_⟩
  · exact ((other "a.example" (by decide)).1 newer).mpr
      ⟨[("a.example", older), ("::1", older), ("b.example", older)], [], rfl, by simp⟩
  · exact ((other " a.example" (by decide)).2 _).mpr ⟨by decide, rfl⟩
  · exact ((other "A.example" (by decide)).2 _).mpr ⟨by decide, rfl⟩
  · exact swapped [("a.example", older), ("::1", older)] ("b.example", older)
      ("a.example", newer) [] rfl (by decide)
  · exact dropped [] ("a.example", older)
      [("::1", older), ("b.example", older), ("a.example", newer)] rfl
      ⟨("a.example", newer), by simp, rfl⟩
  · exact added entries ("::ffff:0:1", newer) [] rfl (by decide)

end HostTable

end AccessPolicy
