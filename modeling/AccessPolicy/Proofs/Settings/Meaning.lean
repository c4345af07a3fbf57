import AccessPolicy.Proofs.Settings.Files
import AccessPolicy.Proofs.Toml.Spelling
import AccessPolicy.Settings.Document

/-!
# What a document means

The settings in a document depend on one key of it, and there on three.  A
setting has the value that is given for it, or its default when none is given; a
value of another type is refused.  An array is a table that leaves its keys out:
its elements are the settings in their order.

What stands under other keys does not matter, nor does the order of the entries,
nor how a table is written.  Two documents that say the same about the trusted
peers, in whatever order and spelling, give the same settings or are refused
alike, but for the words that are found for it.  That entries may stand in any order rests on their keys being distinct.
-/

namespace AccessPolicy

namespace Toml

/-- A table gives a setting its value: the one under the key, or the default
where there is nothing under the key. -/
def Table.Gives {α : Type} (table : Table) (key : String) (wrap : α → Value)
    (default setting : α) : Prop :=
  (key, wrap setting) ∈ table ∨ (∀ value, (key, value) ∉ table) ∧ setting = default

theorem Table.gives_iff {α : Type} {table : Table} (nodup : (table.map Prod.fst).Nodup)
    {key : String} {wrap : α → Value} {default setting : α} :
    table.Gives key wrap default setting ↔
      table.lookup key = some (wrap setting) ∨
        table.lookup key = none ∧ setting = default := by
  rw [Gives, Option.eq_none_iff_forall_ne_some]
  simp only [ne_eq, lookup_eq_some_iff_mem nodup]

end Toml

namespace PeerSettings

open Toml (Table Value)

/-! ## One document -/

/-- The keys of the settings, in the order of an array. -/
def settingKeys : List String :=
  ["localhost_default", "from_ip", "from_hostname"]

/-- The entries that a section gives for settings, if it can give any.  An array
gives its elements in their order. -/
def settingEntries? : Value → Option Table
  | .inlineTable entries => some entries
  | .table _ entries => some entries
  | .array elements => some (settingKeys.zip elements)
  | _ => none

/-- The settings that some entries give. -/
structure GivenBy (entries : Table) (settings : PeerSettings) : Prop where
  trustLoopback : entries.Gives "localhost_default" .boolean false settings.trustLoopback
  addresses : entries.Gives "from_ip" .string "" settings.addresses
  hosts : entries.Gives "from_hostname" .string "" settings.hosts

/-- A setting is read as the value that is given for it, or as its default. -/
theorem readAs_eq_ok_iff {α : Type} {ofType? : Value → Option α} {wrap : α → Value}
    (isType : ∀ value setting, ofType? value = some setting ↔ value = wrap setting)
    {default setting : α} {given : Option Value} :
    readAs ofType? default given = .ok setting ↔
      given = some (wrap setting) ∨ given = none ∧ setting = default := by
  cases given with
  | none => simp [readAs, eq_comm]
  | some value =>
      rw [Option.some.injEq, ← isType, readAs]
      cases ofType? value <;> simp

theorem switch?_eq_some_iff (value : Value) (truth : Bool) :
    switch? value = some truth ↔ value = .boolean truth := by
  cases value <;> simp [switch?]

theorem text?_eq_some_iff (value : Value) (text : String) :
    text? value = some text ↔ value = .string text := by
  cases value <;> simp [text?]

theorem ofValues_eq_ok_iff {trustLoopback addresses hosts : Option Value}
    {settings : PeerSettings} :
    ofValues trustLoopback addresses hosts = .ok settings ↔
      readSwitch trustLoopback = .ok settings.trustLoopback ∧
        readText addresses = .ok settings.addresses ∧
        readText hosts = .ok settings.hosts := by
  obtain ⟨truth, list, names⟩ := settings
  rw [ofValues]
  rcases readSwitch trustLoopback with _ | givenTruth
  · simp [bind, Except.bind]
  rcases readText addresses with _ | givenList
  · simp [bind, Except.bind]
  rcases readText hosts with _ | givenNames
  · simp [bind, Except.bind]
  · simp [bind, Except.bind, pure, Except.pure]

theorem ofTable_eq_ok_iff {entries : Table} (nodup : (entries.map Prod.fst).Nodup)
    {settings : PeerSettings} :
    ofTable entries = .ok settings ↔ GivenBy entries settings := by
  rw [ofTable, ofValues_eq_ok_iff, readSwitch, readText, readAs_eq_ok_iff switch?_eq_some_iff,
    readAs_eq_ok_iff text?_eq_some_iff, readAs_eq_ok_iff text?_eq_some_iff]
  constructor
  · rintro ⟨trustLoopback, addresses, hosts⟩
    exact ⟨(Table.gives_iff nodup).mpr trustLoopback, (Table.gives_iff nodup).mpr addresses,
      (Table.gives_iff nodup).mpr hosts⟩
  · rintro ⟨trustLoopback, addresses, hosts⟩
    exact ⟨(Table.gives_iff nodup).mp trustLoopback, (Table.gives_iff nodup).mp addresses,
      (Table.gives_iff nodup).mp hosts⟩

/-- An array is read as the table that has its elements under the keys. -/
theorem ofList_eq_ofTable (elements : List Value) :
    ofList elements = ofTable (settingKeys.zip elements) := by
  rcases elements with _ | ⟨first, _ | ⟨second, _ | ⟨third, others⟩⟩⟩ <;> rfl

theorem nodup_keys_zip (elements : List Value) :
    ((settingKeys.zip elements).map Prod.fst).Nodup := by
  rcases elements with _ | ⟨first, _ | ⟨second, _ | ⟨third, others⟩⟩⟩ <;>
    simp [settingKeys]

theorem ofSection_of_settingEntries? {value : Value} {entries : Table}
    (gives : settingEntries? value = some entries) : ofSection value = ofTable entries := by
  cases value with
  | array elements =>
      obtain rfl := Option.some.inj gives
      exact ofList_eq_ofTable elements
  | inlineTable inner =>
      obtain rfl := Option.some.inj gives
      rfl
  | table origin inner =>
      obtain rfl := Option.some.inj gives
      rfl
  | _ => contradiction

theorem nodup_of_settingEntries? {value : Value} {entries : Table}
    (distinct : value.HasDistinctKeys) (gives : settingEntries? value = some entries) :
    (entries.map Prod.fst).Nodup := by
  cases value with
  | array elements =>
      obtain rfl := Option.some.inj gives
      exact nodup_keys_zip elements
  | inlineTable inner => exact (distinct.of_entries? gives).nodup
  | table origin inner => exact (distinct.of_entries? gives).nodup
  | _ => contradiction

/-- A section that can give no settings is refused, unless it is a date. -/
theorem ofSection_of_no_settingEntries {value : Value}
    (givesNone : settingEntries? value = none) (noDate : ∀ moment, value ≠ .dateTime moment) :
    ofSection value = .error .unexpectedType := by
  cases value with
  | dateTime moment => exact absurd rfl (noDate moment)
  | array elements => contradiction
  | inlineTable inner => contradiction
  | table origin inner => contradiction
  | _ => rfl

/-! ## Two documents -/

/-- What a section says about settings alone. -/
def onlySettings (value : Value) : Value :=
  match value.entries? with
  | some entries => .inlineTable (entries.filter fun entry => settingKeys.contains entry.1)
  | none => value

/-- What a document says about the trusted peers: its section, and of a table the
settings in it. -/
def peerPart (root : Table) : Table :=
  (root.filter fun entry => "ldn-trusted-services" == entry.1).map fun entry =>
    (entry.1, onlySettings entry.2)

theorem ofSection_of_entries? {value : Value} {entries : Table}
    (isTable : value.entries? = some entries) : ofSection value = ofTable entries := by
  cases value with
  | inlineTable inner =>
      obtain rfl := Option.some.inj isTable
      rfl
  | table origin inner =>
      obtain rfl := Option.some.inj isTable
      rfl
  | _ => contradiction

/-- Other keys of a section do not matter. -/
theorem ofSection_onlySettings (value : Value) :
    ofSection (onlySettings value) = ofSection value := by
  unfold onlySettings
  split
  · rename_i entries isTable
    have isSetting : ∀ key ∈ settingKeys, settingKeys.contains key = true := by
      intro key member
      exact List.contains_iff_mem.mpr member
    rw [ofSection_of_entries? isTable, ofSection_of_entries? rfl, ofTable, ofTable,
      Table.lookup_filter (isSetting loopbackKey (by decide)),
      Table.lookup_filter (isSetting addressesKey (by decide)),
      Table.lookup_filter (isSetting hostsKey (by decide))]
  · rfl

/-- Other keys of a document do not matter. -/
theorem ofRoot_peerPart (root : Table) : ofRoot (peerPart root) = ofRoot root := by
  have found : (peerPart root).lookup sectionKey = (root.lookup sectionKey).map onlySettings := by
    have kept : (root.filter fun entry => "ldn-trusted-services" == entry.1).lookup sectionKey =
        root.lookup sectionKey := by
      have chosen : BEq.beq "ldn-trusted-services" sectionKey = true := beq_self_eq_true _
      exact Table.lookup_filter chosen root
    rw [peerPart, Table.lookup_map_snd, kept]
  rw [ofRoot, ofRoot, found]
  cases root.lookup sectionKey with
  | none => rfl
  | some value => exact ofSection_onlySettings value

section Congruence

/-- Values that say the same are read alike, as long as nothing is read from values
that hold others. -/
theorem readAs_congr {α : Type} {ofType? : Value → Option α}
    (scalar : ∀ value, value.isScalar = false → ofType? value = none)
    {given other : Option Value} (same : Option.Rel Value.SaysSame given other) (default : α) :
    readAs ofType? default given = readAs ofType? default other := by
  cases same with
  | none => rfl
  | some same =>
      rcases same.eq_or_not_isScalar with rfl | ⟨compound, compoundToo⟩
      · rfl
      · simp only [readAs, scalar _ compound, scalar _ compoundToo]

theorem switch?_of_not_isScalar (value : Value) (compound : value.isScalar = false) :
    switch? value = none := by
  cases value with
  | boolean truth => contradiction
  | _ => rfl

theorem text?_of_not_isScalar (value : Value) (compound : value.isScalar = false) :
    text? value = none := by
  cases value with
  | string text => contradiction
  | _ => rfl

/-- Settings are read alike from values that say the same. -/
theorem ofValues_congr
    {trustLoopback addresses hosts otherLoopback otherAddresses otherHosts : Option Value}
    (sameLoopback : Option.Rel Value.SaysSame trustLoopback otherLoopback)
    (sameAddresses : Option.Rel Value.SaysSame addresses otherAddresses)
    (sameHosts : Option.Rel Value.SaysSame hosts otherHosts) :
    ofValues trustLoopback addresses hosts =
      ofValues otherLoopback otherAddresses otherHosts := by
  rw [ofValues, ofValues, readSwitch, readText,
    readAs_congr switch?_of_not_isScalar sameLoopback,
    readAs_congr text?_of_not_isScalar sameAddresses,
    readAs_congr text?_of_not_isScalar sameHosts]

theorem ofList_congr {elements others : List Value}
    (same : List.Forall₂ Value.SaysSame elements others) : ofList elements = ofList others := by
  have sameAt := Toml.rel_getElem? same
  exact ofValues_congr (sameAt 0) (sameAt 1) (sameAt 2)

theorem ofTable_congr {entries others : Table}
    (same : ∀ key, Option.Rel Value.SaysSame (entries.lookup key) (others.lookup key)) :
    ofTable entries = ofTable others :=
  ofValues_congr (same loopbackKey) (same addressesKey) (same hostsKey)

/-- Sections that say the same are read alike. -/
theorem ofSection_congr {value other : Value} (distinct : other.HasDistinctKeys)
    (same : value.SaysSame other) : ofSection value = ofSection other := by
  cases same with
  | same => rfl
  | array same => exact ofList_congr same
  | table isTable otherIsTable reorders sameKeys related =>
      rw [ofSection_of_entries? isTable, ofSection_of_entries? otherIsTable]
      exact ofTable_congr
        (Table.rel_lookup (distinct.of_entries? otherIsTable) reorders sameKeys related)
  | tables _ => rfl

/-- Documents that say the same are read alike. -/
theorem ofRoot_congr {root otherRoot : Table} (distinct : otherRoot.HasDistinctKeys)
    (same : (Value.inlineTable root).SaysSame (.inlineTable otherRoot)) :
    ofRoot root = ofRoot otherRoot := by
  cases same with
  | same => rfl
  | table isTable otherIsTable reorders sameKeys related =>
      obtain rfl := Option.some.inj isTable
      obtain rfl := Option.some.inj otherIsTable
      have sameSection := Table.rel_lookup distinct reorders sameKeys related sectionKey
      rw [ofRoot, ofRoot]
      generalize root.lookup sectionKey = given at sameSection ⊢
      cases found : otherRoot.lookup sectionKey with
      | none =>
          rw [found] at sameSection
          cases sameSection
          rfl
      | some value =>
          rw [found] at sameSection
          cases sameSection with
          | some same => exact ofSection_congr (distinct.of_lookup found) same

end Congruence

theorem hasDistinctKeys_onlySettings {value : Value} (distinct : value.HasDistinctKeys) :
    (onlySettings value).HasDistinctKeys := by
  unfold onlySettings
  split
  · rename_i entries isTable
    have distinctEntries := distinct.of_entries? isTable
    refine Value.hasDistinctKeys_inlineTable_iff.mpr ⟨?_, ?_⟩
    · exact distinctEntries.nodup.sublist (List.filter_sublist.map Prod.fst)
    · intro entry member
      exact distinctEntries.values entry (List.mem_of_mem_filter member)
  · exact distinct

theorem hasDistinctKeys_peerPart {root : Table} (distinct : root.HasDistinctKeys) :
    (peerPart root).HasDistinctKeys where
  nodup := by
    rw [peerPart, List.map_map]
    exact distinct.nodup.sublist (List.filter_sublist.map Prod.fst)
  values := by
    intro entry member
    obtain ⟨before, chosen, rfl⟩ := List.mem_map.mp member
    exact hasDistinctKeys_onlySettings
      (distinct.values before (List.mem_of_mem_filter chosen))

/-- Two documents agree about the trusted peers when they say the same about
them. -/
def AgreeAboutPeers (root otherRoot : Table) : Prop :=
  (Value.inlineTable (peerPart root)).SaysSame (.inlineTable (peerPart otherRoot))

theorem ofRoot_of_agreeAboutPeers {root otherRoot : Table}
    (distinct : otherRoot.HasDistinctKeys) (agree : AgreeAboutPeers root otherRoot) :
    ofRoot root = ofRoot otherRoot := by
  rw [← ofRoot_peerPart root, ← ofRoot_peerPart otherRoot]
  exact ofRoot_congr (hasDistinctKeys_peerPart distinct) agree

/-! ## Reading texts -/

theorem ofRoot_of_lookup {root : Table} {value : Value}
    (found : root.lookup sectionKey = some value) : ofRoot root = ofSection value := by
  rw [ofRoot, found]

theorem parse_of_ofText? {text : String} {root : Table}
    (document : Table.ofText? text.toList = some root) (words : String) :
    parse text words = reported inlineName words (ofRoot root) := by
  rw [parse, ofText, document]
  rfl

/-- What a document means.

A text that is no document is refused, and every fault has the name for a text
without a file.  A document without the section gives the default settings.  One
with a section that can give settings, as a table or as an array, gives those and
no others, and is refused if there are none; one with any other section but a date
is refused.  Documents that agree about the trusted peers are read alike: they give
the same settings, or both are refused, in which case the faults are the same as
far as the same words are found for them. -/
theorem parse_document (text words : String) :
    (Table.ofText? text.toList = none → ∃ fault, parse text words = .error fault) ∧
      (∀ fault, parse text words = .error fault → fault.sourceName = "<inline>") ∧
      ∀ root, Table.ofText? text.toList = some root →
        ((∀ value, ("ldn-trusted-services", value) ∉ root) → parse text words = .ok {}) ∧
        (∀ value, ("ldn-trusted-services", value) ∈ root →
          (∀ entries, settingEntries? value = some entries →
            ∀ settings, parse text words = .ok settings ↔ GivenBy entries settings) ∧
          (settingEntries? value = none → (∀ moment, value ≠ .dateTime moment) →
            ∃ fault, parse text words = .error fault)) ∧
        ∀ other otherRoot, Table.ofText? other.toList = some otherRoot →
          AgreeAboutPeers root otherRoot →
          parse text words = parse other words ∧
            ∀ otherWords settings,
              parse text words = .ok settings ↔ parse other otherWords = .ok settings := by
  refine ⟨?_, fun fault failed => sourceName_of_reported failed, ?_⟩
  · intro noDocument
    rw [parse, ofText, noDocument]
    exact exists_reported_eq_error inlineName words .malformed
  intro root document
  have distinct := Table.hasDistinctKeys_of_ofText? document
  refine ⟨?_, ?_, ?_⟩
  · intro noSection
    have absent : root.lookup sectionKey = none := by
      rw [Option.eq_none_iff_forall_ne_some]
      intro value found
      exact noSection value (Table.mem_of_lookup found)
    rw [parse_of_ofText? document, ofRoot, absent]
    rfl
  · intro value member
    have found : root.lookup sectionKey = some value :=
      (Table.lookup_eq_some_iff_mem distinct.nodup).mpr member
    rw [parse_of_ofText? document, ofRoot_of_lookup found]
    constructor
    · intro entries gives settings
      rw [reported_eq_ok_iff, ofSection_of_settingEntries? gives,
        ofTable_eq_ok_iff (nodup_of_settingEntries? (distinct.of_lookup found) gives)]
    · intro givesNone noDate
      rw [ofSection_of_no_settingEntries givesNone noDate]
      exact exists_reported_eq_error inlineName words .unexpectedType
  · intro other otherRoot otherDocument agree
    have sameRoot : ofRoot root = ofRoot otherRoot :=
      ofRoot_of_agreeAboutPeers (Table.hasDistinctKeys_of_ofText? otherDocument) agree
    constructor
    · rw [parse_of_ofText? document, parse_of_ofText? otherDocument, sameRoot]
    · intro otherWords settings
      rw [parse_of_ofText? document, parse_of_ofText? otherDocument, reported_eq_ok_iff,
        reported_eq_ok_iff, sameRoot]

set_option maxRecDepth 2000 in
/-- A text that is no document; a document without the section; two with the
section in different spellings, in different orders and with other keys in one of
them; one with a number for the section, and one with a text for the switch. -/
theorem parse_document_of_two_spellings :
    let broken := "ldn-trusted-services"
    let unrelated := "x.y = 1"
    let headed := "[ldn-trusted-services]\nx.y = [1]\nfrom_ip = 'a'\nlocalhost_default = true"
    let dotted := "ldn-trusted-services.localhost_default = true\n" ++
      "ldn-trusted-services.from_ip = 'a'"
    let number := "ldn-trusted-services = 1"
    let listed := "ldn-trusted-services = ['a']"
    (∃ fault, parse broken = .error fault ∧ fault.sourceName = "<inline>") ∧
      parse unrelated = .ok {} ∧
      parse headed = .ok { trustLoopback := true, addresses := "a" } ∧
      parse headed = parse dotted ∧
      (∃ fault, parse number = .error fault) ∧
      ∀ settings, parse listed ≠ .ok settings := by
  intro broken unrelated headed dotted number listed
  have brokenRead : Table.ofText? broken.toList = none := by
    decide +kernel
  have unrelatedRead : Table.ofText? unrelated.toList =
      some [("x", .table .dotted [("y", .integer 1)])] := by
    decide +kernel
  have headedRead : Table.ofText? headed.toList =
      some [("ldn-trusted-services", .table .header
        [("x", .table .dotted [("y", .array [.integer 1])]), ("from_ip", .string "a"),
          ("localhost_default", .boolean true)])] := by
    decide +kernel
  have dottedRead : Table.ofText? dotted.toList =
      some [("ldn-trusted-services", .table .dotted
        [("localhost_default", .boolean true), ("from_ip", .string "a")])] := by
    decide +kernel
  have numberRead : Table.ofText? number.toList =
      some [("ldn-trusted-services", .integer 1)] := by
    decide +kernel
  have listedRead : Table.ofText? listed.toList =
      some [("ldn-trusted-services", .array [.string "a"])] := by
    decide +kernel
  obtain ⟨refused, named, -⟩ := parse_document broken ""
  obtain ⟨fault, failed⟩ := refused brokenRead
  obtain ⟨byDefault, -⟩ := (parse_document unrelated "").2.2 _ unrelatedRead
  obtain ⟨-, hasSection, alike⟩ := (parse_document headed "").2.2 _ headedRead
  obtain ⟨-, hasNumber, -⟩ := (parse_document number "").2.2 _ numberRead
  obtain ⟨-, hasList, -⟩ := (parse_document listed "").2.2 _ listedRead
  refine ⟨⟨fault, failed, named fault failed⟩, byDefault (by simp), ?_, ?_, ?_, ?_⟩
  · refine ((hasSection _ (List.mem_singleton.mpr rfl)).1 _ rfl _).mpr ⟨?_, ?_, ?_⟩
    · exact .inl (by simp)
    · exact .inl (by simp)
    · exact .inr ⟨by simp, rfl⟩
  · refine (alike dotted _ dottedRead ?_).1
    refine .table rfl rfl (.refl _) rfl (.cons ?_ .nil)
    exact .table rfl rfl (.swap _ _ []) rfl (.cons (.same _) (.cons (.same _) .nil))
  · exact (hasNumber _ (List.mem_singleton.mpr rfl)).2 rfl (by simp)
  · intro settings accepted
    have given := ((hasList _ (List.mem_singleton.mpr rfl)).1 _ rfl settings).mp accepted
    simpa [Table.Gives, settingKeys] using given.trustLoopback

/-- The section of one document is a date.  It has another type than a table or
an array, and is read as a table without keys. -/
theorem parse_date_section :
    let text := "ldn-trusted-services = 1979-05-27"
    let date := Value.dateTime (.dateOnly { year := 1979, month := 5, day := 27 })
    Table.ofText? text.toList = some [("ldn-trusted-services", date)] ∧
      settingEntries? date = none ∧ parse text = .ok {} := by
  intro text date
  have document : Table.ofText? text.toList = some [("ldn-trusted-services", date)] := by
    decide +kernel
  refine ⟨document, rfl, ?_⟩
  rw [parse_of_ofText? document]
  rfl

end PeerSettings

end AccessPolicy
