import AccessPolicy.Proofs.Settings.Meaning
import AccessPolicy.Proofs.Toml.WrittenLines
import AccessPolicy.Session.Peers
import AccessPolicy.Settings.Writer

/-!
# Written settings are read back

Settings are read back exactly from the document that is written for them, whatever
their texts contain, in whatever order the lines stand, and whichever lines of
settings that have their default are left out.  So it makes no difference whether a
registry is built from settings or from their document.
-/

namespace AccessPolicy.PeerSettings

open Toml (DottedKey Table Value WrittenEntry)

namespace Entry

/-- The value of a setting in a document. -/
def value (settings : PeerSettings) : Entry → Value
  | .trustLoopback => .boolean settings.trustLoopback
  | .addresses => .string settings.addresses
  | .hosts => .string settings.hosts

theorem isBare_key (entry : Entry) : DottedKey.IsBare entry.key := by
  cases entry <;> exact ⟨by decide, rfl⟩

theorem isWritten_value (settings : PeerSettings) (entry : Entry) :
    (entry.value settings).IsWritten (entry.writtenValue settings) := by
  cases entry with
  | trustLoopback => exact Value.isWritten_boolean _
  | addresses => exact Value.isWritten_string _
  | hosts => exact Value.isWritten_string _

/-- A setting with its key and its value. -/
def toWrittenEntry (settings : PeerSettings) (entry : Entry) : WrittenEntry where
  key := entry.key
  value := entry.value settings
  written := entry.writtenValue settings
  isBare := entry.isBare_key
  isWritten := entry.isWritten_value settings

theorem key_injective : Function.Injective key := by
  intro entry other same
  cases entry <;> cases other <;> first | rfl | exact absurd same (by decide)

end Entry

variable {settings : PeerSettings} {entries : List Entry}

/-- The entries of a section with lines for some settings. -/
def writtenEntries (settings : PeerSettings) (entries : List Entry) : Table :=
  entries.map fun entry => (entry.key, entry.value settings)

theorem mem_writtenEntries_iff {entry : Entry} {value : Value} :
    (entry.key, value) ∈ writtenEntries settings entries ↔
      entry ∈ entries ∧ value = entry.value settings := by
  rw [writtenEntries, List.mem_map]
  constructor
  · rintro ⟨other, member, same⟩
    obtain ⟨sameKey, rfl⟩ := Prod.mk.inj same
    obtain rfl := Entry.key_injective sameKey
    exact ⟨member, rfl⟩
  · rintro ⟨member, rfl⟩
    exact ⟨entry, member, rfl⟩

theorem isBare_sectionKey : DottedKey.IsBare sectionKey :=
  ⟨by decide, rfl⟩

/-- The document of some settings is a section with their entries. -/
theorem ofText?_documentText (nodup : entries.Nodup) :
    Table.ofText? (documentText settings entries).toList =
      some [(sectionKey, .table .header (writtenEntries settings entries))] := by
  have nodupKeys :
      ((entries.map (Entry.toWrittenEntry settings)).map WrittenEntry.key).Nodup := by
    rw [List.map_map]
    exact nodup.map Entry.key_injective
  have isSection := Table.ofText?_section isBare_sectionKey nodupKeys
  rw [List.flatMap_map, List.map_map] at isSection
  rw [documentText, String.toList_ofList]
  exact isSection

/-- A setting is given its value by its line, or its default when it has no line. -/
theorem gives_writtenEntries {α : Type} {wrap : α → Value} {default setting : α}
    (entry : Entry) (isValue : wrap setting = entry.value settings)
    (omitted : entry ∉ entries → setting = default) :
    (writtenEntries settings entries).Gives entry.key wrap default setting := by
  by_cases member : entry ∈ entries
  · exact .inl (mem_writtenEntries_iff.mpr ⟨member, isValue⟩)
  · refine .inr ⟨?_, omitted member⟩
    intro value given
    exact member (mem_writtenEntries_iff.mp given).1

theorem givenBy_writtenEntries (omitted : ∀ entry, entry ∉ entries → entry.IsDefault settings) :
    GivenBy (writtenEntries settings entries) settings where
  trustLoopback := gives_writtenEntries .trustLoopback rfl (omitted .trustLoopback)
  addresses := gives_writtenEntries .addresses rfl (omitted .addresses)
  hosts := gives_writtenEntries .hosts rfl (omitted .hosts)

theorem nodup_writtenEntries (nodup : entries.Nodup) :
    ((writtenEntries settings entries).map Prod.fst).Nodup := by
  rw [writtenEntries, List.map_map]
  exact nodup.map Entry.key_injective

/-- Written settings are read back.

The lines of the settings stand in any order, and the line of a setting that has its
default may be left out.  The document is accepted and gives the same settings, so a
registry built from it is the one built from the settings, with the same faults and
the same questions to the resolver, and building it leads a session to the same
state. -/
theorem parse_documentText (settings : PeerSettings) (entries : List Entry)
    (nodup : entries.Nodup)
    (omitted : ∀ entry, entry ∉ entries → entry.IsDefault settings) (words : String) :
    parse (documentText settings entries) words = .ok settings ∧
      (∀ resolver, (parse (documentText settings entries) words).map
          (RegistryBuild.ofSettings resolver) =
        .ok (RegistryBuild.ofSettings resolver settings)) ∧
      ∀ state : Session.PeerState,
        state.step (.buildFromText (documentText settings entries) words) =
          state.step (.build settings) := by
  have readBack : parse (documentText settings entries) words = .ok settings := by
    rw [parse_of_ofText? (ofText?_documentText nodup), reported_eq_ok_iff,
      ofRoot_of_lookup List.lookup_cons_self, ofSection_of_entries? rfl,
      ofTable_eq_ok_iff (nodup_writtenEntries nodup)]
    exact givenBy_writtenEntries omitted
  refine ⟨readBack, ?_, ?_⟩
  · intro resolver
    rw [readBack]
    rfl
  · intro state
    exact congrArg state.adoptSettings readBack

/-- The texts hold a quote, a backslash, a line break, the first character and one
that is a control only behind the basic Latin range; the switch has its default. -/
theorem parse_documentText_of_controls :
    let settings : PeerSettings := { addresses := "10.0.0.1,\"\\\n\x00", hosts := "é\x7f\u0085" }
    (documentText settings [.hosts, .addresses]).toList =
        ("[ldn-trusted-services]\n" ++
          "from_hostname = \"é\\u007f\\u0085\"\n" ++
          "from_ip = \"10.0.0.1,\\\"\\\\\\u000a\\u0000\"\n").toList ∧
      parse (documentText settings [.hosts, .addresses]) = .ok settings := by
  intro settings
  refine ⟨by decide, ?_⟩
  refine (parse_documentText settings [.hosts, .addresses] (by decide) ?_ "").1
  intro entry omitted
  cases entry with
  | trustLoopback => rfl
  | addresses => simp at omitted
  | hosts => simp at omitted

end AccessPolicy.PeerSettings
