import AccessPolicy.Settings.Document
import AccessPolicy.Proofs.Text.Utf8

/-!
# Settings in files

A file that holds the bytes of a text means what the text means, and a file that
holds other bytes means nothing.  What differs is the name under which a fault
is reported: that of the file, or the one for a text without a file.  What is said
of a text that is refused has no part in what is accepted.
-/

namespace AccessPolicy.PeerSettings

open Text (IsUtf8 isUtf8_iff_exists_toUTF8 isUtf8_toUTF8 isUtf8_surrounded_iff
  fromUTF8?_eq_some_iff)

section Reports

variable {sourceName words : String} {result : Except SettingsProblem PeerSettings}

/-- A fault is reported under the name of its source. -/
theorem sourceName_of_reported {fault : ConfigurationFault}
    (failed : reported sourceName words result = .error fault) :
    fault.sourceName = sourceName := by
  cases result with
  | ok settings => contradiction
  | error problem =>
      obtain rfl := Except.error.inj failed
      rfl

/-- Settings are reported as they are. -/
theorem reported_eq_ok_iff {settings : PeerSettings} :
    reported sourceName words result = .ok settings ↔ result = .ok settings := by
  cases result <;> simp [reported, Except.mapError]

theorem exists_reported_eq_error (sourceName words : String) (problem : SettingsProblem) :
    ∃ fault, reported sourceName words (.error problem) = .error fault :=
  ⟨_, rfl⟩

end Reports

theorem ofBytes_toUTF8 (text : String) : ofBytes (some text.toUTF8) = ofText text := by
  rw [ofBytes, fromUTF8?_eq_some_iff.mpr rfl]
  rfl

theorem ofBytes_of_not_isUtf8 {bytes : ByteArray} (noText : ¬IsUtf8 bytes.data.toList) :
    ofBytes (some bytes) = .error .notText := by
  have unread : String.fromUTF8? bytes = none := by
    rw [Option.eq_none_iff_forall_ne_some]
    intro text read
    exact noText (isUtf8_iff_exists_toUTF8.mpr ⟨text, fromUTF8?_eq_some_iff.mp read⟩)
  rw [ofBytes, unread]
  rfl

/-- A file with the bytes of a text gives the settings of the text, whatever is
said of either. -/
theorem load_toUTF8_eq_ok_iff {path text words otherWords : String}
    {settings : PeerSettings} :
    load path (some text.toUTF8) words = .ok settings ↔
      parse text otherWords = .ok settings := by
  rw [load, parse, ofBytes_toUTF8, reported_eq_ok_iff, reported_eq_ok_iff]

theorem exists_load_eq_error {bytes : ByteArray} (noText : ¬IsUtf8 bytes.data.toList)
    (path words : String) : ∃ fault, load path (some bytes) words = .error fault := by
  rw [load, ofBytes_of_not_isUtf8 noText]
  exact exists_reported_eq_error path words .notText

/-- Texts around bytes that are no text do not make a text of them. -/
theorem not_isUtf8_surrounded {bytes : ByteArray} (noText : ¬IsUtf8 bytes.data.toList)
    (before after : String) :
    ¬IsUtf8 (before.toUTF8 ++ bytes ++ after.toUTF8).data.toList := by
  rw [ByteArray.data_append, ByteArray.data_append, Array.toList_append, Array.toList_append,
    isUtf8_surrounded_iff (isUtf8_toUTF8 before) (isUtf8_toUTF8 after)]
  exact noText

/-- Files and texts agree.

The bytes of a file are those of a text exactly when they are the codes of
characters.  If they are the bytes of a text, the file gives settings if the text
does, and the same; if not, the file gives a fault, whatever texts stand before
and behind the bytes.  A fault of a file has the path as it was given as the name
of its source, and a fault of a text without a file has the name for such. -/
theorem load_content (path : String) (bytes : ByteArray) (words : String) :
    (IsUtf8 bytes.data.toList ↔ ∃ text : String, text.toUTF8 = bytes) ∧
      (∀ text : String, text.toUTF8 = bytes → ∀ otherWords settings,
        (load path (some bytes) words = .ok settings ↔
          parse text otherWords = .ok settings)) ∧
      (¬IsUtf8 bytes.data.toList →
        (∃ fault, load path (some bytes) words = .error fault) ∧
        ∀ before after : String, ∃ fault,
          load path (some (before.toUTF8 ++ bytes ++ after.toUTF8)) words = .error fault) ∧
      (∀ content fault, load path content words = .error fault → fault.sourceName = path) ∧
      ∀ text fault, parse text words = .error fault → fault.sourceName = "<inline>" := by
  refine ⟨isUtf8_iff_exists_toUTF8, ?_, ?_, ?_, ?_⟩
  · rintro text rfl otherWords settings
    exact load_toUTF8_eq_ok_iff
  · intro noText
    constructor
    · exact exists_load_eq_error noText path words
    · intro before after
      exact exists_load_eq_error (not_isUtf8_surrounded noText before after) path words
  · intro content fault failed
    exact sourceName_of_reported failed
  · intro text fault failed
    exact sourceName_of_reported failed

/-- Two bytes that would be a longer code of the first character stand between
quotes; a mark of the byte order stands alone. -/
theorem load_content_of_overlong_code :
    let path := "peers.toml"
    let overlong := ByteArray.mk #[0xC0, 0x80]
    let mark := "\ufeff"
    (∃ fault, load path (some ("from_ip = '".toUTF8 ++ overlong ++ "'\n".toUTF8)) =
        .error fault ∧ fault.sourceName = path) ∧
      load path (some mark.toUTF8) = .ok {} := by
  intro path overlong mark
  have invalid : ¬overlong.IsValidUTF8 := by decide
  obtain ⟨isText, -, refused, named, -⟩ := load_content path overlong ""
  have noText : ¬IsUtf8 overlong.data.toList := by
    rw [isText]
    rintro ⟨text, same⟩
    rw [← same] at invalid
    exact invalid text.isValidUTF8
  obtain ⟨fault, failed⟩ := (refused noText).2 "from_ip = '" "'\n"
  obtain ⟨-, agrees, -⟩ := load_content path mark.toUTF8 ""
  have read : parse mark = .ok {} := by
    decide +kernel
  exact ⟨⟨fault, failed, named _ fault failed⟩, (agrees mark rfl "" {}).mpr read⟩

end AccessPolicy.PeerSettings
