import JasmineConversion.Host.PlainValue
import JasmineConversion.Proofs.Settings.Validation
import JasmineConversion.Proofs.Suite.SelfReference

/-! # Settings that are read twice

Reading settings from values says what the settings are in plain terms. They are read again from their own
values, so that a second reading changes nothing. Only the values under the names of settings count.
-/

namespace JasmineConversion

open Text

namespace Text.Content

/-- No blank character stands for some code of a content. -/
def Visible (content : Content) : Prop :=
  ∃ code ∈ content.toCodes, ∀ c, isBlank c = true → c.toNat ≠ code

theorem visible_text {value : Text} (written : isBlankText value = false) : (text value).Visible := by
  obtain ⟨c, member, solid⟩ := List.all_eq_false.mp written
  refine ⟨c.toNat, List.mem_map_of_mem member, fun other white same => solid ?_⟩
  rwa [← Char.toNat_inj.mp same]

/-- Codes that are no text have one that is no character. -/
theorem exists_charOf?_eq_none {values : List Nat} (noText : values.mapM charOf? = none) :
    ∃ code ∈ values, charOf? code = none := by
  induction values with
  | nil => cases noText
  | cons code values ih =>
    cases first : charOf? code with
    | none => exact ⟨code, List.mem_cons_self, first⟩
    | some c =>
      have further : values.mapM charOf? = none := by
        rw [Option.eq_none_iff_forall_ne_some]
        simpa [first] using noText
      obtain ⟨other, member, noChar⟩ := ih further
      exact ⟨other, List.mem_cons_of_mem _ member, noChar⟩

/-- Codes that are kept as such have a code of no character among them. -/
theorem visible_codes {values : List Nat} (kept : (codes values).Canonical) : (codes values).Visible := by
  have noText : values.mapM charOf? = none := by
    cases same : values.mapM charOf? with
    | none => rfl
    | some value =>
      simp [Canonical, ofCodes, toCodes, same] at kept
  obtain ⟨code, member, noChar⟩ := exists_charOf?_eq_none noText
  refine ⟨code, member, ?_⟩
  rintro c - rfl
  rw [charOf?_toNat] at noChar
  cases noChar

end Text.Content

/-- A string that names a file, with one wildcard in its name. -/
structure Codes.OneWildcard (mask : Codes) : Prop where
  wildcard : mask.count '*'.toNat = 1
  noSlash : '/'.toNat ∉ mask
  noBackslash : '\\'.toNat ∉ mask

namespace SettingValue

/-- A marker without a fault is visible. -/
theorem marker_rule {marker : Content} (allowed : markerFault? marker = none)
    (kept : marker.Canonical) : marker.Visible := by
  cases marker with
  | text value =>
    refine Content.visible_text ?_
    simpa [markerFault?] using allowed
  | codes values => exact Content.visible_codes kept

/-- A mask names a file and has one wildcard. -/
theorem mask_rule {mask : Codes} (allowed : maskFault? mask = none) : mask.OneWildcard := by
  unfold maskFault? at allowed
  split at allowed
  · cases allowed
  · next wildcard =>
    split at allowed
    · cases allowed
    · next file =>
      simp only [Bool.or_eq_true, List.contains_iff_mem, not_or] at file
      exact ⟨not_not.mp wildcard, file.1, file.2⟩

end SettingValue

/-- What is true of settings that are read. -/
structure Settings.Established (settings : Settings) : Prop where
  indentUnit : settings.indentUnit ≠ [] ∧ ∀ c ∈ settings.indentUnit, c = ' ' ∨ c = '\t'
  indentLevel : ∀ level ∈ settings.indentLevel, level ≤ 20
  fixtureName : Pattern.Identifier settings.fixtureName ∧ settings.fixtureName ≠ "this".toList
  mockMarker : settings.mockMarker.Visible
  inputMask : settings.inputMask.OneWildcard
  outputMask : settings.outputMask.OneWildcard
  masksDiffer : settings.inputMask ≠ settings.outputMask
  logLevel : str settings.logLevel ∈ Settings.logLevels

/-- Valid settings have what their validation establishes. -/
theorem Settings.Valid.established {settings : Settings} (valid : settings.Valid) :
    settings.Established where
  indentUnit := by
    obtain ⟨written, indents⟩ := SettingValue.indentUnit_rule valid.indentUnit
    refine ⟨written, fun c member => ?_⟩
    simpa [isIndent] using indents c member
  indentLevel := valid.indentLevel
  fixtureName := identifier_of_fixtureFault? valid.fixtureName
  mockMarker := SettingValue.marker_rule valid.mockMarker.1 valid.mockMarker.2
  inputMask := SettingValue.mask_rule valid.inputMask
  outputMask := SettingValue.mask_rule valid.outputMask
  masksDiffer := valid.masksDiffer
  logLevel := List.contains_iff_mem.mp valid.logLevel

namespace Settings

variable {ω : Type} {coercions : Coercions ω} {values others : SettingValues ω}

/-! ## The values that count -/

/-- Two lists of values have the same value, or none, under the name of each setting. -/
def Agree (values others : SettingValues ω) : Prop :=
  ∀ key, others.get? key = values.get? key

/-- A setting is read alike from values that agree. -/
theorem field_congr {α : Type} {key : SettingKey} {default : α}
    {read : SettingValue ω → Except SettingFault α} (agree : Agree values others) :
    field others key default read = field values key default read := by
  unfold field
  rw [agree key]

/-- Values under names that are no setting have no influence. -/
theorem ofValues_congr (agree : Agree values others) :
    ofValues coercions others = ofValues coercions values := by
  have same : fields coercions others = fields coercions values := by
    unfold fields
    simp only [field_congr agree]
  unfold ofValues
  rw [same]

/-- Settings that are read keep what is promised of settings, are read again from their own values, and are
read from all values that agree with the given ones on the names of settings. How other values are taken
for those of the declared types makes no difference. -/
theorem reading_settles (lawful : coercions.Lawful) {settings : Settings}
    (given : ofValues coercions values = .ok settings) :
    settings.Established ∧ ofValues coercions settings.toValues = .ok settings ∧
      ∀ others, Agree values others → ofValues coercions others = .ok settings := by
  have valid := valid_of_ofValues given
  refine ⟨valid.established, valid.ofValues_toValues lawful, fun others agree => ?_⟩
  rw [ofValues_congr agree, given]

/-- Values of other kinds than their settings: a numeral, a word and a number for truth values, a level in
small letters, and bytes. -/
def loose : SettingValues PlainValue :=
  [("indent_level".toList, .string (.ofString " +04.0 ")),
    ("fail_fast".toList, .string (.ofString "Yes")), ("dry_run".toList, .integer 0),
    ("log_level".toList, .string (.ofString "warning")), ("indent_str".toList, .other (.bytes [32, 32]))]

/-- The settings that the values stand for. -/
def strict : Settings where
  indentUnit := "  ".toList
  indentLevel := some 4
  logLevel := "WARNING".toList
  failFast := true

/-- Values of other kinds settle on the values of their fields, with an unknown name or without. -/
theorem loose_settles :
    ofValues PlainValue.coercions loose = .ok strict ∧
      ofValues PlainValue.coercions strict.toValues = .ok strict ∧
      ofValues PlainValue.coercions (("theme".toList, .other .list) :: loose) = .ok strict := by
  have given : ofValues PlainValue.coercions loose = .ok strict := by rfl
  obtain ⟨-, again, others⟩ := reading_settles PlainValue.coercions_lawful given
  refine ⟨given, again, others _ fun key => ?_⟩
  cases key <;> rfl

end Settings

end JasmineConversion
