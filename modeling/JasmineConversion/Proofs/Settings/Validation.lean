import JasmineConversion.Proofs.Outcome
import JasmineConversion.Proofs.Text.Codes
import JasmineConversion.Settings.Validation

/-! # Valid settings

Settings are given only when no value was at fault, however values are taken for those of the declared
types. Each setting is then a default or a value that was read without a fault, and keeps the rule of its
reader. Settings that keep their rules are given again by their own values.
-/

namespace JasmineConversion

open Text

namespace Text.Content

/-- A content is kept as a text whenever it is one. -/
def Canonical (content : Content) : Prop :=
  ofCodes content.toCodes = content

/-- The codes of a text, and no others, are kept as this text. -/
theorem ofCodes_eq_text_iff {values : Codes} {value : Text} :
    ofCodes values = text value ↔ values = Codes.ofText value := by
  rw [← mapM_charOf?_eq_some_iff, ofCodes]
  cases values.mapM charOf? <;> simp

/-- The codes of a text are kept as this text. -/
@[simp] theorem ofCodes_ofText (value : Text) : ofCodes (Codes.ofText value) = text value :=
  ofCodes_eq_text_iff.mpr rfl

/-- A text is kept as one. -/
theorem canonical_text (value : Text) : Canonical (text value) :=
  ofCodes_ofText value

/-- What codes give is kept. -/
theorem canonical_ofCodes (values : List Nat) : Canonical (ofCodes values) := by
  cases same : values.mapM charOf? with
  | some value =>
    rw [ofCodes, same]
    exact canonical_text value
  | none =>
    have kept : ofCodes values = codes values := by
      rw [ofCodes, same]
    rw [kept]
    exact kept

end Text.Content

namespace SettingValue

/-- A text that is read from a string keeps its rule. -/
theorem rule_of_textThat {fault? : Text → Option SettingFault} {codesFault : Codes → SettingFault}
    {codes : Codes} {found : Text} (read : textThat fault? codesFault codes = .ok found) :
    fault? found = none := by
  unfold textThat at read
  split at read
  · cases read
  · split at read
    · cases read
    · cases read
      assumption

/-- A value that is read as it is keeps its rule. -/
theorem that_eq_ok_iff {α : Type} {fault? : α → Option SettingFault} {value found : α} :
    that fault? value = .ok found ↔ value = found ∧ fault? found = none := by
  unfold that
  split
  · next fault faulty =>
    refine iff_of_false nofun ?_
    rintro ⟨rfl, allowed⟩
    cases faulty.symm.trans allowed
  · next allowed =>
    rw [Except.ok.injEq]
    exact ⟨fun same => ⟨same, same ▸ allowed⟩, And.left⟩

/-- A unit of the indent is not empty and made of spaces and tabs. -/
theorem indentUnit_rule {unit : Text} (allowed : indentUnitFault? unit = none) :
    unit ≠ [] ∧ ∀ c ∈ unit, isIndent c = true := by
  simpa [indentUnitFault?] using allowed

/-- A fixture variable has the name of an identifier. -/
theorem fixture_rule {name : Text} (allowed : fixtureFault? name = none) :
    isIdentifier name = true := by
  unfold fixtureFault? at allowed
  by_cases named : isIdentifier name = true
  · exact named
  · simp [named] at allowed

/-- A level that is read is one of the log. -/
theorem rule_of_levelThat {codes : Codes} {level : Text} (read : levelThat codes = .ok level) :
    Settings.logLevels.contains (str level) = true := by
  unfold levelThat at read
  split at read
  · cases read
  · dsimp only at read
    split at read
    · cases read
      assumption
    · cases read

/-- The codes of a text that keeps its rule are read as this text. -/
theorem textThat_ofText {fault? : Text → Option SettingFault} {codesFault : Codes → SettingFault}
    {value : Text} (allowed : fault? value = none) :
    textThat fault? codesFault (.ofText value) = .ok value := by
  simp only [textThat, Content.ofCodes_ofText, allowed]

/-- The name of a log level is read as it is. -/
theorem levelThat_ofText {level : Text} (known : Settings.logLevels.contains (str level) = true) :
    levelThat (.ofText level) = .ok level := by
  have kept : ∀ name ∈ Settings.logLevels, capitals name.toList = name.toList := by decide
  have same : capitals level = level := by
    have here := kept _ (List.contains_iff_mem.mp known)
    rwa [str, String.toList_ofList] at here
  simp only [levelThat, Content.ofCodes_ofText, same, known, if_true]

end SettingValue

namespace Coercions

variable {ω : Type} {coercions : Coercions ω}

/-- A value that is read as a string has passed the check. -/
theorem exists_of_asStringThat {α : Type} {check : Codes → Except SettingFault α}
    {value : SettingValue ω} {found : α} (read : coercions.asStringThat check value = .ok found) :
    ∃ codes, check codes = .ok found := by
  obtain ⟨codes, -, checked⟩ := exceptBind_eq_ok_iff.mp read
  exact ⟨codes, checked⟩

/-- A level that is read is not above the greatest. -/
theorem rule_of_asLevel {value : SettingValue ω} {level : Option Nat}
    (read : coercions.asLevel value = .ok level) : ∀ number ∈ level, number ≤ 20 := by
  unfold asLevel at read
  split at read
  · cases read
    simp
  · obtain ⟨number, -, checked⟩ := exceptBind_eq_ok_iff.mp read
    split at checked
    · cases checked
    · split at checked
      · cases checked
      · cases checked
        rintro _ ⟨⟩
        omega

namespace Lawful

/-- A string is checked as it is. -/
theorem asStringThat_string {α : Type} (lawful : coercions.Lawful)
    (check : Codes → Except SettingFault α) (codes : Codes) :
    coercions.asStringThat check (.string codes) = check codes := by
  rw [asStringThat, lawful.string]
  rfl

/-- A level in its range is read as it is. -/
theorem asLevel_ofLevel (lawful : coercions.Lawful) {level : Option Nat}
    (fits : ∀ number ∈ level, number ≤ 20) : coercions.asLevel (.ofLevel level) = .ok level := by
  cases level with
  | none => rfl
  | some number =>
    have few := fits number rfl
    simp only [SettingValue.ofLevel, asLevel, lawful.integer, mapError_ok, bind, Except.bind]
    rw [if_neg (by omega), if_neg (by omega)]
    rfl

/-- A truth value is read as it is. -/
theorem asBoolean_boolean (lawful : coercions.Lawful) (value : Bool) :
    coercions.asBoolean (.boolean value) = .ok value := by
  rw [asBoolean, lawful.boolean]
  rfl

end Lawful

end Coercions

/-- Each setting keeps the rule of its reader. -/
structure Settings.Ruled (settings : Settings) : Prop where
  indentUnit : SettingValue.indentUnitFault? settings.indentUnit = none
  indentLevel : ∀ level ∈ settings.indentLevel, level ≤ 20
  fixtureName : SettingValue.fixtureFault? settings.fixtureName = none
  mockMarker : SettingValue.markerFault? settings.mockMarker = none ∧ settings.mockMarker.Canonical
  inputMask : SettingValue.maskFault? settings.inputMask = none
  outputMask : SettingValue.maskFault? settings.outputMask = none
  logLevel : Settings.logLevels.contains (str settings.logLevel) = true

/-- Settings that are accepted: each keeps its rule, and the masks are not the same. -/
structure Settings.Valid (settings : Settings) : Prop extends Settings.Ruled settings where
  masksDiffer : settings.inputMask ≠ settings.outputMask

/-- What a conversion relies on: an indent of spaces and tabs, and a fixture variable with the name
of an identifier. -/
structure Settings.Sound (settings : Settings) : Prop where
  unit_ne_nil : settings.indentUnit ≠ []
  unit_indents : ∀ c ∈ settings.indentUnit, isIndent c = true
  fixture : SettingValue.isIdentifier settings.fixtureName = true

/-- Settings that keep their rules are sound. -/
theorem Settings.Ruled.sound {settings : Settings} (ruled : settings.Ruled) : settings.Sound where
  unit_ne_nil := (SettingValue.indentUnit_rule ruled.indentUnit).1
  unit_indents := (SettingValue.indentUnit_rule ruled.indentUnit).2
  fixture := SettingValue.fixture_rule ruled.fixtureName

namespace Settings

variable {ω : Type} {coercions : Coercions ω}

/-- A setting that is read without a fault has the property of the default and of all values that are
read. -/
theorem field_delivers {α : Type} {values : SettingValues ω} {key : SettingKey} {default : α}
    {read : SettingValue ω → Except SettingFault α} {holds : α → Prop} (standard : holds default)
    (reads : ∀ value found, read value = .ok found → holds found) :
    Delivers (· = []) (field values key default read) holds := by
  intro faults ended
  unfold field at ended ⊢
  cases given : values.get? key with
  | none =>
    simp only [given] at ended ⊢
    exact ⟨ended, standard⟩
  | some value =>
    simp only [given] at ended ⊢
    cases outcome : read value with
    | ok found =>
      simp only [outcome] at ended ⊢
      exact ⟨ended, reads value found outcome⟩
    | error fault =>
      simp only [outcome] at ended
      change faults ++ [_] = [] at ended
      simp at ended

/-- A setting that is read from a string has the property of the default and of all that pass the
check. -/
theorem string_delivers {α : Type} {values : SettingValues ω} {key : SettingKey} {default : α}
    {check : Codes → Except SettingFault α} {holds : α → Prop} (standard : holds default)
    (checks : ∀ codes found, check codes = .ok found → holds found) :
    Delivers (· = []) (field values key default (coercions.asStringThat check)) holds := by
  refine field_delivers standard fun value found read => ?_
  obtain ⟨codes, checked⟩ := Coercions.exists_of_asStringThat read
  exact checks codes found checked

/-- Settings that are read without a fault keep their rules. -/
theorem fields_delivers (coercions : Coercions ω) (values : SettingValues ω) :
    Delivers (· = []) (fields coercions values) Ruled := by
  have any : ∀ {key : SettingKey} {default : Bool},
      Delivers (· = []) (field values key default coercions.asBoolean) fun _ => True :=
    field_delivers trivial fun _ _ _ => trivial
  have text {key : SettingKey} {default : Text} {fault? : Text → Option SettingFault}
      {codesFault : Codes → SettingFault} (standard : fault? default = none) :
      Delivers (· = []) (field values key default
        (coercions.asStringThat (SettingValue.textThat fault? codesFault)))
        fun value => fault? value = none :=
    string_delivers standard fun _ _ => SettingValue.rule_of_textThat
  have mask {key : SettingKey} {default : Codes} (standard : SettingValue.maskFault? default = none) :
      Delivers (· = []) (field values key default
        (coercions.asStringThat (SettingValue.that SettingValue.maskFault?)))
        fun mask => SettingValue.maskFault? mask = none :=
    string_delivers standard fun _ _ read => (SettingValue.that_eq_ok_iff.mp read).2
  have marker : Delivers (· = []) (field values .mockMarker ({} : Settings).mockMarker
      (coercions.asStringThat fun codes => SettingValue.that SettingValue.markerFault? (.ofCodes codes)))
      fun marker => SettingValue.markerFault? marker = none ∧ marker.Canonical := by
    refine string_delivers ⟨by rfl, Content.canonical_text _⟩ fun codes found read => ?_
    obtain ⟨rfl, allowed⟩ := SettingValue.that_eq_ok_iff.mp read
    exact ⟨allowed, Content.canonical_ofCodes codes⟩
  unfold fields
  refine (text (by rfl)).bind fun unit => ?_
  refine (field_delivers (by rintro _ ⟨⟩) fun _ _ => Coercions.rule_of_asLevel).bind fun level => ?_
  refine (text (by rfl)).bind fun fixture => ?_
  refine marker.bind fun _ => any.bind fun _ => ?_
  refine (mask (by rfl)).bind fun input => (mask (by rfl)).bind fun output => ?_
  refine (string_delivers (by rfl) fun _ _ => SettingValue.rule_of_levelThat).bind fun log => ?_
  refine any.bind fun _ => any.bind fun _ => Delivers.pure ?_
  intro _ _ logs outputs inputs _ marks named levels indents
  exact ⟨indents, levels, named, marks, inputs, outputs, logs⟩

/-- Settings that are given are valid. -/
theorem valid_of_ofValues {values : SettingValues ω} {settings : Settings}
    (given : ofValues coercions values = .ok settings) : settings.Valid := by
  have delivered : (fields coercions values []).2 = [] → (fields coercions values []).1.Ruled :=
    fun clean => (fields_delivers coercions values [] clean).2
  unfold ofValues at given
  rw [run_eq_apply] at given
  generalize fields coercions values [] = result at delivered given
  obtain ⟨found, faults⟩ := result
  cases faults with
  | nil =>
    simp only [List.isEmpty_nil, Bool.not_true, Bool.false_eq_true, if_false] at given
    split at given
    · cases given
    · next differ =>
      cases given
      exact ⟨delivered rfl, differ⟩
  | cons fault faults => cases given

/-- Validated settings are sound. -/
theorem sound_of_ofValues {values : SettingValues ω} {settings : Settings}
    (valid : ofValues coercions values = .ok settings) : settings.Sound :=
  (valid_of_ofValues valid).sound

/-! ## Settings as values -/

/-- The value of a setting. -/
def valueOf (settings : Settings) : SettingKey → SettingValue ω
  | .indentUnit => .ofText settings.indentUnit
  | .indentLevel => .ofLevel settings.indentLevel
  | .fixtureName => .ofText settings.fixtureName
  | .mockMarker => .string settings.mockMarker.toCodes
  | .convertGlobals => .boolean settings.convertGlobals
  | .inputMask => .string settings.inputMask
  | .outputMask => .string settings.outputMask
  | .logLevel => .ofText settings.logLevel
  | .failFast => .boolean settings.failFast
  | .dryRun => .boolean settings.dryRun

/-- Settings as values have the value of each setting. -/
theorem get?_toValues (settings : Settings) (key : SettingKey) :
    settings.toValues.get? key = some (settings.valueOf key : SettingValue ω) := by
  cases key <;> rfl

/-- A setting is read from its own value. -/
theorem field_toValues {α : Type} {settings : Settings} (key : SettingKey) {default found : α}
    {read : SettingValue ω → Except SettingFault α} (reads : read (settings.valueOf key) = .ok found) :
    field settings.toValues key default read = Pure.pure found := by
  unfold field
  rw [get?_toValues]
  dsimp only
  rw [reads]

open SettingValue in
/-- Valid settings are given again by their own values. -/
theorem Valid.ofValues_toValues {settings : Settings} (valid : settings.Valid)
    (lawful : coercions.Lawful) : ofValues coercions settings.toValues = .ok settings := by
  have text {fault? : Text → Option SettingFault} {codesFault : Codes → SettingFault} {value : Text}
      (allowed : fault? value = none) :
      coercions.asStringThat (textThat fault? codesFault) (.ofText value) = .ok value :=
    (lawful.asStringThat_string _ _).trans (textThat_ofText allowed)
  have mask {value : Codes} (allowed : maskFault? value = none) :
      coercions.asStringThat (that maskFault?) (.string value) = .ok value :=
    (lawful.asStringThat_string _ _).trans (that_eq_ok_iff.mpr ⟨rfl, allowed⟩)
  have marker : coercions.asStringThat (fun codes => that markerFault? (.ofCodes codes))
      (.string settings.mockMarker.toCodes) = .ok settings.mockMarker :=
    (lawful.asStringThat_string _ _).trans
      (that_eq_ok_iff.mpr ⟨valid.mockMarker.2, valid.mockMarker.1⟩)
  have level : coercions.asStringThat levelThat (.ofText settings.logLevel) = .ok settings.logLevel :=
    (lawful.asStringThat_string _ _).trans (levelThat_ofText valid.logLevel)
  have read : fields coercions settings.toValues = Pure.pure settings := by
    unfold fields
    dsimp only
    rw [field_toValues .indentUnit (text valid.indentUnit),
      field_toValues .indentLevel (lawful.asLevel_ofLevel valid.indentLevel),
      field_toValues .fixtureName (text valid.fixtureName), field_toValues .mockMarker marker,
      field_toValues .convertGlobals (lawful.asBoolean_boolean _),
      field_toValues .inputMask (mask valid.inputMask),
      field_toValues .outputMask (mask valid.outputMask), field_toValues .logLevel level,
      field_toValues .failFast (lawful.asBoolean_boolean _),
      field_toValues .dryRun (lawful.asBoolean_boolean _)]
    simp only [pure_bind]
  unfold ofValues
  rw [read]
  exact if_neg valid.masksDiffer

end Settings

end JasmineConversion
