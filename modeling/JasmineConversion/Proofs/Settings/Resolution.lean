import Mathlib.Algebra.Group.Nat.Hom
import JasmineConversion.CommandLine.Run
import JasmineConversion.Host.PlainValue
import JasmineConversion.Proofs.Files.Tree
import JasmineConversion.Proofs.Settings.Validation
import JasmineConversion.Proofs.Text.Front

/-! # How settings are put together

The settings of a file, with given values in place of theirs, are valid or refused as settings, with few
exceptions: a path of the file that cannot be handed to the system, bytes in the file that are no text, and
an indent of digits that is no number, or one that there is no room for.
-/

namespace JasmineConversion

open Text Settings

/-- What may be given on top of a settings file: strings, and flags that are on. -/
structure Overrides where
  inputMask : Option Codes := none
  outputMask : Option Codes := none
  indentUnit : Option Codes := none
  logLevel : Option Codes := none
  dryRun : Bool := false
  failFast : Bool := false

namespace Overrides

variable {ω : Type}

/-- The value of a string that may be given. -/
def ofString (codes : Option Codes) : SettingValue ω :=
  (codes.map SettingValue.string).getD .null

/-- The value of a flag that may be on. -/
def ofFlag (isOn : Bool) : SettingValue ω :=
  if isOn then .boolean true else .null

/-- The values that are given. -/
def values (overrides : Overrides) : SettingValues ω :=
  [(SettingKey.inputMask.name.toList, ofString overrides.inputMask),
    (SettingKey.outputMask.name.toList, ofString overrides.outputMask),
    (SettingKey.indentUnit.name.toList, ofString overrides.indentUnit),
    (SettingKey.logLevel.name.toList, ofString overrides.logLevel),
    (SettingKey.dryRun.name.toList, ofFlag overrides.dryRun),
    (SettingKey.failFast.name.toList, ofFlag overrides.failFast)]

/-- What a request on the command line gives. -/
def ofRequest (request : CommandLine.ConvertRequest) : Overrides where
  inputMask := (request.arguments.value? .inputMask).map .ofText
  outputMask := (request.arguments.value? .outputMask).map .ofText
  indentUnit := (request.arguments.value? .indent).map .ofText
  logLevel := (request.arguments.value? .logLevel).map .ofText
  dryRun := request.arguments.has .dryRun
  failFast := request.arguments.has .failFast

/-- The values of a request on the command line are those of what it gives. -/
theorem values_ofRequest (request : CommandLine.ConvertRequest) :
    ((ofRequest request).values : SettingValues ω) = request.values := by
  simp only [values, ofRequest, ofString, Option.map_map]
  rfl

end Overrides

variable {ω : Type} {host : Host ω} {tree : FileTree} {path : Codes} {file : Option Codes}
  {overrides : Overrides} {failure : Failure}

/-- A failure to load a settings file that is no matter of settings: its path cannot be handed to the
system, or its bytes are no text and its reader does not report this. -/
inductive LoadEscapes (host : Host ω) (tree : FileTree) (path : Codes) : Failure → Prop
  | hazard {hazard : Hazard} (found : FileName.hazard? path = some hazard) :
      LoadEscapes host tree path (.hazard hazard)
  | undecodable {content : List UInt8} {fault error : EncodingError}
      (clean : FileName.hazard? path = none) (found : fileContent tree path = .ok content)
      (noText : Encoding.decode content = .error fault)
      (flawed : host.document content = .error (.encoding error)) :
      LoadEscapes host tree path (.encoding error)
  | mistaken {content : List UInt8} {fault : EncodingError} {mistake : DocumentMistake}
      (clean : FileName.hazard? path = none) (found : fileContent tree path = .ok content)
      (noText : Encoding.decode content = .error fault)
      (flawed : host.document content = .error (.mistaken mistake)) :
      LoadEscapes host tree path (.document mistake)

/-- A failure to put settings together that is no matter of settings. -/
inductive Escapes (host : Host ω) (tree : FileTree) (file : Option Codes) (overrides : Overrides) :
    Failure → Prop
  | file {path : Codes} {failure : Failure} (given : file = some path)
      (escapes : LoadEscapes host tree path failure) : Escapes host tree file overrides failure
  | indent {settings : Settings} {value : Text} {fault : IndentFault}
      (loaded : base host tree file = .ok settings)
      (given : overrides.indentUnit = some (.ofText value))
      (uncounted : parseIndent host.room value = .error fault) :
      Escapes host tree file overrides (.indent fault)

/-! ## The file -/

/-- Bytes that are a text are read as a document or not well-formed. -/
theorem Host.Lawful.not_decoded {content : List UInt8} {flaw : DocumentFlaw} (lawful : host.Lawful)
    (flawed : host.document content = .error flaw) (other : flaw ≠ .malformed) :
    ∃ fault, Encoding.decode content = .error fault := by
  cases decoded : Encoding.decode content with
  | ok text => exact absurd (lawful.text content text decoded flaw flawed) other
  | error fault => exact ⟨fault, rfl⟩

/-- The loading of a settings file ends exactly if a failure escapes. -/
theorem load_eq_error_iff (lawful : host.Lawful) :
    load host tree path = .error failure ↔ LoadEscapes host tree path failure := by
  unfold load
  cases clean : FileName.hazard? path with
  | some hazard =>
    constructor
    · rintro ⟨⟩
      exact .hazard clean
    · rintro (found | ⟨clean'⟩ | ⟨clean'⟩)
      · cases clean.symm.trans found
        rfl
      · cases clean.symm.trans clean'
      · cases clean.symm.trans clean'
  | none =>
    dsimp only
    cases found : fileContent tree path with
    | error fault =>
      refine iff_of_false nofun ?_
      rintro (hazard | ⟨-, found'⟩ | ⟨-, found'⟩)
      · cases clean.symm.trans hazard
      · cases found.symm.trans found'
      · cases found.symm.trans found'
    | ok content =>
      have escapes : LoadEscapes host tree path failure ↔
          ofContent host content = .error failure := by
        unfold ofContent
        constructor
        · rintro (hazard | ⟨-, found', -, flawed⟩ | ⟨-, found', -, flawed⟩)
          · cases clean.symm.trans hazard
          · cases found.symm.trans found'
            rw [flawed]
          · cases found.symm.trans found'
            rw [flawed]
        · intro ran
          split at ran
          · cases ran
          · next flawed =>
            cases ran
            obtain ⟨fault, noText⟩ := lawful.not_decoded flawed nofun
            exact .undecodable clean found noText flawed
          · next flawed =>
            cases ran
            obtain ⟨fault, noText⟩ := lawful.not_decoded flawed nofun
            exact .mistaken clean found noText flawed
          · cases ran
      dsimp only
      rw [escapes, exceptBind_eq_error_iff]
      -- Once the content is read, nothing of what is made of it escapes.
      refine or_iff_left ?_
      rintro ⟨loaded, -, ran⟩
      cases loaded <;> cases ran

/-- Without its settings, a file is refused as settings or escapes. -/
theorem base_eq_error_iff (lawful : host.Lawful) :
    base host tree file = .error failure ↔ ∃ path, file = some path ∧
      (LoadEscapes host tree path failure ∨ ∃ outcome fault, load host tree path = .ok outcome ∧
        outcome.data = none ∧ outcome.error = some fault ∧
          failure = .settings (.unloadable fault.message)) := by
  cases file with
  | none => exact iff_of_false nofun (by simp)
  | some path =>
    simp only [Option.some.injEq, exists_eq_left', ← load_eq_error_iff lawful]
    rw [base, exceptBind_eq_error_iff]
    refine or_congr_right (exists_congr fun outcome => ?_)
    obtain ⟨status, data, error, warnings, metadata⟩ := outcome
    cases data <;> cases error <;> simp [pure, Except.pure, eq_comm]

/-! ## The given values -/

/-- A string that may be given is refused before it is checked only if it is an indent, and as such. -/
theorem givenValue_ofString_eq_error_iff {key : Text} {codes : Option Codes} :
    givenValue host (key, Overrides.ofString codes) = .error failure ↔
      key = SettingKey.indentUnit.name.toList ∧ ∃ value fault, codes = some (.ofText value) ∧
        parseIndent host.room value = .error fault ∧ failure = .indent fault := by
  unfold givenValue
  dsimp only
  split
  · next isIndent =>
    rw [and_iff_right isIndent]
    rcases codes with - | codes
    · exact iff_of_false nofun (by simp)
    · rw [show Overrides.ofString (some codes) = SettingValue.string codes from rfl, indentValue]
      simp only [Option.some.injEq, ← Content.ofCodes_eq_text_iff]
      cases kept : Content.ofCodes codes with
      | codes values => exact iff_of_false nofun (by simp)
      | text value =>
        cases unread : parseIndent host.room value <;>
          simp [Except.map, mapError_ok, mapError_error, eq_comm, unread]
  · next other => exact iff_of_false nofun fun given => other given.1

/-- Of the given values, only an indent can be refused before it is checked. -/
theorem indent_of_givenValue {entry : Text × SettingValue ω} (member : entry ∈ overrides.values)
    (ran : givenValue host entry = .error failure) :
    ∃ value fault, overrides.indentUnit = some (.ofText value) ∧
      parseIndent host.room value = .error fault ∧
      failure = .indent fault := by
  have flag {key : SettingKey} {isOn : Bool} (other : key.name.toList ≠ SettingKey.indentUnit.name.toList) :
      givenValue host (key.name.toList, Overrides.ofFlag isOn) ≠ .error failure := by
    rw [givenValue, if_neg other]
    exact nofun
  simp only [Overrides.values, List.mem_cons, List.not_mem_nil, or_false] at member
  rcases member with rfl | rfl | rfl | rfl | rfl | rfl
  · exact absurd (givenValue_ofString_eq_error_iff.mp ran).1 (by decide)
  · exact absurd (givenValue_ofString_eq_error_iff.mp ran).1 (by decide)
  · exact (givenValue_ofString_eq_error_iff.mp ran).2
  · exact absurd (givenValue_ofString_eq_error_iff.mp ran).1 (by decide)
  · exact absurd ran (flag (by decide))
  · exact absurd ran (flag (by decide))

/-- Given values are refused before they are checked exactly if there is an indent that is. -/
theorem mapM_givenValue_eq_error_iff :
    ((overrides.values : SettingValues ω).filter fun entry => !entry.2.isNull).mapM (givenValue host) = .error failure ↔
      ∃ value fault, overrides.indentUnit = some (.ofText value) ∧
      parseIndent host.room value = .error fault ∧
        failure = .indent fault := by
  constructor
  · intro ran
    obtain ⟨entry, member, fails⟩ := exists_of_exceptMapM_eq_error ran
    exact indent_of_givenValue (List.mem_filter.mp member).1 fails
  · rintro ⟨value, fault, given, unread, rfl⟩
    have fails : givenValue host (SettingKey.indentUnit.name.toList, Overrides.ofString overrides.indentUnit) =
        .error (.indent fault) :=
      givenValue_ofString_eq_error_iff.mpr ⟨rfl, value, fault, given, unread, rfl⟩
    have member : (SettingKey.indentUnit.name.toList, Overrides.ofString overrides.indentUnit) ∈
        (overrides.values : SettingValues ω).filter fun entry => !entry.2.isNull := by
      refine List.mem_filter.mpr ⟨by simp [Overrides.values], ?_⟩
      simp [Overrides.ofString, given, SettingValue.isNull]
    cases ran : ((overrides.values : SettingValues ω).filter fun entry => !entry.2.isNull).mapM (givenValue host) with
    | ok results =>
      obtain ⟨result, passes⟩ := exists_of_exceptMapM_eq_ok ran _ member
      cases fails.symm.trans passes
    | error other =>
      obtain ⟨entry, isEntry, fails'⟩ := exists_of_exceptMapM_eq_error ran
      obtain ⟨value', fault', given', unread', rfl⟩ :=
        indent_of_givenValue (List.mem_filter.mp isEntry).1 fails'
      obtain rfl := Codes.ofText_inj.mp (Option.some.inj (given.symm.trans given'))
      cases unread.symm.trans unread'
      rfl

/-! ## Digits -/

theorem digit_bounds {c : Char} (digit : c.isDigit = true) : 48 ≤ c.toNat ∧ c.toNat ≤ 57 := by
  rw [Char.isDigit, Bool.and_eq_true, decide_eq_true_eq, decide_eq_true_eq] at digit
  exact ⟨UInt32.le_iff_toNat_le.mp digit.1, UInt32.le_iff_toNat_le.mp digit.2⟩

/-- A text of digits is read as a number as it is. -/
theorem numberText_of_digits {text : Text} (digits : ∀ c ∈ text, c.isDigit = true) :
    numberText (text.map Char.toNat) = text := by
  rw [numberText, List.map_map]
  refine (List.map_congr_left fun c member => ?_).trans (List.map_id text)
  have bounds := digit_bounds (digits c member)
  have ascii : c.toNat < 127 := by omega
  simp only [Function.comp, if_pos ascii, Char.ofNat_toNat, id]

theorem digitValue_lt {c : Char} (digit : c.isDigit = true) : digitValue c < 10 := by
  have bounds := digit_bounds digit
  rw [digitValue, if_pos digit, show '0'.toNat = 48 from rfl]
  omega

/-- Digits without underscores are joined. -/
theorem joinsDigits_of_digits {text : Text} (digits : ∀ c ∈ text, c.isDigit = true) :
    joinsDigits text = true := by
  have absent : '_' ∉ text := fun member => absurd (digits _ member) (by decide)
  have apart : occursIn "__".toList text = false := by
    induction text with
    | nil => rfl
    | cons c text ih =>
      rw [List.mem_cons, not_or] at absent
      have other : startsWith "__".toList (c :: text) = false := by
        simp [startsWith, after?, absent.1]
      rw [occursIn, other, ih (fun d member => digits d (List.mem_cons_of_mem _ member)) absent.2]
      rfl
  rw [joinsDigits, apart]
  have first : text.head? ≠ some '_' := fun same => absent (List.mem_of_head? same)
  have last : text.getLast? ≠ some '_' := fun same => absent (List.mem_of_getLast? same)
  simp [first, last]

/-- Digits have no white space around them. -/
theorem trimNumber_of_digits {text : Text} (digits : ∀ c ∈ text, c.isDigit = true) :
    trimNumber text = text := by
  have inside : ∀ c ∈ text, surroundsNumber c = false := by
    intro c member
    have bounds := digit_bounds (digits c member)
    have other : (c == ' ') = false := beq_false_of_ne (by rintro rfl; exact absurd bounds (by decide))
    rw [surroundsNumber, other, Bool.false_or, Bool.and_eq_false_imp]
    intro _
    rw [decide_eq_false_iff_not]
    omega
  have kept (text : Text) (inside : ∀ c ∈ text, surroundsNumber c = false) :
      text.dropWhile surroundsNumber = text := by
    cases text with
    | nil => rfl
    | cons c text => exact List.dropWhile_cons_of_neg (by simp [inside c List.mem_cons_self])
  rw [trimNumber, kept text inside, dropEndWhile, kept _ fun c member => inside c (List.mem_reverse.mp member),
    List.reverse_reverse]

theorem afterBaseMark_decimal (text : Text) : afterBaseMark 10 text = text := by
  unfold afterBaseMark
  simp only [Nat.reduceEqDiff, if_false, List.contains_nil, Bool.false_eq_true]
  split <;> rfl

/-- Digits that are not too many are a number. -/
theorem read_of_digits {text : Text} (nonempty : text ≠ []) (digits : ∀ c ∈ text, c.isDigit = true)
    (few : text.length ≤ digitLimit) :
    Integer.read 10 (text.map Char.toNat) = .ok (digitsNumber 10 text) := by
  have written : text.takeWhile (fun c => decide (digitValue c < 10) || c == '_') = text := by
    have all : ∀ c ∈ text, (decide (digitValue c < 10) || c == '_') = true := fun c member => by
      simp [digitValue_lt (digits c member)]
    have run := takeWhile_append_of_stops all (stops_nil _)
    rwa [List.append_nil] at run
  have plain : text.filter (· != '_') = text := by
    refine List.filter_eq_self.mpr fun c member => bne_iff_ne.mpr ?_
    rintro rfl
    exact absurd (digits _ member) (by decide)
  have enough : decide (text.length > digitLimit) = false := decide_eq_false (Nat.not_lt.mpr few)
  unfold Integer.read
  rw [numberText_of_digits digits, trimNumber_of_digits digits]
  split
  next negative body sign =>
  split at sign
  · exact absurd (digits '-' List.mem_cons_self) (by decide)
  · exact absurd (digits '+' List.mem_cons_self) (by decide)
  · cases sign
    rw [afterBaseMark_decimal]
    dsimp only
    rw [written, plain, joinsDigits_of_digits digits]
    simp [enough, nonempty]

/-- An indent that is refused before it is checked consists of digits, which are not plain ones, too many,
or those of a width that there is no room for. -/
theorem digits_of_parseIndent {room : Nat → Option RoomFault} {value : Text} {fault : IndentFault}
    (refused : parseIndent room value = .error fault) :
    value ≠ [] ∧ (∀ c ∈ value, isDigit c = true) ∧ ((∀ c ∈ value, c.isDigit = true) →
      value.length ≤ digitLimit → room (digitsNumber 10 value) ≠ none) := by
  unfold parseIndent at refused
  dsimp only at refused
  split at refused
  · cases refused
  split at refused
  · next digits =>
    rw [Bool.and_eq_true, Bool.not_eq_true', List.isEmpty_eq_false_iff, List.all_eq_true] at digits
    refine ⟨digits.1, digits.2, fun plain few fits => ?_⟩
    rw [read_of_digits digits.1 plain few] at refused
    dsimp only at refused
    rw [Int.toNat_natCast, fits] at refused
    cases refused
  · cases refused

/-! ## Putting settings together -/

/-- What escapes is the failure. -/
theorem resolve_of_escapes (lawful : host.Lawful) (escapes : Escapes host tree file overrides failure) :
    resolve host tree file overrides.values = .error failure := by
  unfold resolve
  rw [exceptBind_eq_error_iff]
  cases escapes with
  | file given escapes => exact .inl ((base_eq_error_iff lawful).mpr ⟨_, given, .inl escapes⟩)
  | @indent settings value fault loaded given uncounted =>
    refine .inr ⟨settings, loaded, exceptBind_eq_error_iff.mpr (.inl ?_)⟩
    exact mapM_givenValue_eq_error_iff.mpr ⟨value, fault, given, uncounted, rfl⟩

/-- A failure escapes, or it is a matter of settings. -/
theorem escapes_of_resolve (lawful : host.Lawful)
    (ran : resolve host tree file overrides.values = .error failure) :
    Escapes host tree file overrides failure ∨ ∃ error, failure = .settings error := by
  unfold resolve at ran
  rcases exceptBind_eq_error_iff.mp ran with unloaded | ⟨settings, loaded, ran⟩
  · obtain ⟨path, given, escapes | ⟨outcome, fault, -, -, -, rfl⟩⟩ :=
      (base_eq_error_iff lawful).mp unloaded
    · exact .inl (.file given escapes)
    · exact .inr ⟨_, rfl⟩
  · rcases exceptBind_eq_error_iff.mp ran with refused | ⟨given, -, ran⟩
    · obtain ⟨value, fault, given, uncounted, rfl⟩ := mapM_givenValue_eq_error_iff.mp refused
      exact .inl (.indent loaded given uncounted)
    · cases checked : ofValues host.toCoercions (given ++ settings.toValues) with
      | ok found =>
        rw [checked] at ran
        cases ran
      | error error =>
        rw [checked] at ran
        cases ran
        exact .inr ⟨error, rfl⟩

/-- A settings file and given values that are settings or refused as settings: the path can be handed to
the system, what it leads to is a text, and an indent has no digits but plain ones, not too many, of a
width that there is room for. -/
structure Readable (host : Host ω) (tree : FileTree) (file : Option Codes) (overrides : Overrides) :
    Prop where
  clean : ∀ path ∈ file, FileName.hazard? path = none
  document : ∀ path ∈ file, ∀ content, fileContent tree path = .ok content →
    ∃ text, Encoding.decode content = .ok text
  indent : ∀ value, overrides.indentUnit = some (.ofText value) → value ≠ [] →
    (∀ c ∈ value, isDigit c = true) → (∀ c ∈ value, c.isDigit = true) ∧
      value.length ≤ digitLimit ∧ host.room (digitsNumber 10 value) = none

/-- Nothing escapes if file and values are readable. -/
theorem Readable.not_escapes (readable : Readable host tree file overrides) :
    ¬ Escapes host tree file overrides failure := by
  intro escapes
  cases escapes with
  | file given escapes =>
    cases escapes with
    | hazard found => cases (readable.clean _ given).symm.trans found
    | undecodable _ found noText =>
      obtain ⟨text, decoded⟩ := readable.document _ given _ found
      cases decoded.symm.trans noText
    | mistaken _ found noText =>
      obtain ⟨text, decoded⟩ := readable.document _ given _ found
      cases decoded.symm.trans noText
  | @indent _ value _ _ given uncounted =>
    obtain ⟨nonempty, digits, long⟩ := digits_of_parseIndent uncounted
    obtain ⟨plain, few, fits⟩ := readable.indent value given nonempty digits
    exact long plain few fits

/-- Settings that are put together pass their own validation. There are none when they are refused as
settings, or when a failure that is no matter of settings escapes, in one of the ways described. The
latter does not happen if file and values are readable. The command line gives values of this kind. -/
theorem settings_resolved_or_refused (lawful : host.Lawful) (tree : FileTree) (file : Option Codes)
    (overrides : Overrides) :
    (∀ settings, resolve host tree file overrides.values = .ok settings →
      ofValues host.toCoercions settings.toValues = .ok settings) ∧
    (∀ failure, resolve host tree file overrides.values = .error failure →
      (∃ error, failure = .settings error) ∨ Escapes host tree file overrides failure) ∧
    (∀ failure, Escapes host tree file overrides failure →
      resolve host tree file overrides.values = .error failure) ∧
    (Readable host tree file overrides →
      (∃ settings, resolve host tree file overrides.values = .ok settings) ∨
        ∃ error, resolve host tree file overrides.values = .error (.settings error)) ∧
    ∀ request, overrides = .ofRequest request →
      resolve host tree file request.values = resolve host tree file overrides.values := by
  refine ⟨fun settings ran => ?_, fun failure ran => (escapes_of_resolve lawful ran).symm,
    fun failure => resolve_of_escapes lawful, fun readable => ?_, ?_⟩
  · obtain ⟨base, -, ran⟩ := exceptBind_eq_ok_iff.mp ran
    obtain ⟨given, -, ran⟩ := exceptBind_eq_ok_iff.mp ran
    exact (valid_of_ofValues (mapError_eq_ok_iff.mp ran)).ofValues_toValues lawful.coercions
  · cases ran : resolve host tree file overrides.values with
    | ok settings => exact .inl ⟨settings, rfl⟩
    | error failure =>
      rcases escapes_of_resolve lawful ran with escapes | ⟨error, rfl⟩
      · exact absurd escapes readable.not_escapes
      · exact .inr ⟨error, rfl⟩
  · rintro request rfl
    rw [Overrides.values_ofRequest]

/-- The text of a settings file. -/
def flagText : Text :=
  "fail_fast: true".toList

/-- A host that reads this text. -/
def flagHost : Host PlainValue where
  toCoercions := PlainValue.coercions
  indent value := .ok (.other value)
  document content :=
    match Encoding.decode content with
    | .error error => .error (.encoding error)
    | .ok text =>
      if text = flagText then .ok (.settings [(SettingKey.failFast.name.toList, .boolean true)])
      else .error .malformed
  room _ := none

/-- The host keeps the laws. -/
theorem flagHost_lawful : flagHost.Lawful where
  coercions := PlainValue.coercions_lawful
  text content text decoded flaw flawed := by
    simp only [flagHost, decoded] at flawed
    split at flawed
    · cases flawed
    · exact (Except.error.inj flawed).symm

/-- A tree with the settings file. -/
def failingFast : FileTree :=
  .ofNames [(["c.yaml"], .file (Encoding.encode flagText))]

/-- A file with a flag and an indent of two spaces are put together to settings. -/
theorem failingFast_resolved :
    flagHost.Lawful ∧
    Readable flagHost failingFast (some (.ofString "c.yaml")) { indentUnit := some (.ofString "2") } ∧
      ((∃ settings, resolve flagHost failingFast (some (.ofString "c.yaml"))
          { indentUnit := some (.ofString "2") : Overrides }.values = .ok settings) ∨
        ∃ error, resolve flagHost failingFast (some (.ofString "c.yaml"))
          { indentUnit := some (.ofString "2") : Overrides }.values = .error (.settings error)) := by
  have found : fileContent failingFast (.ofString "c.yaml") = .ok (Encoding.encode flagText) := by
    rfl
  have readable : Readable flagHost failingFast (some (.ofString "c.yaml"))
      { indentUnit := some (.ofString "2") } := {
    clean := by rintro _ ⟨⟩; decide
    document := by
      rintro _ ⟨⟩ content found'
      cases found.symm.trans found'
      exact ⟨flagText, by rfl⟩
    indent := by
      intro value given _ _
      obtain rfl : value = "2".toList := (Codes.ofText_inj.mp (Option.some.inj given)).symm
      decide }
  exact ⟨flagHost_lawful, readable,
    (settings_resolved_or_refused flagHost_lawful _ _ _).2.2.2.1 readable⟩

/-- A settings file that is no text. -/
def undecodableSettings : FileTree :=
  .ofNames [(["c.yaml"], .file [0xFF])]

/-- An indent that is a superscript is not refused as a setting, and neither are bytes that are no text. A
superscript counts as a digit, but not for a number. -/
theorem superscript_escapes :
    (∃ failure, resolve flagHost {} none { indentUnit := some (.ofString "²") : Overrides }.values =
        .error failure ∧ failure = .indent (.number (.notInteger 10 [0xB2])) ∧
          ∀ error, failure ≠ .settings error) ∧
      ∃ failure, resolve flagHost undecodableSettings (some (.ofString "c.yaml"))
          ({} : Overrides).values = .error failure ∧
        failure = .encoding ⟨.startByte, 0, [0xFF]⟩ ∧ ∀ error, failure ≠ .settings error :=
  ⟨⟨_, rfl, rfl, nofun⟩, _, by rfl, rfl, nofun⟩

end JasmineConversion
