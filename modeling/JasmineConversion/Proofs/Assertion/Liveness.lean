import JasmineConversion.Proofs.Assertion.Sites
import JasmineConversion.Proofs.Assertion.Starts
import JasmineConversion.Proofs.Assertion.Steady
import JasmineConversion.Proofs.Source.Arguments
import JasmineConversion.Proofs.Source.Tokens

/-! # What stays of code around assertions

An expectation ends in a line comment if it keeps a message, and what follows on the line becomes part of that.
Where nothing but white space and comments follows, and no argument ends in a line comment itself, the code that
stood around the assertions and what the expectations state stay.
-/

namespace JasmineConversion.AssertionCall

open Text Source AssertionRule

/-- Assertion calls start in code only, in a text that is read from a mode on and follows a given character. -/
def CallsInCode (mode : Mode) (previous : Option Char) (text : Text) : Prop :=
  ∀ front back, text = front ++ back → CallAt (front.getLast?.or previous) back →
    front.foldl Mode.next mode = .code

/-- What the expectation of a site states before its message, and what it quotes. -/
structure Site.States (site : Site) (quoted : List Text) (stated : Text) (message : Option Text) : Prop where
  taken : ∃ arguments rules rule, splitArguments site.inside = .ok arguments ∧
    entry? namespaces site.space = some rules ∧ entry? rules site.function = some rule ∧
      rule.expectation arguments = .ok (some stated) ∧ Quoted arguments rule.arity quoted ∧
        message = arguments[rule.arity]?
  composed : Stated quoted stated

/-- A call is replaced without harm in front of a text: what is quoted does not end in a line comment, and a
message stands on one line, with no code behind the call on that line. -/
def Site.Harmless (site : Site) (behind : Text) : Prop :=
  ∃ quoted stated message, site.States quoted stated message ∧
    (∀ text ∈ quoted, text.foldl Mode.next .code ≠ .lineComment) ∧
      ∀ text ∈ message, '\n' ∉ text ∧ QuietLine behind

/-- A call is well-formed, and so is each text that its expectation quotes. -/
def Site.WellFormed (site : Site) : Prop :=
  JasmineConversion.WellFormed site.inside ∧ ∃ quoted stated message, site.States quoted stated message ∧
    ∀ text ∈ quoted, JasmineConversion.WellFormed text

/-- The code of a text whose calls are replaced: what remains of each gap and of what each expectation states
before its message, without comments. -/
inductive Lives : (sites : List Site) → (last live : Text) → Prop
  | last {last live : Text} (strips : stripComments last = .ok live) : Lives [] last live
  | site {site : Site} {sites : List Site} {last : Text} {quoted : List Text} {message : Option Text}
      {stated gap statement live : Text} (states : site.States quoted stated message)
      (stripsGap : stripComments site.gap = .ok gap) (strips : stripComments stated = .ok statement)
      (others : Lives sites last live) : Lives (site :: sites) last (gap ++ (statement ++ live))

variable {previous original : Option Char} {mode : Mode} {site : Site} {sites : List Site}
  {last text behind stated : Text} {quoted : List Text} {message : Option Text} {c : Char}

/-! ## Calls in code -/

theorem callsInCode_nil : CallsInCode mode previous [] := by
  intro front back split here
  obtain ⟨rfl, rfl⟩ := List.append_eq_nil_iff.mp split.symm
  exact absurd here not_callAt_nil

/-- All calls are in code if one at the first character is, and all behind it are. -/
theorem callsInCode_cons : CallsInCode mode previous (c :: text) ↔
    (CallAt previous (c :: text) → mode = .code) ∧ CallsInCode (mode.next c) (some c) text := by
  constructor
  · intro calls
    refine ⟨fun here => calls [] (c :: text) rfl here, ?_⟩
    rintro front back rfl here
    exact calls (c :: front) back rfl (by rwa [getLast?_cons_or])
  · rintro ⟨first, further⟩ front back split here
    rcases List.cons_eq_append_iff.mp split with ⟨rfl, rfl⟩ | ⟨more, rfl, same⟩
    · exact first here
    · rw [getLast?_cons_or] at here
      exact further more back same here

instance decidableCallsInCode : (mode : Mode) → (previous : Option Char) → (text : Text) →
    Decidable (CallsInCode mode previous text)
  | _, _, [] => .isTrue callsInCode_nil
  | mode, _, c :: text =>
    have := decidableCallsInCode (mode.next c) (some c) text
    decidable_of_iff _ callsInCode_cons.symm

/-- All calls of the rest of a text are in code if all of the text are. -/
theorem CallsInCode.append {front : Text} (calls : CallsInCode mode previous (front ++ text)) :
    CallsInCode (front.foldl Mode.next mode) (front.getLast?.or previous) text := by
  rintro more back rfl here
  rw [← List.foldl_append]
  refine calls (front ++ more) back (List.append_assoc _ _ _).symm ?_
  rwa [List.getLast?_append, Option.or_assoc]

theorem bare_of_isBlank (white : isBlank c = true) : Bare c :=
  fun _ => Bracket.plain_of_isBlank white

/-- No character of the head of a call changes the mode. -/
theorem CallHead.bare {head space function : Text} (headed : CallHead head space function) :
    ∀ c ∈ head, Bare c := by
  obtain ⟨name, blank, rfl, dotted, white, -⟩ := headed.exists_dotted
  intro c member bracket
  rcases List.mem_append.mp member with inName | inBlank
  · have other {d : Char} (apart : Pattern.isDotted d = false) := Mode.ne_of_isDotted (dotted c inName) apart
    exact ⟨Mode.isDelimiter_of_isDotted (dotted c inName), other (by cases bracket <;> decide),
      other (by cases bracket <;> decide)⟩
  · exact bare_of_isBlank (isBlankText_iff.mp white c inBlank) bracket

/-- What holds of the text between the parentheses of a call holds of the call. -/
theorem Site.Reads.steady_call {holds : Text → Prop} (steady : Steady holds) (reads : site.Reads previous behind)
    (inside : holds site.inside) : holds site.call := by
  have ending : ∀ c ∈ site.ending, Bare c := by
    intro c member
    rcases reads.ends.isIndent_or_eq c member with indent | rfl
    · exact bare_of_isBlank (isBlank_of_isIndent indent)
    · decide
  have whole := steady.append (steady.append (steady.bare reads.headed.bare) (steady.enclosed inside .round))
    (steady.bare ending)
  have same : site.call = site.head ++ (Bracket.round.opener :: site.inside ++ [Bracket.round.closer]) ++
      site.ending := by
    simp [Site.call, Bracket.opener, Bracket.closer]
  rwa [same]

/-- A site that is read where its gap ends in code. -/
structure Site.InCode (site : Site) : Prop where
  gap : site.gap.foldl Mode.next .code = .code
  reads : ∃ previous behind, site.Reads previous behind

theorem Site.InCode.call (inCode : site.InCode) : site.call.foldl Mode.next .code = .code := by
  obtain ⟨_, _, reads⟩ := inCode.reads
  exact reads.steady_call steady_code (Bracket.mode_of_scan reads.encloses).symm

/-- The calls that are replaced start in code, where those of the text do. Behind the calls that are done with,
the code and the result may follow different characters. -/
theorem inCode_of_replaces (replaces : Replaces previous sites last) (apart : Apart original)
    (calls : CallsInCode .code original (source sites last)) : ∀ site ∈ sites, site.InCode := by
  induction replaces generalizing original with
  | last => exact fun site none => (List.not_mem_nil none).elim
  | @site previous site sites last reads _ ih =>
    have apart' : Apart (site.gap.getLast?.or original) := by
      have here := reads.apart
      cases last : site.gap.getLast? with
      | none => exact apart
      | some c => rwa [last] at here
    have inCode : site.InCode := by
      have here : CallAt (site.gap.getLast?.or original) (site.call ++ source sites last) :=
        ⟨apart', site.head, site.space, site.function, _, reads.headed, site.call_append _⟩
      exact ⟨calls site.gap _ rfl here, _, _, reads⟩
    have further : CallsInCode .code ((site.gap ++ site.call).getLast?.or original) (source sites last) := by
      rw [source, ← List.append_assoc] at calls
      have rest := calls.append
      rwa [List.foldl_append, inCode.gap, inCode.call] at rest
    refine List.forall_mem_cons.mpr ⟨inCode, ih ?_ further⟩
    rw [List.getLast?_append]
    rcases reads.getLast?_call with last | last <;> rw [last, Option.some_or, Option.some_or] <;> decide

/-- Behind the sites of a code, the mode is the one that what stands behind the last of them leads to.
-/
theorem foldl_source (inCode : ∀ site ∈ sites, site.InCode) (more : Text) :
    (source sites last ++ more).foldl Mode.next .code = (last ++ more).foldl Mode.next .code := by
  induction sites with
  | nil => rfl
  | cons site sites ih =>
    obtain ⟨here, further⟩ := List.forall_mem_cons.mp inCode
    rw [source, List.append_assoc, List.foldl_append, here.gap, List.append_assoc, List.foldl_append, here.call,
      ih further]

/-- A first line that is quiet in the code ends before the first call, so that it is that of the result. -/
theorem quietLine_written (inCode : ∀ site ∈ sites, site.InCode) (quiet : QuietLine (source sites last)) :
    QuietLine (written sites last) := by
  cases sites with
  | nil => exact quiet
  | cons site sites =>
    obtain ⟨here, -⟩ := List.forall_mem_cons.mp inCode
    obtain ⟨_, _, reads⟩ := here.reads
    obtain ⟨name, blank, same, dotted, -, c, more, first, word⟩ := reads.headed.exists_dotted
    rw [source, site.call_append, first, List.cons_append] at quiet
    have bare : Bare c := reads.headed.bare c (by simp [first])
    have solid : isBlank c = false := by
      cases white : isBlank c with
      | false => rfl
      | true => exact Bool.noConfusion (word.symm.trans (isWord_of_isBlank white))
    exact quiet.of_append (quiet.mem_of_code here.gap (bare .round).1 solid)

/-! ## Expectations in front of a text -/

/-- The expectation of a site is what is stated, with the message if there is one. -/
theorem Site.States.shown (states : site.States quoted stated message) (reads : site.Reads previous behind) :
    site.expectation = withMessage stated message := by
  obtain ⟨arguments, rules, rule, split, listed, found, given, -, rfl⟩ := states.taken
  obtain ⟨arguments', split', translated⟩ := reads.translated
  obtain rfl := Except.ok.inj (split.symm.trans split')
  simp only [expectationFor, listed, found, given] at translated
  split at translated
  · cases translated
  · exact (Except.ok.inj translated).symm

/-- What a site states is determined by its call. -/
theorem Site.States.unique {quoted' : List Text} {stated' : Text} {message' : Option Text}
    (states : site.States quoted stated message) (states' : site.States quoted' stated' message') :
    stated = stated' ∧ message = message' := by
  obtain ⟨arguments, rules, rule, split, listed, found, given, -, rfl⟩ := states.taken
  obtain ⟨arguments', rules', rule', split', listed', found', given', -, rfl⟩ := states'.taken
  obtain rfl := Except.ok.inj (split.symm.trans split')
  obtain rfl := Option.some.inj (listed.symm.trans listed')
  obtain rfl := Option.some.inj (found.symm.trans found')
  exact ⟨Option.some.inj (Except.ok.inj (given.symm.trans given')), rfl⟩

/-- What is quoted ends in code, or in a line comment of which the end was trimmed. -/
theorem ends_of_quoted {inside : Text} {arguments : List Text} {arity : Nat}
    (split : splitArguments inside = .ok arguments) (quotes : Quoted arguments arity quoted)
    (member : text ∈ quoted) :
    text.foldl Mode.next .code = .code ∨ text.foldl Mode.next .code = .lineComment := by
  cases quotes with
  | arguments => exact ends_of_splitArguments split (List.mem_of_mem_take member)
  | @keys keys object others names same _ splitKeys =>
    subst same
    rcases List.mem_cons.mp member with rfl | inNames
    · exact ends_of_splitArguments split (by simp)
    · exact ends_of_splitArguments splitKeys inNames

/-- Two spaces remain of a message on one line, and the reading stays in its comment. -/
theorem keptFrom_message (oneLine : '\n' ∉ text) :
    keptFrom .code (messageComment ++ text) = [' ', ' '] ∧
      (messageComment ++ text).foldl Mode.next .code = .lineComment := by
  have comment : keptFrom .code messageComment = [' ', ' '] ∧
      messageComment.foldl Mode.next .code = .lineComment := by
    decide
  obtain ⟨nothing, stays⟩ := lineComment_of_line oneLine
  rw [keptFrom_append, List.foldl_append, comment.1, comment.2, nothing, stays]
  exact ⟨rfl, rfl⟩

section Expectation

variable {expectation : Text} (shown : expectation = withMessage stated message)
  (quiet : ∀ text ∈ message, '\n' ∉ text ∧ QuietLine behind)
include shown quiet

/-- In front of a quiet line, the message of an expectation takes nothing with it. -/
theorem trim_expectation (code : stated.foldl Mode.next .code = .code) :
    trimLineEnds (keptFrom .code (expectation ++ behind)) =
      trimLineEnds (keptFrom .code stated ++ keptFrom .code behind) := by
  subst shown
  cases message with
  | none => rw [withMessage, keptFrom_append, code]
  | some text =>
    obtain ⟨oneLine, quiet⟩ := quiet text rfl
    obtain ⟨spaces, stays⟩ := keptFrom_message oneLine
    rw [withMessage, List.append_assoc, List.append_assoc, keptFrom_append, code, ← List.append_assoc messageComment,
      keptFrom_append, spaces, stays]
    exact trimLineEnds_append _ (quiet.trim (by decide))

/-- An expectation ends its own comment: the line behind it is read in code. -/
theorem foldl_expectation (code : stated.foldl Mode.next .code = .code) :
    (expectation ++ (behind ++ ['\n'])).foldl Mode.next .code = (behind ++ ['\n']).foldl Mode.next .code := by
  subst shown
  cases message with
  | none => rw [withMessage, List.foldl_append, code]
  | some text =>
    obtain ⟨oneLine, quiet⟩ := quiet text rfl
    rw [withMessage, List.append_assoc stated, List.append_assoc, List.foldl_append, code, List.foldl_append,
      (keptFrom_message oneLine).2, quiet.foldl]

/-- An expectation leaves the nesting of brackets as it was. -/
theorem scan_expectation {bracket : Bracket} (passes : bracket.Passes stated) (inner : Nat) :
    bracket.scan (.code, inner) (expectation ++ (behind ++ ['\n'])) =
      bracket.scan (.code, inner) (behind ++ ['\n']) := by
  subst shown
  cases message with
  | none => rw [withMessage, Bracket.scan_append, passes, Option.bind_some]
  | some text =>
    obtain ⟨oneLine, quiet⟩ := quiet text rfl
    obtain ⟨spaces, stays⟩ := keptFrom_message oneLine
    have comment := @scan_of_indents .code (messageComment ++ text) bracket inner (by rw [spaces]; decide)
    rw [withMessage, List.append_assoc stated, List.append_assoc, Bracket.scan_append, passes, Option.bind_some,
      Bracket.scan_append, comment, stays, Option.bind_some, quiet.scan]

end Expectation

/-! ## The whole of the code -/

/-- A harmless site in code states something that ends in code, and a message behind which nothing is
live. -/
theorem Site.Harmless.exists_states (harmless : site.Harmless behind) (inCode : site.InCode) :
    ∃ quoted stated message, site.States quoted stated message ∧ site.expectation = withMessage stated message ∧
      stated.foldl Mode.next .code = .code ∧ ∀ text ∈ message, '\n' ∉ text ∧ QuietLine behind := by
  obtain ⟨quoted, stated, message, states, ends, quiet⟩ := harmless
  obtain ⟨_, _, reads⟩ := inCode.reads
  obtain ⟨arguments, _, rule, split, -, -, -, quotes, -⟩ := states.taken
  refine ⟨quoted, stated, message, states, states.shown reads, steady_code.stated ?_ states.composed, quiet⟩
  exact fun text member => (ends_of_quoted split quotes member).resolve_right (ends text member)

section Whole

variable (inCode : ∀ site ∈ sites, site.InCode)
  (harmless : ∀ former site others, sites = former ++ site :: others → site.Harmless (source others last))
include inCode harmless

/-- What lives of the code stays in the result, up to line ends. -/
theorem exists_lives (closed : (last.foldl Mode.next .code).flaw? = none) :
    ∃ live, Lives sites last live ∧ trimLineEnds (keptFrom .code (written sites last)) = trimLineEnds live := by
  induction sites with
  | nil => exact ⟨_, .last (stripComments_eq_ok_iff.mpr ⟨closed, rfl⟩), rfl⟩
  | cons site sites ih =>
    obtain ⟨here, further⟩ := List.forall_mem_cons.mp inCode
    obtain ⟨quoted, stated, message, states, shown, code, quiet⟩ := (harmless [] site sites rfl).exists_states here
    obtain ⟨live, lives, same⟩ := ih further fun former other others split =>
      harmless (site :: former) other others (congrArg (site :: ·) split)
    have strips {text : Text} (code : text.foldl Mode.next .code = .code) :
        stripComments text = .ok (keptFrom .code text) :=
      stripComments_eq_ok ⟨code, rfl⟩
    refine ⟨_, .site states (strips here.gap) (strips code) lives, ?_⟩
    have quiet' := fun text member => (quiet text member).imp_right (quietLine_written further)
    rw [written, keptFrom_append, here.gap]
    exact trimLineEnds_append _ ((trim_expectation shown quiet' code).trans (trimLineEnds_append _ same))

/-- What is written for the sites leads to the same mode as what stands behind the last of them. -/
theorem foldl_written :
    (written sites last ++ ['\n']).foldl Mode.next .code = (last ++ ['\n']).foldl Mode.next .code := by
  induction sites with
  | nil => rfl
  | cons site sites ih =>
    obtain ⟨here, further⟩ := List.forall_mem_cons.mp inCode
    obtain ⟨quoted, stated, message, -, shown, code, quiet⟩ := (harmless [] site sites rfl).exists_states here
    have quiet' := fun text member => (quiet text member).imp_right (quietLine_written further)
    have rest := ih further fun former other others split =>
      harmless (site :: former) other others (congrArg (site :: ·) split)
    rw [written, List.append_assoc, List.foldl_append, here.gap, List.append_assoc,
      foldl_expectation shown quiet' code, rest]

/-- Brackets count the same in the code and in the result. -/
theorem scan_written (wellFormed : ∀ site ∈ sites, site.WellFormed) (bracket : Bracket) (inner : Nat) :
    bracket.scan (.code, inner) (written sites last ++ ['\n']) =
      bracket.scan (.code, inner) (source sites last ++ ['\n']) := by
  induction sites generalizing inner with
  | nil => rfl
  | cons site sites ih =>
    obtain ⟨here, further⟩ := List.forall_mem_cons.mp inCode
    obtain ⟨hereFormed, furtherFormed⟩ := List.forall_mem_cons.mp wellFormed
    obtain ⟨quoted, stated, message, states, shown, code, quiet⟩ := (harmless [] site sites rfl).exists_states here
    have quiet' := fun text member => (quiet text member).imp_right (quietLine_written further)
    have rest := ih further (fun former other others split =>
      harmless (site :: former) other others (congrArg (site :: ·) split)) furtherFormed
    obtain ⟨inside, quoted', stated', message', states', quotes⟩ := hereFormed
    obtain ⟨rfl, rfl⟩ := states.unique states'
    obtain ⟨_, _, reads⟩ := here.reads
    have call : bracket.Passes site.call :=
      reads.steady_call (steady_passes bracket) (Bracket.passes_of_encloses (inside.encloses bracket))
    have passes : bracket.Passes stated := by
      refine (steady_passes bracket).stated (fun text member => ?_) states'.composed
      exact Bracket.passes_of_encloses ((quotes text member).encloses bracket)
    rw [written, source, List.append_assoc site.gap, List.append_assoc site.expectation,
      List.append_assoc site.gap, List.append_assoc site.call, Bracket.scan_append _ site.gap,
      Bracket.scan_append _ site.gap]
    cases read : bracket.scan (.code, inner) site.gap with
    | none => rfl
    | some state =>
      obtain ⟨mode, count⟩ := state
      obtain rfl : mode = .code := (Bracket.mode_of_scan read).trans here.gap
      rw [Option.bind_some, Option.bind_some, scan_expectation shown quiet' passes, rest,
        Bracket.scan_append _ site.call, call, Option.bind_some]

end Whole

/-- Replacing the assertion calls of well-formed code, which all start in code, replaces those of its sites. It
keeps what lives of the code, up to line ends, and keeps it well-formed where each call is, if no argument ends
in a line comment and each message stands on one line with no code behind its call. -/
theorem live_of_replaceAll {code result : Text} (wellFormed : JasmineConversion.WellFormed (code ++ ['\n']))
    (calls : CallsInCode .code none code) (ran : replaceAll code = .ok result) :
    (∃ sites last, Replaces none sites last ∧ code = source sites last ∧ result = written sites last) ∧
      ∀ sites last, Replaces none sites last → code = source sites last → result = written sites last →
        (∀ former site others, sites = former ++ site :: others → site.Harmless (source others last)) →
          (∃ live stripped, Lives sites last live ∧ stripComments result = .ok stripped ∧
            trimLineEnds stripped = trimLineEnds live) ∧
          ((∀ site ∈ sites, site.WellFormed) → JasmineConversion.WellFormed (result ++ ['\n'])) := by
  refine ⟨exists_sites_of_replaceAll ran, ?_⟩
  rintro sites last replaces rfl rfl harmless
  have inCode := inCode_of_replaces replaces apart_none calls
  have ends : (last ++ ['\n']).foldl Mode.next .code = .code := by
    rw [← foldl_source inCode]
    exact (Bracket.mode_of_scan (wellFormed.encloses .round)).symm
  have closed {text : Text} (ends : (text ++ ['\n']).foldl Mode.next .code = .code) :
      (text.foldl Mode.next .code).flaw? = none :=
    @closed_of_append_blank text ['\n'] .code Mode.proper_code (by decide) (by rw [ends]; rfl)
  refine ⟨?_, fun formed => ?_⟩
  · obtain ⟨live, lives, same⟩ := exists_lives inCode harmless (closed ends)
    have resultEnds := (foldl_written inCode harmless).trans ends
    exact ⟨live, _, lives, stripComments_eq_ok_iff.mpr ⟨closed resultEnds, rfl⟩, same⟩
  · refine wellFormed_iff.mpr fun bracket => ?_
    exact (scan_written inCode harmless formed bracket 0).trans (wellFormed.encloses bracket)

/-- An assertion with a message behind a gap. -/
def messageSite (gap : Text) : Site where
  gap := gap
  head := "Y.Assert.isTrue".toList
  space := "Assert".toList
  function := "isTrue".toList
  inside := " a, 'm' ".toList
  ending := [';']
  expectation := "expect( a ).toBe( true );  // orig YUI Test err msg: 'm'".toList

/-- The call with a message is read where it stands apart. -/
theorem messageSite_reads {gap : Text} (silent : Silent previous gap) (apart : Apart (gap.getLast?.or previous))
    (behind : Text) : (messageSite gap).Reads previous behind := by
  have parts : PlainHead "Assert.isTrue".toList "Assert".toList "isTrue".toList :=
    ⟨by decide, by decide, by decide, by decide, [], rfl, rfl⟩
  have encloses : Bracket.round.Encloses " a, 'm' ".toList := by
    decide
  exact {
    headed := .qualified parts
    apart := apart
    first := fun front back split nonempty here => silent.not_callIn _ ⟨front, back, split, nonempty, here⟩
    encloses := encloses
    ends := .semicolon (List.forall_mem_nil _)
    translated := ⟨_, rfl, rfl⟩ }

/-- The call with a message states what its rule says. -/
theorem messageSite_states (gap : Text) :
    (messageSite gap).States [['a']] "expect( a ).toBe( true );".toList (some "'m'".toList) where
  taken := ⟨_, _, _, rfl, rfl, rfl, rfl, .arguments, rfl⟩
  composed := .single "toBe" (by decide) (.argument List.mem_cons_self) (.constant "true" (by decide))

theorem messageSite_wellFormed (gap : Text) : (messageSite gap).WellFormed := by
  have formed : JasmineConversion.WellFormed " a, 'm' ".toList ∧ JasmineConversion.WellFormed ['a'] := by
    constructor <;> refine wellFormed_iff.mpr fun bracket => ?_ <;> cases bracket <;> decide
  exact ⟨formed.1, _, _, _, messageSite_states gap, List.forall_mem_singleton.mpr formed.2⟩

/-- With a comment behind the call and code on the next line, all of the code lives on. -/
theorem messageSite_lives : (∃ live stripped, Lives [messageSite []] "  // b\nf();".toList live ∧
    stripComments (written [messageSite []] "  // b\nf();".toList) = .ok stripped ∧
      trimLineEnds stripped = trimLineEnds live) ∧
    JasmineConversion.WellFormed (written [messageSite []] "  // b\nf();".toList ++ ['\n']) := by
  have reads := @messageSite_reads none [] trivial (by decide) "  // b\nf();".toList
  have formed : JasmineConversion.WellFormed (source [messageSite []] "  // b\nf();".toList ++ ['\n']) := by
    refine wellFormed_iff.mpr fun bracket => ?_
    cases bracket <;> decide
  have quiet : QuietLine "  // b\nf();".toList := ⟨"  ".toList, rfl, by decide⟩
  have both := live_of_replaceAll formed (by decide) rfl
  have kept := both.2 [messageSite []] "  // b\nf();".toList (.site reads (.last (by decide))) rfl rfl ?_
  · exact ⟨kept.1, kept.2 (List.forall_mem_singleton.mpr (messageSite_wellFormed []))⟩
  intro former site others split
  rcases List.cons_eq_append_iff.mp split with ⟨-, same⟩ | ⟨_, -, none⟩
  · obtain ⟨rfl, rfl⟩ := List.cons.inj same
    exact ⟨_, _, _, messageSite_states [], by decide, fun text same => ⟨by cases same; decide, quiet⟩⟩
  · simp at none

set_option maxRecDepth 2000 in
/-- With code behind the call on its line, that code is lost, and a brace with it. -/
theorem messageSite_loses_code :
    let gap := "if( x ) \x7b ".toList
    let last := " \x7d".toList
    JasmineConversion.WellFormed (source [messageSite gap] last ++ ['\n']) ∧
      CallsInCode .code none (source [messageSite gap] last) ∧
      replaceAll (source [messageSite gap] last) = .ok (written [messageSite gap] last) ∧
      Replaces none [messageSite gap] last ∧
      (∃ live stripped, Lives [messageSite gap] last live ∧
        stripComments (written [messageSite gap] last) = .ok stripped ∧ trimLineEnds stripped ≠ trimLineEnds live) ∧
      ¬ JasmineConversion.WellFormed (written [messageSite gap] last ++ ['\n']) := by
  have gapStrips : stripComments "if( x ) \x7b ".toList = .ok "if( x ) \x7b ".toList := rfl
  have strips : stripComments "expect( a ).toBe( true );".toList = .ok "expect( a ).toBe( true );".toList := rfl
  have lastStrips : stripComments " \x7d".toList = .ok " \x7d".toList := rfl
  have reads := @messageSite_reads none "if( x ) \x7b ".toList (by decide) (by decide)
    " \x7d".toList
  refine ⟨?_, by decide, rfl, .site reads (.last (by decide)), ?_, ?_⟩
  · refine wellFormed_iff.mpr fun bracket => ?_
    cases bracket <;> decide
  · have lost : stripComments (written [messageSite "if( x ) \x7b ".toList] " \x7d".toList) =
        .ok "if( x ) \x7b expect( a ).toBe( true );  ".toList := rfl
    have lives := Lives.site (messageSite_states _) gapStrips strips (.last lastStrips)
    refine ⟨_, _, lives, lost, ?_⟩
    decide
  · intro formed
    exact absurd (formed.encloses .brace) (by decide)

end JasmineConversion.AssertionCall
