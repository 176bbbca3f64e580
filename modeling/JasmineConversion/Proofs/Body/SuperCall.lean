import JasmineConversion.Body.SuperCall
import JasmineConversion.Proofs.Body.Wrappers
import JasmineConversion.Proofs.Suite.Pattern

/-! # The removal of the inherited call

The first call of an overridden hook goes from a body with the end of its line, and with all that stands on its line
before it. So nothing but the call goes exactly where it is a line of its own, up to what follows its semicolon.
-/

namespace JasmineConversion.Body

open Text

variable {code before lead call gap behind text rest : Text}

/-- The name of a hook that a call may be of. -/
def IsHook (hook : Text) : Prop :=
  hook = "setUp".toList ∨ hook = "tearDown".toList

/-- The call of an overridden hook from its last dots on, up to its semicolon. -/
inductive SuperCall : Text → Prop
  | intro {hook first second third fourth : Text} (isHook : IsHook hook) (opens : isBlankText first = true)
      (before : isBlankText second = true) (between : isBlankText third = true) (closes : isBlankText fourth = true) :
      SuperCall (".prototype.".toList ++ hook ++ ".apply(".toList ++ first ++ "this".toList ++ second ++ ",".toList ++
        third ++ "arguments".toList ++ fourth ++ ");".toList)

/-- A character that is taken from the front of a text if it is there. -/
def TakenFrom (rest : Text) (c : Char) (taken : Text) : Prop :=
  taken = [c] ∨ taken = [] ∧ Stops (· == c) rest

/-- The end of a line in front of a text: an indent and a line break, as far as they are there. -/
inductive LineEnd (rest : Text) : Text → Prop
  | intro {indent carriage feed : Text} (indents : ∀ c ∈ indent, isIndent c = true)
      (stops : Stops isIndent (carriage ++ (feed ++ rest))) (returns : TakenFrom (feed ++ rest) '\r' carriage)
      (feeds : TakenFrom rest '\n' feed) : LineEnd rest (indent ++ carriage ++ feed)

/-- A text starts with a call of an overridden hook. -/
def Calls (text : Text) : Prop :=
  ∃ call, SuperCall call ∧ call <+: text

/-- A text holds a call of an overridden hook. -/
def HoldsCall (text : Text) : Prop :=
  ∃ call, SuperCall call ∧ call <:+: text

/-- The first call of an overridden hook in code: the lines before it, what stands before it on its line, the call, the
end of the line behind it, and what follows. -/
structure FirstCall (code before lead call gap behind : Text) : Prop where
  here : code = before ++ (lead ++ (call ++ (gap ++ behind)))
  isCall : SuperCall call
  ends : LineEnd behind gap
  starts : StartsLine before
  inLine : '\n' ∉ lead
  first : ∀ front back, code = front ++ back → front.length < before.length + lead.length → ¬ Calls back

/-! ## The call -/

/-- One character in front of a text is taken if it is there. -/
theorem getD_after?_eq_iff {c : Char} : (after? [c] text).getD text = rest ↔
    ∃ taken, TakenFrom rest c taken ∧ text = taken ++ rest := by
  cases text with
  | nil =>
    constructor
    · rintro rfl
      exact ⟨[], .inr ⟨rfl, stops_nil _⟩, rfl⟩
    · rintro ⟨taken, -, same⟩
      exact (List.append_eq_nil_iff.mp same.symm).2.symm
  | cons d text =>
    rw [after?_singleton_cons]
    by_cases same : c = d
    · subst same
      rw [if_pos rfl, Option.getD_some]
      constructor
      · rintro rfl
        exact ⟨[c], .inl rfl, rfl⟩
      · rintro ⟨taken, rfl | ⟨rfl, stops⟩, split⟩
        · exact (List.cons.inj split).2
        · rw [List.nil_append] at split
          rw [← split, stops_cons, beq_self_eq_true] at stops
          cases stops
    · rw [if_neg same, Option.getD_none]
      constructor
      · rintro rfl
        exact ⟨[], .inr ⟨rfl, (stops_cons _ _ _).mpr (beq_eq_false_iff_ne.mpr (Ne.symm same))⟩, rfl⟩
      · rintro ⟨taken, rfl | ⟨rfl, -⟩, split⟩
        · exact absurd (List.cons.inj split).1.symm same
        · exact split

/-- What is dropped behind a call is a line end, as far as there is one. -/
theorem lineEnd_iff {afterIndent afterReturn : Text} (indented : text.dropWhile isIndent = afterIndent)
    (returned : (after? ['\r'] afterIndent).getD afterIndent = afterReturn) :
    (after? ['\n'] afterReturn).getD afterReturn = rest ↔ ∃ gap, LineEnd rest gap ∧ text = gap ++ rest := by
  rw [getD_after?_eq_iff]
  constructor
  · rintro ⟨feed, feeds, rfl⟩
    obtain ⟨carriage, returns, rfl⟩ := getD_after?_eq_iff.mp returned
    obtain ⟨indent, rest', rfl, indents, stops, -, drops⟩ := exists_run isIndent text
    obtain rfl := drops.symm.trans indented
    exact ⟨_, .intro indents stops returns feeds, by simp only [List.append_assoc]⟩
  · rintro ⟨_, @⟨indent, carriage, feed, indents, stops, returns, feeds⟩, rfl⟩
    rw [List.append_assoc, List.append_assoc, dropWhile_append_of_stops indents stops] at indented
    subst indented
    exact ⟨feed, feeds, returned.symm.trans (getD_after?_eq_iff.mpr ⟨carriage, returns, rfl⟩)⟩

theorem spaced?_eq_some_iff {word : Text} (solid : Stops isBlank word) (nonempty : word ≠ []) :
    spaced? word text = some rest ↔ ∃ blank, isBlankText blank = true ∧ text = blank ++ (word ++ rest) := by
  rw [spaced?, after?_eq_some_iff, trimStart_eq_iff, and_iff_left (solid.append_of_ne_nil nonempty rest)]

/-- The name of a hook is one of the two. -/
theorem hook_eq_some_iff : (after? "setUp".toList text).or (after? "tearDown".toList text) = some rest ↔
    ∃ hook, IsHook hook ∧ text = hook ++ rest := by
  rw [Option.or_eq_some_iff, after?_eq_some_iff, after?_eq_some_iff]
  constructor
  · rintro (rfl | ⟨-, rfl⟩)
    · exact ⟨_, .inl rfl, rfl⟩
    · exact ⟨_, .inr rfl, rfl⟩
  · rintro ⟨hook, rfl | rfl, rfl⟩
    · exact .inl rfl
    · exact .inr ⟨rfl, rfl⟩

/-- A call of the inherited hook is found exactly where one is written, and what is dropped behind it is
its line end. -/
theorem superCall?_eq_some_iff : superCall? text = some rest ↔
    ∃ call gap, SuperCall call ∧ LineEnd rest gap ∧ text = call ++ (gap ++ rest) := by
  have spaced {word text rest : Text} (solid : word ≠ [] ∧ Stops isBlank word) : spaced? word text = some rest ↔
      ∃ blank, isBlankText blank = true ∧ text = blank ++ (word ++ rest) := spaced?_eq_some_iff solid.2 solid.1
  have this : "this".toList ≠ [] ∧ Stops isBlank "this".toList := by decide
  have comma : ",".toList ≠ [] ∧ Stops isBlank ",".toList := by decide
  have arguments : "arguments".toList ≠ [] ∧ Stops isBlank "arguments".toList := by decide
  have close : ");".toList ≠ [] ∧ Stops isBlank ");".toList := by decide
  unfold superCall?
  simp only [Option.bind_eq_bind, Option.bind_eq_some_iff, after?_eq_some_iff, hook_eq_some_iff, spaced this,
    spaced comma, spaced arguments, spaced close, Option.pure_def, Option.some.injEq, lineEnd_iff rfl rfl]
  constructor
  · rintro ⟨_, rfl, _, ⟨hook, isHook, rfl⟩, _, rfl, _, ⟨first, opens, rfl⟩, _, ⟨second, before, rfl⟩,
      _, ⟨third, between, rfl⟩, _, ⟨fourth, closes, rfl⟩, gap, ends, rfl⟩
    exact ⟨_, gap, .intro isHook opens before between closes, ends, by simp only [List.append_assoc]⟩
  · rintro ⟨_, gap, @⟨hook, first, second, third, fourth, isHook, opens, before, between, closes⟩, ends, rfl⟩
    exact ⟨_, by simp only [List.append_assoc], _, ⟨hook, isHook, rfl⟩, _, rfl, _, ⟨first, opens, rfl⟩,
      _, ⟨second, before, rfl⟩, _, ⟨third, between, rfl⟩, _, ⟨fourth, closes, rfl⟩, gap, ends, rfl⟩

/-- No call of the inherited hook is found exactly where none is written. -/
theorem superCall?_eq_none_iff : superCall? text = none ↔ ¬ Calls text := by
  rw [Option.eq_none_iff_forall_ne_some]
  constructor
  · rintro none ⟨call, isCall, rest, rfl⟩
    obtain ⟨gap, ends, split⟩ := (@lineEnd_iff rest _ _ _ rfl rfl).mp rfl
    exact none _ (superCall?_eq_some_iff.mpr ⟨call, gap, isCall, ends, congrArg (call ++ ·) split⟩)
  · rintro other rest found
    obtain ⟨call, gap, isCall, -, rfl⟩ := superCall?_eq_some_iff.mp found
    exact other ⟨call, isCall, List.prefix_append call _⟩

theorem holdsCall_cons_iff {c : Char} : HoldsCall (c :: text) ↔ Calls (c :: text) ∨ HoldsCall text := by
  simp only [HoldsCall, Calls, List.infix_cons_iff, and_or_left, exists_or]

theorem not_holdsCall_nil : ¬ HoldsCall [] := by
  rintro ⟨_, @⟨hook, first, second, third, fourth, -, -, -, -, -⟩, inside⟩
  simp at inside

/-! ## The first call -/

/-- A text without a call in its first characters has none with another character in front of it. -/
theorem not_calls_cons {c : Char} {bound : Nat}
    (first : ∀ front back, code = front ++ back → front.length < bound → ¬ Calls back) (other : ¬ Calls (c :: code)) :
    ∀ front back, c :: code = front ++ back → front.length < bound + 1 → ¬ Calls back := by
  rintro (_ | ⟨d, front⟩) back split short
  · obtain rfl : c :: code = back := split
    exact other
  · exact first front back (List.cons.inj split).2 (Nat.lt_of_succ_lt_succ short)

namespace FirstCall

/-- A first call is still the first one with a character in front of it, if that ends a line or a line is there. -/
theorem cons (first : FirstCall code before lead call gap behind) {c : Char} (other : ¬ Calls (c :: code))
    (starts : before = [] → c = '\n') : FirstCall (c :: code) (c :: before) lead call gap behind where
  here := congrArg (c :: ·) first.here
  isCall := first.isCall
  ends := first.ends
  starts := by
    intro d last
    cases before with
    | nil =>
      obtain rfl := Option.some.inj last
      exact starts rfl
    | cons e before => exact first.starts d (by rwa [List.getLast?_cons_cons] at last)
  inLine := first.inLine
  first := by
    rw [List.length_cons, Nat.add_right_comm]
    exact not_calls_cons first.first other

/-- A first call on a line is still the first one with more in front of it on the line. -/
theorem inside (first : FirstCall code [] lead call gap behind) {c : Char} (other : ¬ Calls (c :: code))
    (inLine : c ≠ '\n') : FirstCall (c :: code) [] (c :: lead) call gap behind where
  here := congrArg (c :: ·) first.here
  isCall := first.isCall
  ends := first.ends
  starts := first.starts
  inLine := by
    rw [List.mem_cons, not_or]
    exact ⟨Ne.symm inLine, first.inLine⟩
  first := not_calls_cons first.first other

end FirstCall

/-- A call that is found in a line is the first one of it. -/
theorem exists_firstCall_of_line (found : afterSuperCall? text = some behind) :
    ∃ lead call gap, FirstCall text [] lead call gap behind := by
  induction text with
  | nil => cases found
  | cons c text ih =>
    rw [afterSuperCall?] at found
    split at found
    · next here =>
      obtain rfl := Option.some.inj found
      obtain ⟨call, gap, isCall, ends, split⟩ := superCall?_eq_some_iff.mp here
      refine ⟨[], call, gap, split, isCall, ends, by simp [StartsLine], List.not_mem_nil, ?_⟩
      exact fun front back _ short => absurd short (Nat.not_lt_zero _)
    · next other =>
      split at found
      · cases found
      · next inLine =>
        obtain ⟨lead, call, gap, first⟩ := ih found
        exact ⟨c :: lead, call, gap, first.inside (superCall?_eq_none_iff.mp other) inLine⟩

/-- From the start of a line or behind characters of a line without a call, either there is no call and the code stays,
or the first one goes with its line up to its end. -/
theorem dropSuperCallFrom_cases {fresh : Bool} (code : Text) (inside : fresh = false → afterSuperCall? code = none) :
    (¬ HoldsCall code ∧ dropSuperCallFrom fresh code = code) ∨
      ∃ before lead call gap behind, FirstCall code before lead call gap behind ∧
        dropSuperCallFrom fresh code = before ++ behind ∧ (before = [] → fresh = true) := by
  induction code generalizing fresh with
  | nil => exact .inl ⟨not_holdsCall_nil, rfl⟩
  | cons c code ih =>
    cases found : if fresh then afterSuperCall? (c :: code) else none with
    | some behind =>
      cases fresh with
      | false => cases found
      | true =>
        obtain ⟨lead, call, gap, first⟩ := exists_firstCall_of_line found
        refine .inr ⟨[], lead, call, gap, behind, first, ?_, fun _ => rfl⟩
        rw [dropSuperCallFrom, found]
        rfl
    | none =>
      have line : afterSuperCall? (c :: code) = none := by
        cases fresh with
        | false => exact inside rfl
        | true => exact found
      have dropped : dropSuperCallFrom fresh (c :: code) = c :: dropSuperCallFrom (c == '\n') code := by
        rw [dropSuperCallFrom, found]
      rw [afterSuperCall?] at line
      split at line
      · cases line
      · next other =>
        have other := superCall?_eq_none_iff.mp other
        -- The rest of a line without a call has none either.
        have further : (c == '\n') = false → afterSuperCall? code = none := by
          intro inLine
          rwa [if_neg (by simpa using inLine)] at line
        rw [dropped]
        rcases ih further with ⟨none, same⟩ | ⟨before, lead, call, gap, behind, first, same, starts⟩
        · refine .inl ⟨?_, congrArg (c :: ·) same⟩
          rw [holdsCall_cons_iff, not_or]
          exact ⟨other, none⟩
        · refine .inr ⟨c :: before, lead, call, gap, behind, ?_, congrArg (c :: ·) same, fun empty => nomatch empty⟩
          exact first.cons other fun empty => beq_iff_eq.mp (starts empty)

/-! ## What goes with the call -/

/-- A name of identifiers with dots between them. -/
inductive DottedName : Text → Prop
  | single {name : Text} (identifier : Pattern.Identifier name) : DottedName name
  | cons {name rest : Text} (identifier : Pattern.Identifier name) (dotted : DottedName rest) :
      DottedName (name ++ '.' :: rest)

/-- What a call starts with on a line of its own: an indent and a name. -/
def Callee (lead : Text) : Prop :=
  ∃ indent name, (∀ c ∈ indent, isIndent c = true) ∧ DottedName name ∧ lead = indent ++ name

/-- A text that is nothing but a call: an indent, a name, the call of its overridden hook, and the end of its line. -/
def OnlyCall (text : Text) : Prop :=
  ∃ lead call gap rest, Callee lead ∧ SuperCall call ∧ LineEnd rest gap ∧ text = lead ++ (call ++ gap)

/-- A dotted name has only characters that are allowed in one. -/
theorem DottedName.isDotted {name : Text} (dotted : DottedName name) : ∀ c ∈ name, Pattern.isDotted c = true := by
  have part {name : Text} (identifier : Pattern.Identifier name) : ∀ c ∈ name, Pattern.isDotted c = true := by
    intro c member
    rw [Pattern.isDotted, identifier.2 c member, Bool.true_or]
  induction dotted with
  | single identifier => exact part identifier
  | cons identifier _ ih =>
    intro c member
    rcases List.mem_append.mp member with member | member
    · exact part identifier c member
    · rcases List.mem_cons.mp member with rfl | member
      · decide
      · exact ih c member

/-- Neither a parenthesis nor a line feed stands before a call on a line of its own. -/
theorem Callee.not_mem (callee : Callee lead) {c : Char} (apart : isIndent c = false ∧ Pattern.isDotted c = false) :
    c ∉ lead := by
  obtain ⟨indent, name, indents, dotted, rfl⟩ := callee
  intro member
  rcases List.mem_append.mp member with member | member
  · simpa [apart.1] using indents c member
  · simpa [apart.2] using dotted.isDotted c member

/-- What a call starts with, up to its parenthesis. -/
def opening (hook : Text) : Text :=
  ".prototype.".toList ++ hook ++ ".apply".toList

theorem parenthesis_not_mem_opening {hook : Text} (isHook : IsHook hook) : '(' ∉ opening hook := by
  rcases isHook with rfl | rfl <;> decide

/-- A call is made of its words, a parenthesis and what is behind it. -/
theorem SuperCall.exists_opening (isCall : SuperCall call) :
    ∃ hook inner, IsHook hook ∧ call = opening hook ++ '(' :: inner := by
  obtain @⟨hook, first, second, third, fourth, isHook, -, -, -, -⟩ := isCall
  have apart (front apply this comma arguments close : Text) :
      front ++ apply ++ first ++ this ++ second ++ comma ++ third ++ arguments ++ fourth ++ close =
        front ++ (apply ++ (first ++ this ++ second ++ comma ++ third ++ arguments ++ fourth ++ close)) := by
    simp only [List.append_assoc]
  have parenthesis (rest : Text) : ".apply(".toList ++ rest = ".apply".toList ++ '(' :: rest := rfl
  let front := ".prototype.".toList ++ hook
  let inner := first ++ "this".toList ++ second ++ ",".toList ++ third ++ "arguments".toList ++ fourth ++ ");".toList
  refine ⟨hook, inner, isHook, ?_⟩
  calc
    _ = front ++ (".apply(".toList ++ inner) := apart front _ _ _ _ _
    _ = front ++ (".apply".toList ++ '(' :: inner) := congrArg (front ++ ·) (parenthesis inner)
    _ = opening hook ++ '(' :: inner := (List.append_assoc front _ _).symm

/-- What stands in front of the first parenthesis of a line is what is in front of the call, and the
words of the call. -/
theorem SuperCall.exists_takeWhile (isCall : SuperCall call) : ∃ hook, IsHook hook ∧ ∀ {front : Text} (gap : Text),
    '(' ∉ front → (front ++ (call ++ gap)).takeWhile (· != '(') = front ++ opening hook := by
  obtain ⟨hook, inner, isHook, rfl⟩ := isCall.exists_opening
  refine ⟨hook, isHook, fun {front} gap closed => ?_⟩
  have shut : '(' ∉ front ++ opening hook := by
    rw [List.mem_append, not_or]
    exact ⟨closed, parenthesis_not_mem_opening isHook⟩
  rw [List.append_assoc, List.cons_append, ← List.append_assoc]
  exact (takeWhile_ne_dropWhile_ne_iff.mpr ⟨shut, rfl⟩).1

/-- No call starts inside another one. -/
theorem eq_nil_of_append_opening {more hook hook' : Text} (isHook : IsHook hook) (isHook' : IsHook hook')
    (same : opening hook = more ++ opening hook') : more = [] := by
  have size := congrArg List.length same
  rw [List.length_append] at size
  have short : (opening "setUp".toList).length = 22 := by decide
  have long : (opening "tearDown".toList).length = 25 := by decide
  rw [← List.length_eq_zero_iff]
  rcases isHook with rfl | rfl <;> rcases isHook' with rfl | rfl
  · omega
  · omega
  · have front : more = (opening "tearDown".toList).take more.length := by rw [same, List.take_left]
    have three : more.length = 3 := by omega
    rw [three] at front
    rw [front] at same
    exact absurd same (by decide)
  · omega

/-- What is dropped is nothing but a call exactly if what is in front of it on its line is its callee.
-/
theorem FirstCall.onlyCall_iff (first : FirstCall code before lead call gap behind) :
    OnlyCall (lead ++ (call ++ gap)) ↔ Callee lead := by
  constructor
  · rintro ⟨lead', call', gap', rest, callee, isCall, -, same⟩
    rcases append_eq_append_cases same with ⟨more, rfl, nonempty, split⟩ | ⟨more, rfl, split⟩
    · -- The other call would start before the first one.
      have earlier : code = before ++ lead' ++ (call' ++ (gap' ++ behind)) := by
        rw [first.here, ← List.append_assoc call', split]
        simp only [List.append_assoc]
      have short : (before ++ lead').length < before.length + (lead' ++ more).length := by
        have := List.length_pos_iff.mpr nonempty
        rw [List.length_append, List.length_append]
        omega
      exact absurd ⟨call', isCall, List.prefix_append _ _⟩ (first.first _ _ earlier short)
    · obtain ⟨hook, isHook, takes⟩ := first.isCall.exists_takeWhile
      obtain ⟨hook', isHook', takes'⟩ := isCall.exists_takeWhile
      have outside : '(' ∉ lead ++ more := callee.not_mem (by decide)
      have closed : '(' ∉ more := fun member => outside (List.mem_append_right lead member)
      have fronts : opening hook = more ++ opening hook' := by
        rw [← takes' gap' closed, ← split]
        exact (takes gap List.not_mem_nil).symm
      obtain rfl := eq_nil_of_append_opening isHook isHook' fronts
      rwa [List.append_nil] at callee
  · exact fun callee => ⟨lead, call, gap, behind, callee, first.isCall, first.ends, rfl⟩

/-- Code without a call stays as it is. From other code the first call goes, with what stands before it on its line and
the end of the line behind it, and nothing else. That is no more than a call exactly where an indent and a name are all
that stands before it. -/
theorem superCall_removed (code : Text) :
    (¬ HoldsCall code ∧ dropSuperCall code = code) ∨
      ∃ before lead call gap behind, FirstCall code before lead call gap behind ∧
        dropSuperCall code = before ++ behind ∧ (OnlyCall (lead ++ (call ++ gap)) ↔ Callee lead) := by
  rcases dropSuperCallFrom_cases code (fun fresh : true = false => nomatch fresh) with
    same | ⟨before, lead, call, gap, behind, first, same, -⟩
  · exact .inl same
  · exact .inr ⟨before, lead, call, gap, behind, first, same, first.onlyCall_iff⟩

example : dropSuperCall "go();\n\tapp.Base.prototype.setUp.apply( this, arguments ); \nrun();".toList =
    "go();\nrun();".toList := by decide +kernel

/-- A statement in front of a call goes with it. -/
theorem statement_removed_with_call :
    dropSuperCall "go();Base.prototype.setUp.apply( this, arguments );".toList = [] ∧
      ¬ OnlyCall "go();Base.prototype.setUp.apply( this, arguments );".toList := by
  refine ⟨by decide +kernel, fun only => ?_⟩
  obtain ⟨lead, call, gap, rest, callee, isCall, -, whole⟩ := only
  obtain ⟨hook, -, takes⟩ := isCall.exists_takeWhile
  have same := takes gap (callee.not_mem (by decide))
  have word : "go();Base.prototype.setUp.apply( this, arguments );".toList.takeWhile (· != '(') = "go".toList := by
    decide +kernel
  have dot : '.' ∈ lead ++ opening hook := List.mem_append_right lead List.mem_cons_self
  rw [← same, ← whole, word] at dot
  exact absurd dot (by decide)

end JasmineConversion.Body
