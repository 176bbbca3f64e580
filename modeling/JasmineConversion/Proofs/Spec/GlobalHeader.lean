import JasmineConversion.Proofs.Spec.Globals

/-! # The first list of global names

A list of global names is found at the first place in a text where it can be closed: on its own line, but for the white
space in front of its end. It stays the first one when something else is listed in it.
-/

namespace JasmineConversion.Globals

open Text

/-- A listed text as it is found: on one line, without the end of a comment and without white space at its own end. -/
structure Unended (listed : Text) : Prop where
  oneLine : '\n' ∉ listed
  noEnd : ¬ ['*', '/'] <:+: listed
  solid : Stops isBlank listed.reverse

/-- A text holds a list of global names. -/
def Lists (text : Text) : Prop :=
  ∃ lead listed blank tail, '\n' ∉ listed ∧ isBlankText blank = true ∧
    text = lead ++ "/*global ".toList ++ listed ++ blank ++ "*/".toList ++ tail

/-- The first list of global names in a text: what stands before it, what is listed, the white space at its end, and
what stands behind it. -/
structure Header (text lead listed blank tail : Text) : Prop where
  here : text = lead ++ "/*global ".toList ++ listed ++ blank ++ "*/".toList ++ tail
  white : isBlankText blank = true
  unended : Unended listed
  found : find? text = some (lead, listed, tail)

theorem endMark : "*/".toList = ['*', '/'] := rfl

/-- A list is closed by white space and the end of the comment. -/
theorem close_eq_some_iff {text tail : Text} : after? "*/".toList (trimStart text) = some tail ↔
    ∃ blank, isBlankText blank = true ∧ text = blank ++ '*' :: '/' :: tail := by
  have stops : Stops isBlank ('*' :: '/' :: tail) := (stops_cons _ _ _).mpr (by decide)
  rw [endMark, after?_eq_some_iff, List.cons_append, List.cons_append, List.nil_append, trimStart_eq_iff,
    and_iff_left stops]

/-- A listed text does not end before its end. -/
theorem Unended.close_eq_none {c : Char} {listed blank : Text} (unended : Unended (c :: listed))
    (white : isBlankText blank = true) (tail : Text) :
    after? "*/".toList (trimStart (c :: listed ++ (blank ++ '*' :: '/' :: tail))) = none := by
  rw [Option.eq_none_iff_forall_ne_some]
  intro rest found
  obtain ⟨front, allBlank, same⟩ := close_eq_some_iff.mp found
  rcases append_eq_append_cases same with ⟨more, split, nonempty, behind⟩ | ⟨more, rfl, -⟩
  · obtain ⟨d, more, rfl⟩ := List.exists_cons_of_ne_nil nonempty
    obtain ⟨rfl, further⟩ := List.cons.inj behind
    cases more with
    | nil =>
      -- The asterisk is the last character listed, and no slash follows it.
      cases blank with
      | nil => exact absurd (List.cons.inj further).1 (by decide)
      | cons e blank =>
        obtain rfl := (List.cons.inj further).1
        exact absurd white (by rw [isBlankText_cons, show isBlank '/' = false by decide]; exact Bool.false_ne_true)
    | cons e more =>
      obtain rfl := (List.cons.inj further).1
      exact unended.noEnd ⟨front, more, by rw [split]; simp⟩
  · have last := unended.solid
    rw [isBlankText_append, Bool.and_eq_true, isBlankText_iff] at allBlank
    obtain ⟨e, init, reversed⟩ := List.exists_cons_of_ne_nil (show (c :: listed).reverse ≠ [] by simp)
    rw [reversed, stops_cons] at last
    have member : e ∈ c :: listed := List.mem_reverse.mp (reversed ▸ List.mem_cons_self)
    exact absurd (allBlank.1 e member) (by simp [last])

theorem Unended.nil : Unended [] :=
  ⟨List.not_mem_nil, by simp, stops_nil isBlank⟩

/-- A list is not ended by a character if this is no line feed, ends no comment and is no white space at
the end. -/
theorem Unended.cons_iff {c : Char} {listed : Text} : Unended (c :: listed) ↔
    c ≠ '\n' ∧ ¬ ['*', '/'] <+: c :: listed ∧ (listed = [] → isBlank c = false) ∧ Unended listed := by
  have solid : Stops isBlank (c :: listed).reverse ↔
      (listed = [] → isBlank c = false) ∧ Stops isBlank listed.reverse := by
    rcases List.eq_nil_or_concat listed with rfl | ⟨init, last, rfl⟩ <;> simp
  constructor
  · rintro ⟨oneLine, noEnd, ends⟩
    rw [List.mem_cons, not_or] at oneLine
    rw [List.infix_cons_iff, not_or] at noEnd
    obtain ⟨first, ends⟩ := solid.mp ends
    exact ⟨Ne.symm oneLine.1, noEnd.1, first, oneLine.2, noEnd.2, ends⟩
  · rintro ⟨feed, noEnd, first, unended⟩
    refine ⟨?_, ?_, solid.mpr ⟨first, unended.solid⟩⟩
    · rw [List.mem_cons, not_or]
      exact ⟨Ne.symm feed, unended.oneLine⟩
    · rw [List.infix_cons_iff, not_or]
      exact ⟨noEnd, unended.noEnd⟩

/-- A list that is closed at once is empty. -/
theorem listed?_of_close {text tail : Text} (closed : after? "*/".toList (trimStart text) = some tail) :
    listed? text = some ([], tail) := by
  cases text with
  | nil => cases closed
  | cons c rest => rw [listed?, closed]

/-- What is listed goes on up to the first end of a comment and the white space before it. -/
theorem listed?_eq_some_iff {text listed tail : Text} : listed? text = some (listed, tail) ↔
    Unended listed ∧ ∃ blank, isBlankText blank = true ∧ text = listed ++ (blank ++ '*' :: '/' :: tail) := by
  constructor
  · intro found
    induction text generalizing listed with
    | nil => cases found
    | cons c rest ih =>
      rw [listed?] at found
      split at found
      · next closed =>
        cases found
        exact ⟨.nil, close_eq_some_iff.mp closed⟩
      · next goesOn =>
        split at found
        · cases found
        · next feed =>
          obtain ⟨⟨listed, tail⟩, inner, same⟩ := Option.map_eq_some_iff.mp found
          cases same
          obtain ⟨unended, blank, white, rfl⟩ := ih inner
          have never (front rest : Text) (white : isBlankText front = true) :
              c :: (listed ++ (blank ++ '*' :: '/' :: tail)) ≠ front ++ '*' :: '/' :: rest := fun same => by
            rw [close_eq_some_iff.mpr ⟨front, white, same⟩] at goesOn
            cases goesOn
          refine ⟨Unended.cons_iff.mpr ⟨feed, ?_, ?_, unended⟩, blank, white, rfl⟩
          · rintro ⟨more, same⟩
            exact never [] _ rfl (congrArg (· ++ (blank ++ '*' :: '/' :: tail)) same).symm
          · rintro rfl
            refine Bool.eq_false_iff.mpr fun here => never (c :: blank) tail ?_ rfl
            rw [isBlankText_cons, here, white, Bool.true_and]
  · rintro ⟨unended, blank, white, rfl⟩
    induction listed with
    | nil => exact listed?_of_close (close_eq_some_iff.mpr ⟨blank, white, rfl⟩)
    | cons c listed ih =>
      obtain ⟨feed, -, -, further⟩ := Unended.cons_iff.mp unended
      have goesOn := unended.close_eq_none white tail
      rw [List.cons_append] at goesOn ⊢
      rw [listed?, goesOn]
      simp only [if_neg feed, ih further, Option.map_some]

/-- A list on one line can be longer in front. -/
theorem isSome_listed?_append {front rest : Text} (oneLine : '\n' ∉ front) (listed : (listed? rest).isSome = true) :
    (listed? (front ++ rest)).isSome = true := by
  induction front with
  | nil => exact listed
  | cons c front ih =>
    rw [List.mem_cons, not_or] at oneLine
    rw [List.cons_append, listed?]
    split
    · rfl
    · rw [if_neg (Ne.symm oneLine.1), Option.isSome_map]
      exact ih oneLine.2

/-- Whether a comment ends in front of a slash does not depend on what follows the slash. -/
theorem isSome_close_congr (front rest rest' : Text) :
    (after? "*/".toList (trimStart (front ++ '/' :: rest))).isSome =
      (after? "*/".toList (trimStart (front ++ '/' :: rest'))).isSome := by
  have slash : isBlank '/' = false := by decide
  induction front with
  | nil =>
    have stops (rest : Text) : trimStart ('/' :: rest) = '/' :: rest :=
      trimStart_of_stops ((stops_cons _ _ _).mpr slash)
    rw [List.nil_append, List.nil_append, stops, stops]
    rfl
  | cons c front ih =>
    cases white : isBlank c with
    | true =>
      have drops (rest : Text) : trimStart (c :: rest) = trimStart rest := List.dropWhile_cons_of_pos white
      rw [List.cons_append, List.cons_append, drops, drops, ih]
    | false =>
      have stops (rest : Text) : trimStart (c :: rest) = c :: rest :=
        trimStart_of_stops ((stops_cons _ _ _).mpr white)
      rw [List.cons_append, List.cons_append, stops, stops, endMark]
      by_cases star : '*' = c
      · subst star
        cases front with
        | nil => rfl
        | cons d front =>
          by_cases ends : '/' = d
          · subst ends
            rfl
          · simp [after?, ends]
      · simp only [after?, if_neg star]

/-- What is in front of a slash is no list whatever is behind. -/
theorem listed?_eq_none_congr {front rest rest' : Text} (listed : (listed? ('/' :: rest)).isSome = true)
    (none : listed? (front ++ '/' :: rest) = none) : listed? (front ++ '/' :: rest') = Option.none := by
  induction front with
  | nil =>
    rw [List.nil_append] at none
    rw [none] at listed
    cases listed
  | cons c front ih =>
    have same := isSome_close_congr (c :: front) rest rest'
    rw [List.cons_append] at none ⊢
    rw [listed?] at none ⊢
    rw [List.cons_append, List.cons_append] at same
    split at none
    · cases none
    · next goesOn =>
      rw [goesOn, Option.isSome_none, eq_comm, Option.isSome_eq_false_iff, Option.isNone_iff_eq_none] at same
      rw [same]
      split at none
      · next feed => rw [if_pos feed]
      · next feed =>
        rw [if_neg feed, ih (Option.map_eq_none_iff.mp none)]
        rfl

/-- A header at the start of a text is the first one. -/
theorem find?_of_here {text : Text} {found : Text × Text}
    (here : (after? "/*global ".toList text).bind listed? = some found) : find? text = some ([], found) := by
  cases text with
  | nil => cases here
  | cons c rest => rw [find?, here]

/-- Where no list starts in front of another one, none does whatever is listed there. -/
theorem not_here_congr {c : Char} {front rest rest' : Text} {found : Text × Text} (listed : listed? rest = some found)
    (other : (after? "/*global ".toList (c :: (front ++ ("/*global ".toList ++ rest)))).bind listed? = none) :
    (after? "/*global ".toList (c :: (front ++ ("/*global ".toList ++ rest')))).bind listed? = none := by
  by_cases slash : '/' = c
  · subst slash
    have opens (rest : Text) : after? "/*global ".toList ('/' :: (front ++ ("/*global ".toList ++ rest))) =
        (after? "*global ".toList front).map (· ++ '/' :: ("*global ".toList ++ rest)) :=
      after?_append_cons (by decide) front _
    rw [opens] at other ⊢
    cases names : after? "*global ".toList front with
    | none => rfl
    | some names' =>
      rw [names] at other
      exact listed?_eq_none_congr (isSome_listed?_append (show '\n' ∉ "/*global ".toList by decide)
        (Option.isSome_of_eq_some listed)) other
  · have none (text : Text) : after? "/*global ".toList (c :: text) = none := if_neg slash
    rw [none]
    rfl

/-- A list is the first one of a text whatever it is, as long as what stands before it is the same. -/
theorem find?_congr {lead rest rest' : Text} {found found' : Text × Text} (listed : listed? rest = some found)
    (listed' : listed? rest' = some found')
    (first : find? (lead ++ ("/*global ".toList ++ rest)) = some (lead, found)) :
    find? (lead ++ ("/*global ".toList ++ rest')) = some (lead, found') := by
  induction lead with
  | nil => exact find?_of_here (by rw [List.nil_append, after?_append, Option.bind_some, listed'])
  | cons c lead ih =>
    rw [List.cons_append, find?] at first ⊢
    split at first
    · cases first
    · next other =>
      obtain ⟨⟨front, inner⟩, further, same⟩ := Option.map_eq_some_iff.mp first
      obtain ⟨rfl, rfl⟩ : lead = front ∧ found = inner := by simpa [eq_comm] using same
      rw [not_here_congr listed other, ih further]
      rfl

/-- A header that is found is written there, and none in front of it. -/
theorem exists_header_of_find? {text lead listed tail : Text} (found : find? text = some (lead, listed, tail)) :
    ∃ blank, Header text lead listed blank tail := by
  suffices here : ∃ blank, isBlankText blank = true ∧ Unended listed ∧
      text = lead ++ ("/*global ".toList ++ (listed ++ (blank ++ '*' :: '/' :: tail))) by
    obtain ⟨blank, white, unended, here⟩ := here
    exact ⟨blank, by simpa [endMark] using here, white, unended, found⟩
  induction text generalizing lead with
  | nil => cases found
  | cons c rest ih =>
    rw [find?] at found
    split at found
    · next names behind here =>
      cases found
      obtain ⟨rest', opens, inner⟩ := Option.bind_eq_some_iff.mp here
      obtain ⟨unended, blank, white, rfl⟩ := listed?_eq_some_iff.mp inner
      have split := after?_eq_some_iff.mp opens
      exact ⟨blank, white, unended, split⟩
    · obtain ⟨⟨front, inner⟩, further, same⟩ := Option.map_eq_some_iff.mp found
      obtain ⟨rfl, rfl⟩ : c :: front = lead ∧ inner = (listed, tail) := by simpa using same
      obtain ⟨blank, white, unended, rfl⟩ := ih further
      exact ⟨blank, white, unended, rfl⟩

/-- A header is found behind any text. -/
theorem isSome_find?_append {rest : Text} (listed : (listed? rest).isSome = true) (lead : Text) :
    (find? (lead ++ ("/*global ".toList ++ rest))).isSome = true := by
  obtain ⟨found, listed⟩ := Option.isSome_iff_exists.mp listed
  induction lead with
  | nil => rw [List.nil_append, find?_of_here (by rw [after?_append, Option.bind_some, listed])]; rfl
  | cons c lead ih =>
    rw [List.cons_append, find?]
    split
    · rfl
    · rw [Option.isSome_map]
      exact ih

/-- A text that holds a list has a first one. -/
theorem Lists.exists_header {text : Text} (lists : Lists text) :
    ∃ lead listed blank tail, Header text lead listed blank tail := by
  obtain ⟨lead, listed, blank, tail, oneLine, white, rfl⟩ := lists
  have closed : listed? (blank ++ '*' :: '/' :: tail) = some ([], tail) :=
    listed?_of_close (close_eq_some_iff.mpr ⟨blank, white, rfl⟩)
  have found := isSome_find?_append (isSome_listed?_append oneLine (Option.isSome_of_eq_some closed)) lead
  obtain ⟨⟨lead', listed', tail'⟩, found⟩ := Option.isSome_iff_exists.mp found
  have same : lead ++ "/*global ".toList ++ listed ++ blank ++ "*/".toList ++ tail =
      lead ++ ("/*global ".toList ++ (listed ++ (blank ++ '*' :: '/' :: tail))) := by simp [endMark]
  rw [same]
  obtain ⟨blank', header⟩ := exists_header_of_find? found
  exact ⟨lead', listed', blank', tail', header⟩

/-- A first list stays the first one when something else is listed. -/
theorem Header.relist {text lead listed blank tail listed' blank' : Text} (header : Header text lead listed blank tail)
    (white : isBlankText blank' = true) (unended : Unended listed') :
    Header (lead ++ "/*global ".toList ++ listed' ++ blank' ++ "*/".toList ++ tail) lead listed' blank' tail := by
  have opened (listed blank : Text) : lead ++ "/*global ".toList ++ listed ++ blank ++ "*/".toList ++ tail =
      lead ++ ("/*global ".toList ++ (listed ++ (blank ++ '*' :: '/' :: tail))) := by simp [endMark]
  refine ⟨rfl, white, unended, ?_⟩
  have first := header.found
  rw [header.here, opened] at first
  rw [opened]
  exact find?_congr (listed?_eq_some_iff.mpr ⟨header.unended, blank, header.white, rfl⟩)
    (listed?_eq_some_iff.mpr ⟨unended, blank', white, rfl⟩) first

end JasmineConversion.Globals
