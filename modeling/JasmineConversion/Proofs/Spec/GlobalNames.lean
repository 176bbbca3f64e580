import JasmineConversion.Proofs.Spec.GlobalHeader
import JasmineConversion.Proofs.Text.Lines

/-! # The names in a list of global names

The entries of a list stand between its commas, and are read back from the list that they are put together to. When a
list is brought up to date, the names of the old test library are taken out where they stand bare, without white space
around them, those of the new one are added whether they are listed or not, and all others stay in their order.
-/

namespace JasmineConversion.Globals

open Text

variable {text listed first name entry : Text} {entries more : List Text} {fresh : Bool}

/-! ## Entries -/

/-- The names in a listed text as one reads them: between its commas, without the white space around them. -/
def names (listed : Text) : List Text :=
  (listed.splitOn ',').map trim

/-- The pieces between commas hold none, and stand in the text. -/
theorem of_splitOn (pieces : text.splitOn ',' = first :: more) :
    (',' ∉ first ∧ first <+: text) ∧ ∀ piece ∈ more, ',' ∉ piece ∧ piece <:+: text := by
  induction text generalizing first more with
  | nil =>
    cases pieces
    simp
  | cons c rest ih =>
    obtain ⟨first', more', pieces'⟩ := List.exists_cons_of_ne_nil (List.splitOn_ne_nil ',' rest)
    obtain ⟨⟨apart, leads⟩, others⟩ := ih pieces'
    have further : ∀ piece ∈ more', ',' ∉ piece ∧ piece <:+: c :: rest :=
      fun piece member => (others piece member).imp_right fun inside => inside.trans (List.suffix_cons c rest).isInfix
    rw [List.splitOn_cons_eq_if_modifyHead, pieces'] at pieces
    split at pieces
    · cases pieces
      refine ⟨by simp, fun piece member => ?_⟩
      rcases List.mem_cons.mp member with rfl | member
      · exact ⟨apart, leads.isInfix.trans (List.suffix_cons c rest).isInfix⟩
      · exact further piece member
    · next other =>
      cases pieces
      refine ⟨⟨?_, List.cons_prefix_cons.mpr ⟨rfl, leads⟩⟩, further⟩
      rw [List.mem_cons, not_or]
      exact ⟨fun same => other (beq_iff_eq.mpr same.symm), apart⟩

/-- Entries are the pieces between commas, and behind a comma the white space at their start is left out. -/
theorem splitFrom_eq (pieces : text.splitOn ',' = first :: more) :
    splitFrom fresh text = (if fresh then trimStart first else first) :: more.map trimStart := by
  induction text generalizing fresh first more with
  | nil =>
    cases pieces
    cases fresh <;> rfl
  | cons c rest ih =>
    obtain ⟨first', more', pieces'⟩ := List.exists_cons_of_ne_nil (List.splitOn_ne_nil ',' rest)
    rw [List.splitOn_cons_eq_if_modifyHead, pieces'] at pieces
    rw [splitFrom]
    by_cases comma : c = ','
    · subst comma
      cases pieces
      rw [if_pos rfl, ih pieces']
      cases fresh <;> rfl
    · rw [if_neg (by simpa using comma)] at pieces
      cases pieces
      rw [if_neg comma, ih pieces', ih pieces']
      cases fresh with
      | false => rfl
      | true =>
        cases white : isBlank c with
        | true => simp [trimStart, white]
        | false => simp [trimStart, white]

/-- What one reads are the entries without the white space around them. -/
theorem names_eq_map_split (listed : Text) : names listed = (split listed).map trim := by
  obtain ⟨first, more, pieces⟩ := List.exists_cons_of_ne_nil (List.splitOn_ne_nil ',' listed)
  rw [names, split, pieces, splitFrom_eq pieces, List.map_cons, List.map_cons, List.map_map]
  congr 1
  exact List.map_congr_left fun piece _ => (trim_trimStart piece).symm

/-- An entry of a list has no comma and is part of it. -/
theorem of_mem_split (member : entry ∈ split listed) : ',' ∉ entry ∧ entry <:+: listed := by
  obtain ⟨first, more, pieces⟩ := List.exists_cons_of_ne_nil (List.splitOn_ne_nil ',' listed)
  obtain ⟨⟨apart, leads⟩, others⟩ := of_splitOn pieces
  rw [split, splitFrom_eq pieces] at member
  rcases List.mem_cons.mp member with rfl | member
  · exact ⟨apart, leads.isInfix⟩
  · obtain ⟨piece, inside, rfl⟩ := List.mem_map.mp member
    obtain ⟨apart, infixed⟩ := others piece inside
    exact ⟨fun comma => apart ((trimStart_suffix piece).subset comma),
      (trimStart_suffix piece).isInfix.trans infixed⟩

/-! ## Lists that are read back -/

/-- Entries that are read back from the list of them: they hold no comma, and behind the first one none starts with
white space. -/
structure Listable (entries : List Text) : Prop where
  nonempty : entries ≠ []
  apart : ∀ entry ∈ entries, ',' ∉ entry
  starts : ∀ entry ∈ entries.tail, Stops isBlank entry

/-- The entries of a list can be listed. -/
theorem listable_split (listed : Text) : Listable (split listed) := by
  obtain ⟨first, more, pieces⟩ := List.exists_cons_of_ne_nil (List.splitOn_ne_nil ',' listed)
  have entries : split listed = first :: more.map trimStart := splitFrom_eq pieces
  refine ⟨by simp [entries], fun entry member => (of_mem_split member).1, fun entry member => ?_⟩
  rw [entries, List.tail_cons] at member
  obtain ⟨piece, -, rfl⟩ := List.mem_map.mp member
  exact stops_dropWhile isBlank piece

/-- An entry is read without white space in front of it. -/
theorem entry_eq (starts : fresh = true → Stops isBlank entry) :
    (if fresh then trimStart entry else entry) = entry := by
  cases fresh with
  | false => rfl
  | true => exact trimStart_of_stops (starts rfl)

/-- A list is split at its first comma. -/
theorem splitFrom_append_comma (apart : ',' ∉ first) (starts : fresh = true → Stops isBlank first) (rest : Text) :
    splitFrom fresh (first ++ ',' :: rest) = first :: splitFrom true rest := by
  obtain ⟨second, more, pieces⟩ := List.exists_cons_of_ne_nil (List.splitOn_ne_nil ',' rest)
  have whole : (first ++ ',' :: rest).splitOn ',' = first :: second :: more := by
    rw [List.splitOn_append_cons_self_of_not_mem apart, pieces]
  rw [splitFrom_eq whole, splitFrom_eq pieces, entry_eq starts]
  rfl

/-- Entries that are joined are split again. -/
theorem splitFrom_join (apart : ',' ∉ first) (starts : fresh = true → Stops isBlank first)
    (others : ∀ entry ∈ more, ',' ∉ entry ∧ Stops isBlank entry) :
    splitFrom fresh (join ", ".toList (first :: more)) = first :: more := by
  induction more generalizing first fresh with
  | nil => rw [join, splitFrom_eq (List.splitOn_eq_singleton apart), entry_eq starts, List.map_nil]
  | cons second more ih =>
    obtain ⟨⟨apart', starts'⟩, further⟩ := List.forall_mem_cons.mp others
    have behind : splitFrom true (' ' :: join ", ".toList (second :: more)) = second :: more :=
      ih apart' (fun _ => starts') further
    calc
      splitFrom fresh (join ", ".toList (first :: second :: more)) =
          splitFrom fresh (first ++ ',' :: ' ' :: join ", ".toList (second :: more)) := by
        rw [join_cons (List.cons_ne_nil second more), List.append_assoc]
        rfl
      _ = first :: second :: more := by rw [splitFrom_append_comma apart starts, behind]

theorem Listable.split_join (listable : Listable entries) : split (join ", ".toList entries) = entries := by
  obtain ⟨first, more, rfl⟩ := List.exists_cons_of_ne_nil listable.nonempty
  exact splitFrom_join (listable.apart first List.mem_cons_self) (fun fresh => Bool.noConfusion fresh)
    fun entry member => ⟨listable.apart entry (List.mem_cons_of_mem first member), listable.starts entry member⟩

/-! ## Lists that are found again -/

/-- An entry that can stand in a list: on one line and without the end of a comment. -/
structure Enterable (entry : Text) : Prop where
  oneLine : '\n' ∉ entry
  noEnd : ¬ ['*', '/'] <:+: entry

theorem Enterable.inside (unended : Unended listed) (inside : entry <:+: listed) : Enterable entry :=
  ⟨fun feed => unended.oneLine (inside.subset feed), fun ends => unended.noEnd (ends.trans inside)⟩

theorem Enterable.tail {c : Char} (enterable : Enterable (c :: entry)) : Enterable entry :=
  ⟨fun feed => enterable.oneLine (List.mem_cons_of_mem c feed),
    fun ends => enterable.noEnd (ends.trans (List.suffix_cons c entry).isInfix)⟩

/-- An entry ends in front of a character that plays no part in the end of a comment. -/
theorem Enterable.append_cons {c : Char} (enterable : Enterable entry) (plain : c ≠ '\n' ∧ c ≠ '*' ∧ c ≠ '/')
    (unended : Unended text) (nonempty : text ≠ []) : Unended (entry ++ c :: text) := by
  induction entry with
  | nil =>
    refine Unended.cons_iff.mpr ⟨plain.1, ?_, fun empty => absurd empty nonempty, unended⟩
    rintro ⟨rest, same⟩
    exact plain.2.1 (List.cons.inj same).1.symm
  | cons d entry ih =>
    have oneLine := enterable.oneLine
    rw [List.mem_cons, not_or] at oneLine
    refine Unended.cons_iff.mpr ⟨Ne.symm oneLine.1, ?_, fun empty => absurd empty (by simp), ih enterable.tail⟩
    rintro ⟨rest, same⟩
    obtain ⟨rfl, behind⟩ := List.cons.inj same
    cases entry with
    | nil => exact plain.2.2 (List.cons.inj behind).1.symm
    | cons e entry =>
      obtain rfl := (List.cons.inj behind).1
      exact enterable.noEnd ⟨[], entry, rfl⟩

/-- Entries that can be entered are a list that ends with the last of them. -/
theorem unended_join (enterable : ∀ entry ∈ entries, Enterable entry) (unended : Unended name) (nonempty : name ≠ []) :
    Unended (join ", ".toList (entries ++ [name])) ∧ join ", ".toList (entries ++ [name]) ≠ [] := by
  induction entries with
  | nil => exact ⟨unended, nonempty⟩
  | cons entry entries ih =>
    obtain ⟨here, others⟩ := List.forall_mem_cons.mp enterable
    obtain ⟨unended, nonempty⟩ := ih others
    have whole : join ", ".toList (entry :: entries ++ [name]) =
        entry ++ ',' :: ' ' :: join ", ".toList (entries ++ [name]) := by
      rw [List.cons_append, join_cons (by simp), List.append_assoc]
      rfl
    have spaced : Unended ([] ++ ' ' :: join ", ".toList (entries ++ [name])) :=
      Enterable.append_cons ⟨List.not_mem_nil, by simp⟩ (by decide) unended nonempty
    rw [whole]
    exact ⟨here.append_cons (by decide) spaced (by simp), by simp⟩

/-! ## The update -/

/-- The entries of a list that are neither empty nor taken out. -/
def kept (entries : List Text) : List Text :=
  entries.filter fun name => !name.isEmpty && !removed.contains name

theorem mem_kept : entry ∈ kept entries ↔ entry ∈ entries ∧ entry ≠ [] ∧ entry ∉ removed := by
  simp [kept]

theorem last_mem_iff : last ∈ kept entries ++ added ↔ last ∈ entries := by
  rw [List.mem_append, mem_kept]
  have other : last ≠ [] ∧ last ∉ removed ∧ last ∉ added := by decide
  simp [other]

/-- An update adds the names behind those that are kept, and moves the last name to the end. -/
theorem update_eq (entries : List Text) : update entries =
    if last ∈ entries then (kept entries ++ added).erase last ++ [last] else kept entries ++ added := by
  by_cases member : last ∈ entries
  · have inside : (kept entries ++ added).contains last = true :=
      List.contains_iff_mem.mpr (last_mem_iff.mpr member)
    rw [if_pos member]
    exact if_pos inside
  · have outside : ¬ (kept entries ++ added).contains last = true :=
      mt List.contains_iff_mem.mp (mt last_mem_iff.mp member)
    rw [if_neg member]
    exact if_neg outside

/-- An update lists the entries that are kept and the names that are added. -/
theorem update_perm (entries : List Text) : (update entries).Perm (kept entries ++ added) := by
  rw [update_eq]
  split
  · next member =>
    exact List.perm_append_comm.trans (List.perm_cons_erase (last_mem_iff.mpr member)).symm
  · exact .refl _

theorem mem_update : entry ∈ update entries ↔ entry ∈ kept entries ∨ entry ∈ added := by
  rw [(update_perm entries).mem_iff, List.mem_append]

/-- An updated list ends with the name that goes to its end, if it was listed, or else with the last new one. -/
theorem exists_update (entries : List Text) :
    ∃ front, update entries = front ++ [if last ∈ entries then last else "expect".toList] := by
  rw [update_eq]
  split
  · exact ⟨_, rfl⟩
  · refine ⟨kept entries ++ added.dropLast, ?_⟩
    rw [List.append_assoc]
    rfl

/-- What is behind the first of two lists is behind the first entry of the one or in the other. -/
theorem mem_tail_append {front back : List Text} (member : entry ∈ (front ++ back).tail) :
    entry ∈ front.tail ∨ entry ∈ back := by
  cases front with
  | nil => exact .inr (List.mem_of_mem_tail member)
  | cons first more => exact List.mem_append.mp member

/-- An updated list can be listed. -/
theorem Listable.update (listable : Listable entries) : Listable (update entries) := by
  have new : ∀ name ∈ added, ',' ∉ name ∧ Stops isBlank name := by decide
  have starts : ∀ entry ∈ (kept entries ++ added).tail, Stops isBlank entry := by
    intro entry member
    rcases mem_tail_append member with old | member
    · exact listable.starts entry (List.filter_sublist.tail.subset old)
    · exact (new entry member).2
  refine ⟨?_, fun entry member => ?_, fun entry member => ?_⟩
  · obtain ⟨front, whole⟩ := exists_update entries
    rw [whole]
    exact List.append_ne_nil_of_right_ne_nil front (List.cons_ne_nil _ [])
  · rcases mem_update.mp member with old | member
    · exact listable.apart entry (mem_kept.mp old).1
    · exact (new entry member).1
  · rw [update_eq] at member
    split at member
    · rcases mem_tail_append member with member | member
      · exact starts entry ((List.erase_sublist ..).tail.subset member)
      · rw [List.mem_singleton.mp member]
        decide
    · exact starts entry member

theorem Enterable.of_not_mem (oneLine : '\n' ∉ entry) (noStar : '*' ∉ entry) : Enterable entry :=
  ⟨oneLine, fun ends => noStar (ends.subset List.mem_cons_self)⟩

/-- An updated list ends nowhere before its end. -/
theorem unended_update (unended : Unended listed) : Unended (join ", ".toList (update (split listed))) := by
  have new : ∀ name ∈ added ++ [last], '\n' ∉ name ∧ '*' ∉ name ∧ name ≠ [] ∧ Stops isBlank name.reverse := by decide
  have enterable : ∀ entry ∈ update (split listed), Enterable entry := by
    intro entry member
    rcases mem_update.mp member with old | member
    · exact .inside unended (of_mem_split (mem_kept.mp old).1).2
    · obtain ⟨oneLine, noStar, -⟩ := new entry (List.mem_append_left _ member)
      exact .of_not_mem oneLine noStar
  obtain ⟨front, whole⟩ := exists_update (split listed)
  generalize ending : (if last ∈ split listed then last else "expect".toList) = name at whole
  have member : name ∈ added ++ [last] := by
    rw [← ending]
    split <;> decide
  obtain ⟨oneLine, noStar, nonempty, solid⟩ := new name member
  have closes : Unended name := ⟨oneLine, (Enterable.of_not_mem oneLine noStar).noEnd, solid⟩
  rw [whole] at enterable ⊢
  exact (unended_join (fun entry member => enterable entry (List.mem_append_left _ member)) closes nonempty).1

/-- A comment with names, as it is read from left to right. -/
theorem append_comment (lead : Text) (names : List Text) :
    lead ++ comment names = lead ++ "/*global ".toList ++ join ", ".toList names ++ [' '] ++ "*/".toList := by
  have closing : " */".toList = [' '] ++ "*/".toList := rfl
  have whole : comment names = "/*global ".toList ++ join ", ".toList names ++ " */".toList := rfl
  rw [whole, closing]
  generalize "/*global ".toList = opening, "*/".toList = ending, join ", ".toList names = listed
  simp

/-- A first list that is brought up to date is the first one of the new text. -/
theorem Header.updated {lead blank tail : Text} (header : Header text lead listed blank tail) :
    Header (convert text) lead (join ", ".toList (update (split listed))) [' '] tail := by
  have relisted := header.relist (show isBlankText [' '] = true by decide) (unended_update header.unended)
  have converted : convert text = lead ++ comment (update (split listed)) ++ tail := by
    rw [convert, header.found]
  rw [converted, append_comment]
  exact relisted

/-! ## The names of an updated list -/

/-- Wherever a name is listed, it stands bare: right behind the white space after the last comma, or the start of the
list, and right in front of the next comma, or the end. -/
def Bare (listed name : Text) : Prop :=
  ∀ entry ∈ split listed, trim entry = name → entry = name

/-- A name that has nothing to do with either test library, nor with the end of the list. -/
def isOther (name : Text) : Bool :=
  !name.isEmpty && !removed.contains name && !added.contains name && name != last

theorem names_updated (listed : Text) :
    names (join ", ".toList (update (split listed))) = (update (split listed)).map trim := by
  rw [names_eq_map_split, (listable_split listed).update.split_join]

/-- A name to take out is left exactly where it does not stand bare. -/
theorem mem_map_kept_iff (listed : Text) (taken : name ∈ removed) :
    name ∈ (kept (split listed)).map trim ↔ ¬ Bare listed name := by
  have trimmed : ∀ name ∈ removed, trim name = name ∧ name ≠ [] := by decide
  simp only [Bare, List.mem_map, mem_kept, Classical.not_forall]
  constructor
  · rintro ⟨entry, ⟨member, -, stays⟩, rfl⟩
    exact ⟨entry, member, rfl, fun bare => stays (bare ▸ taken)⟩
  · rintro ⟨entry, member, same, padded⟩
    subst same
    refine ⟨entry, ⟨member, ?_, fun bare => padded (trimmed entry bare).1.symm⟩, rfl⟩
    rintro rfl
    exact (trimmed _ taken).2 rfl

/-- An entry that is read as a name to stay is not taken out. -/
theorem stays_of_trim (nonempty : trim entry ≠ []) (stays : trim entry ∉ removed) : entry ≠ [] ∧ entry ∉ removed := by
  have trimmed : ∀ name ∈ removed, trim name = name := by decide
  refine ⟨?_, fun taken => stays ((trimmed entry taken).symm ▸ taken)⟩
  rintro rfl
  exact nonempty rfl

/-- The names that stay are listed as often as before. -/
theorem count_map_kept (nonempty : name ≠ []) (stays : name ∉ removed) :
    ((kept entries).map trim).count name = (entries.map trim).count name := by
  rw [List.count_eq_countP, List.count_eq_countP, List.countP_map, List.countP_map, kept, List.countP_filter]
  refine List.countP_congr fun entry _ => ?_
  simp only [Function.comp_apply, Bool.and_eq_true, Bool.not_eq_true', beq_iff_eq, List.isEmpty_eq_false_iff,
    List.contains_eq_mem, decide_eq_false_iff_not]
  refine ⟨And.left, fun same => ⟨same, ?_⟩⟩
  subst same
  exact stays_of_trim nonempty stays

theorem count_map_update (entries : List Text) (name : Text) :
    ((update entries).map trim).count name = ((kept entries).map trim).count name + (added.map trim).count name := by
  rw [((update_perm entries).map trim).count_eq, List.map_append, List.count_append]

/-- The other names stay in their order. -/
theorem filter_isOther_update (entries : List Text) :
    ((update entries).map trim).filter isOther = (entries.map trim).filter isOther := by
  have ofLibraries : ∀ name ∈ added ++ [last], isOther (trim name) = false := by decide
  have keeps : (kept entries ++ added).filter (isOther ∘ trim) = entries.filter (isOther ∘ trim) := by
    have none : added.filter (isOther ∘ trim) = [] := by decide
    rw [List.filter_append, none, List.append_nil, kept, List.filter_filter]
    refine List.filter_congr fun entry _ => ?_
    cases other : isOther (trim entry) with
    | false => simp [other]
    | true =>
      have apart : trim entry ≠ [] ∧ trim entry ∉ removed := by
        simp only [isOther, Bool.and_eq_true, Bool.not_eq_true', List.isEmpty_eq_false_iff, List.contains_eq_mem,
          decide_eq_false_iff_not] at other
        exact other.1.1
      have stays := stays_of_trim apart.1 apart.2
      simp [other, stays]
  rw [List.filter_map, List.filter_map, update_eq]
  congr 1
  split
  · have outside : last ∉ (kept entries ++ added).filter (isOther ∘ trim) := fun member => by
      have other := (List.mem_filter.mp member).2
      rw [Function.comp_apply, ofLibraries last (by decide)] at other
      cases other
    have gone : [last].filter (isOther ∘ trim) = [] := by decide
    rw [List.filter_append, gone, List.append_nil, ← List.erase_filter, List.erase_of_not_mem outside, keeps]
  · exact keeps

/-- What a list of global names becomes when it is brought up to date. -/
structure Updated (listed listed' : Text) : Prop where
  /-- A name of the old test library is gone if it stood bare, and only then. -/
  old : ∀ name ∈ ["Ext".toList, "Y".toList, "tests".toList], name ∉ names listed' ↔ Bare listed name
  /-- The name that both libraries share is listed, and is so once if it stood bare, and only then. -/
  shared : "_".toList ∈ names listed' ∧ ((names listed').count "_".toList = 1 ↔ Bare listed "_".toList)
  /-- A name of the new test library is listed once more than before. -/
  new : ∀ name ∈ ["describe".toList, "beforeEach".toList, "afterEach".toList, "it".toList, "expect".toList],
    (names listed').count name = (names listed).count name + 1
  /-- The name that goes to the end is listed as often as before. -/
  mocks : (names listed').count "JsMockito".toList = (names listed).count "JsMockito".toList
  /-- It is at the end if it was an entry, and not only a name with white space around it. -/
  atEnd : (names listed').getLast? =
    some (if "JsMockito".toList ∈ split listed then "JsMockito".toList else "expect".toList)
  /-- The other names are listed as before. -/
  others : (names listed').filter isOther = (names listed).filter isOther

/-- A list that is updated lists what was kept and added. -/
theorem updated_join (listed : Text) : Updated listed (join ", ".toList (update (split listed))) := by
  constructor
  all_goals rw [names_updated]
  · intro name member
    have taken : ∀ name ∈ ["Ext".toList, "Y".toList, "tests".toList], name ∈ removed ∧ name ∉ added.map trim := by
      decide
    obtain ⟨taken, absent⟩ := taken name member
    have kept := mem_map_kept_iff listed taken
    rw [← List.count_eq_zero, count_map_update, List.count_eq_zero.mpr absent, Nat.add_zero, List.count_eq_zero, kept,
      Classical.not_not]
  · have once : (added.map trim).count "_".toList = 1 := by decide
    have kept := mem_map_kept_iff listed (show "_".toList ∈ removed by decide)
    rw [← List.count_pos_iff, count_map_update, once]
    refine ⟨Nat.succ_pos _, ?_⟩
    rw [Nat.add_eq_right, List.count_eq_zero, kept, Classical.not_not]
  · intro name member
    have once : ∀ name ∈ ["describe".toList, "beforeEach".toList, "afterEach".toList, "it".toList, "expect".toList],
        name ≠ [] ∧ name ∉ removed ∧ (added.map trim).count name = 1 := by decide
    obtain ⟨nonempty, stays, once⟩ := once name member
    rw [names_eq_map_split, count_map_update, count_map_kept nonempty stays, once]
  · have none : (added.map trim).count "JsMockito".toList = 0 := by decide
    rw [names_eq_map_split, count_map_update, count_map_kept (by decide) (by decide), none, Nat.add_zero]
  · obtain ⟨front, whole⟩ := exists_update (split listed)
    rw [whole, List.map_append, List.map_singleton, List.getLast?_concat]
    unfold last
    split <;> rfl
  · rw [names_eq_map_split, filter_isOther_update]

/-- The first list of a text is brought up to date in its place, and nothing else is changed. Each further run
lists the names of the new test library once more. -/
theorem first_list_updated {text : Text} (lists : Lists text) :
    ∃ lead listed blank tail listed', Header text lead listed blank tail ∧
      Header (convert text) lead listed' [' '] tail ∧ Updated listed listed' ∧
      convert (convert text) ≠ convert text := by
  obtain ⟨lead, listed, blank, tail, header⟩ := lists.exists_header
  have again := header.updated.updated
  refine ⟨lead, listed, blank, tail, _, header, header.updated, updated_join listed, fun same => ?_⟩
  rw [same] at again
  have found := again.found.symm.trans header.updated.found
  have relisted : join ", ".toList (update (split (join ", ".toList (update (split listed))))) =
      join ", ".toList (update (split listed)) := (Prod.mk.inj (Prod.mk.inj (Option.some.inj found)).2).1
  have more := (updated_join (join ", ".toList (update (split listed)))).new "describe".toList List.mem_cons_self
  rw [relisted] at more
  omega

/-- Names of both libraries between others: one stands bare, one before white space, and one is listed already. -/
theorem mixedList_updated :
    Lists "x();\n/*global Ext, Y , app, JsMockito, describe */\ngo();".toList ∧
      convert "x();\n/*global Ext, Y , app, JsMockito, describe */\ngo();".toList =
        ("x();\n/*global Y , app, describe, _, describe, beforeEach, afterEach, it, expect, JsMockito */\n" ++
          "go();").toList ∧
      ∃ lead listed blank tail listed',
        Header "x();\n/*global Ext, Y , app, JsMockito, describe */\ngo();".toList lead listed blank tail ∧
          Header (convert "x();\n/*global Ext, Y , app, JsMockito, describe */\ngo();".toList) lead listed' [' '] tail ∧
          Updated listed listed' ∧
          convert (convert "x();\n/*global Ext, Y , app, JsMockito, describe */\ngo();".toList) ≠
            convert "x();\n/*global Ext, Y , app, JsMockito, describe */\ngo();".toList := by
  have lists : Lists "x();\n/*global Ext, Y , app, JsMockito, describe */\ngo();".toList :=
    ⟨"x();\n".toList, "Ext, Y , app, JsMockito, describe".toList, [' '], "\ngo();".toList, by decide, by decide,
      by decide⟩
  exact ⟨lists, by decide +kernel, first_list_updated lists⟩

/-- A list that is up to date gets the names of the new test library a second time, but for the shared one. -/
theorem updatedList_listed_twice :
    convert "/*global a */".toList = "/*global a, _, describe, beforeEach, afterEach, it, expect */".toList ∧
      ∃ listed,
        Header (convert "/*global a, _, describe, beforeEach, afterEach, it, expect */".toList) [] listed [' '] [] ∧
        (names listed).count "_".toList = 1 ∧ (names listed).count "describe".toList = 2 ∧
        convert (convert "/*global a */".toList) ≠ convert "/*global a */".toList := by
  have header : Header "/*global a, _, describe, beforeEach, afterEach, it, expect */".toList []
      "a, _, describe, beforeEach, afterEach, it, expect".toList [' '] [] := by
    obtain ⟨blank, header⟩ := exists_header_of_find? (show find?
      "/*global a, _, describe, beforeEach, afterEach, it, expect */".toList =
        some ([], "a, _, describe, beforeEach, afterEach, it, expect".toList, []) by decide +kernel)
    exact ⟨by decide +kernel, by decide, header.unended, header.found⟩
  exact ⟨by decide +kernel, _, header.updated, by decide +kernel, by decide +kernel, by decide +kernel⟩

end JasmineConversion.Globals
