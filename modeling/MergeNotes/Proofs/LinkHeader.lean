import MergeNotes.LinkHeader
import MergeNotes.Proofs.Text.Search
import MergeNotes.Proofs.Text.Split

/-! Link headers: the entries that are written into one are those that are found in it, and the
address that is followed stands in the header as an entry for the next page. -/

namespace MergeNotes.LinkHeader

variable {before rest : List Char}

/-- What stands before the first mark is found, unless nothing does. -/
theorem upTo?_eq_some_iff {mark : Char} {text : List Char} :
    upTo? mark text = some (before, rest) ↔
      before ≠ [] ∧ mark ∉ before ∧ text = before ++ mark :: rest := by
  constructor
  · intro found
    rw [upTo?] at found
    rcases all_or_stop (· != mark) text with all | ⟨start, c, more, rfl, passed, stop⟩
    · -- Without a mark nothing is left behind the span.
      rw [span_of_all all] at found
      split at found
      · cases found
      · cases found
      · rename_i whole
        cases (Prod.mk.inj whole).2
    · have same : c = mark := by simpa using stop
      subst same
      rw [span_of_stop passed stop] at found
      have clear : c ∉ start := fun member => by simpa using passed c member
      cases start with
      | nil => cases found
      | cons first start =>
        obtain ⟨rfl, rfl⟩ := Prod.mk.inj (Option.some.inj found)
        exact ⟨List.cons_ne_nil _ _, clear, rfl⟩
  · intro taken
    obtain ⟨nonempty, clear, whole⟩ := taken
    have passed : ∀ c ∈ before, (c != mark) = true := by
      intro c member
      rw [bne_iff_ne]
      exact fun same => clear (same ▸ member)
    rw [upTo?, whole, span_of_stop passed (by simp)]
    cases before with
    | nil => exact absurd rfl nonempty
    | cons first before => rfl

/-- An entry as it may be written: with any blanks before its relation, and no mark too early. -/
structure WrittenEntry extends Entry where
  blanks : List Char
  url_ne_nil : url ≠ []
  url_clear : '>' ∉ url
  relation_ne_nil : relation ≠ []
  relation_clear : '"' ∉ relation
  blank : ∀ c ∈ blanks, isBlank c = true

namespace WrittenEntry

/-- What is written of an entry behind its opening bracket. -/
def behindBracket (entry : WrittenEntry) : List Char :=
  entry.url ++ '>' :: ';' :: (entry.blanks ++ ("rel=\"".toList ++ (entry.relation ++ ['"'])))

/-- The text of an entry. -/
def text (entry : WrittenEntry) : List Char :=
  '<' :: entry.behindBracket

end WrittenEntry

/-- An entry is read exactly where one is written. -/
theorem entry?_eq_some_iff {entry : Entry} {text : List Char} :
    entry? text = some (entry, rest) ↔
      ∃ written : WrittenEntry, written.toEntry = entry ∧ text = written.behindBracket ++ rest := by
  constructor
  · intro found
    simp only [ entry?, Option.bind_eq_bind, Option.bind_eq_some_iff] at found
    obtain ⟨⟨url, behindUrl⟩, first, behindMark, semicolon, _, name, ⟨relation, behind⟩, second,
      same⟩ := found
    obtain ⟨rfl, rfl⟩ := Prod.mk.inj (Option.some.inj same)
    obtain ⟨someUrl, urlClear, rfl⟩ := upTo?_eq_some_iff.1 first
    obtain ⟨someRelation, relationClear, rfl⟩ := upTo?_eq_some_iff.1 second
    have semicolon : behindUrl = ';' :: behindMark := after?_eq_some_iff.1 semicolon
    -- The blanks are what is dropped before the name of the relation.
    have blanks := List.takeWhile_append_dropWhile (p := isBlank) (l := behindMark)
    rw [after?_eq_some_iff.1 name] at blanks
    have blank := List.all_eq_true.1 (List.all_takeWhile (p := isBlank) (l := behindMark))
    generalize behindMark.takeWhile isBlank = spaces at blanks blank
    refine ⟨⟨⟨url, relation⟩, spaces, someUrl, urlClear, someRelation, relationClear, blank⟩,
      rfl, ?_⟩
    simp [semicolon, ← blanks, WrittenEntry.behindBracket]
  · intro taken
    obtain ⟨written, same, whole⟩ := taken
    -- What is behind the address, behind the blanks, and behind the relation.
    have split : text = written.url ++ '>' :: ([';'] ++ (written.blanks ++ ("rel=\"".toList ++
        (written.relation ++ '"' :: rest)))) := by
      simp [whole, WrittenEntry.behindBracket]
    have first := upTo?_eq_some_iff.2 ⟨written.url_ne_nil, written.url_clear, split⟩
    have second := upTo?_eq_some_iff.2 ⟨written.relation_ne_nil, written.relation_clear,
      Eq.refl (written.relation ++ '"' :: rest)⟩
    have dropped : (written.blanks ++ ("rel=\"".toList ++
        (written.relation ++ '"' :: rest))).dropWhile isBlank =
        "rel=\"".toList ++ (written.relation ++ '"' :: rest) := by
      rw [List.dropWhile_append_of_pos written.blank]
      exact List.dropWhile_cons_of_neg (by decide)
    simp only [ entry?, first, after?_eq_some_iff.2 rfl, dropped, second, Option.bind_eq_bind,
      Option.bind_some, ← same]

/-- Whatever is found in a text was written into it. -/
theorem written_of_mem_entriesWithin {fuel : Nat} {text : List Char} {entry : Entry}
    (found : entry ∈ entriesWithin fuel text) :
    ∃ written : WrittenEntry, written.toEntry = entry ∧ written.text <:+: text := by
  induction fuel generalizing text with
  | zero => cases found
  | succ fuel ih =>
    cases text with
    | nil => cases found
    | cons c text =>
      -- What is written into the rest of a text is written into the text.
      have later (found : entry ∈ entriesWithin fuel text) :
          ∃ written : WrittenEntry, written.toEntry = entry ∧ written.text <:+: c :: text := by
        obtain ⟨written, same, inside⟩ := ih found
        exact ⟨written, same, List.infix_cons inside⟩
      rw [entriesWithin] at found
      split at found
      · rename_i bracket
        split at found
        · rename_i first rest read
          obtain ⟨written, same, rfl⟩ := entry?_eq_some_iff.1 read
          rcases List.mem_cons.1 found with rfl | found
          · exact ⟨written, same, [], rest, by rw [bracket]; rfl⟩
          · obtain ⟨next, same, inside⟩ := ih found
            refine ⟨next, same, inside.trans ?_⟩
            exact (List.suffix_append written.behindBracket rest).isInfix.trans
              (List.suffix_cons c _).isInfix
        · exact later found
      · exact later found

/-- What holds no bracket is passed over. -/
theorem entriesWithin_append {front : List Char} (clear : '<' ∉ front) (fuel : Nat)
    (text : List Char) :
    entriesWithin (front.length + fuel) (front ++ text) = entriesWithin fuel text := by
  induction front with
  | nil => rw [List.length_nil, Nat.zero_add, List.nil_append]
  | cons c front ih =>
    obtain ⟨other, later⟩ := not_or.1 (mt List.mem_cons.2 clear)
    rw [List.length_cons, Nat.add_right_comm, List.cons_append, entriesWithin,
      if_neg (Ne.symm other), ih later]

/-- Entries as they are written one after the other, each with what separates it from the next. -/
def writtenText (parts : List (WrittenEntry × List Char)) : List Char :=
  parts.flatMap fun part => part.1.text ++ part.2

theorem writtenText_cons (part : WrittenEntry × List Char)
    (parts : List (WrittenEntry × List Char)) :
    writtenText (part :: parts) =
      '<' :: (part.1.behindBracket ++ (part.2 ++ writtenText parts)) := by
  simp [writtenText, WrittenEntry.text]

/-- The entries written into a text are found in order, whatever stands between them. -/
theorem entriesWithin_writtenText {parts : List (WrittenEntry × List Char)}
    (separated : ∀ part ∈ parts, '<' ∉ part.2) {front : List Char} (clear : '<' ∉ front)
    {fuel : Nat} (enough : (front ++ writtenText parts).length < fuel) :
    entriesWithin fuel (front ++ writtenText parts) = parts.map (·.1.toEntry) := by
  induction parts generalizing front fuel with
  | nil =>
    rw [List.length_append] at enough
    obtain ⟨fuel, rfl⟩ := Nat.exists_eq_add_of_le (show front.length ≤ fuel by omega)
    rw [entriesWithin_append clear]
    cases fuel <;> rfl
  | cons part parts ih =>
    obtain ⟨first, others⟩ := List.forall_mem_cons.1 separated
    rw [writtenText_cons] at enough ⊢
    simp only [List.length_append, List.length_cons] at enough
    obtain ⟨fuel, rfl⟩ := Nat.exists_eq_add_of_le (show front.length + 1 ≤ fuel by omega)
    -- Behind its bracket the entry is read to its end, and what separates it from the next follows.
    have read := entry?_eq_some_iff.2 ⟨part.1, rfl,
      Eq.refl (part.1.behindBracket ++ (part.2 ++ writtenText parts))⟩
    have short : (part.2 ++ writtenText parts).length < fuel := by
      rw [List.length_append]
      omega
    have later := ih others first short
    rw [Nat.add_assoc, entriesWithin_append clear, Nat.add_comm 1, entriesWithin, if_pos rfl, read]
    rw [List.map_cons, ← later]

/-- The address that a header leads to is that of the first entry for the next page, of all that
were written into it between texts without opening brackets; and whatever the header, such an
address stands in it as an entry for the next page. -/
theorem next?_exact :
    (∀ (front : List Char) (parts : List (WrittenEntry × List Char)), '<' ∉ front →
      (∀ part ∈ parts, '<' ∉ part.2) →
        next? (String.ofList (front ++ writtenText parts)) =
          ((parts.map (·.1)).find? (·.relation == "next".toList)).map
            fun entry => String.ofList entry.url) ∧
    ∀ header url : String, next? header = some url →
      url ≠ "" ∧ '>' ∉ url.toList ∧ ∃ blanks : List Char, (∀ c ∈ blanks, isBlank c = true) ∧
        ('<' :: url.toList ++ ">;".toList ++ blanks ++ "rel=\"next\"".toList) <:+:
          header.toList := by
  constructor
  · intro front parts clear separated
    have found : entries (String.ofList (front ++ writtenText parts)) =
        (parts.map (·.1)).map (·.toEntry) := by
      rw [entries, String.toList_ofList, List.map_map]
      exact entriesWithin_writtenText separated clear (Nat.lt_succ_self _)
    rw [next?, found, List.find?_map, Option.map_map]
    rfl
  · intro header url found
    obtain ⟨entry, first, same⟩ := Option.map_eq_some_iff.1 found
    have next : entry.relation = "next".toList := by simpa using List.find?_some first
    obtain ⟨written, rfl, inside⟩ := written_of_mem_entriesWithin (List.mem_of_find?_eq_some first)
    subst same
    rw [String.toList_ofList]
    refine ⟨fun empty => written.url_ne_nil ?_, written.url_clear, written.blanks, written.blank,
      ?_⟩
    · simpa using congrArg String.toList empty
    · rw [WrittenEntry.text, WrittenEntry.behindBracket, next] at inside
      simpa using inside

/-- An entry whose address holds another opening bracket, and whose relation looks like an entry. -/
def previousEntry : WrittenEntry :=
  ⟨⟨"a<b".toList, "<c>; rel=next".toList⟩, [], by decide, by decide, by decide, by decide,
    List.forall_mem_nil _⟩

/-- An entry for the next page with an ideographic space and a line break before its relation. -/
def nextEntry : WrittenEntry :=
  ⟨⟨"d\"e".toList, "next".toList⟩, ['\u3000', '\n'], by decide, by decide, by decide, by decide,
    List.all_eq_true.1 (by decide)⟩

/-- Both entries, behind a text that could end one. -/
def pagedHeader : String :=
  String.ofList (">;".toList ++ writtenText [(previousEntry, ", ".toList), (nextEntry, [])])

theorem next?_exact_behind_previous :
    ('<' ∉ ">;".toList ∧ (∀ part ∈ [(previousEntry, ", ".toList), (nextEntry, [])], '<' ∉ part.2) ∧
      next? pagedHeader = some "d\"e") ∧
    '>' ∉ "d\"e".toList ∧ ∃ blanks : List Char, (∀ c ∈ blanks, isBlank c = true) ∧
      ('<' :: "d\"e".toList ++ ">;".toList ++ blanks ++ "rel=\"next\"".toList) <:+:
        pagedHeader.toList := by
  have front : '<' ∉ ">;".toList := by decide
  have separated : ∀ part ∈ [(previousEntry, ", ".toList), (nextEntry, [])], '<' ∉ part.2 := by
    simp
  have found : next? pagedHeader = some "d\"e" :=
    (next?_exact.1 _ _ front separated).trans (by decide)
  exact ⟨⟨front, separated, found⟩, (next?_exact.2 _ _ found).2⟩

end MergeNotes.LinkHeader
