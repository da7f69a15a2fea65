import MergeNotes.Proofs.Url.Extension

/-! URLs of the web whose texts begin alike: they are read together, at the same host, and the text
of one is no longer than that of another that goes on behind it. -/

namespace MergeNotes.Url

variable {base url : Url} {text : String} {tail other : List Char}

/-- Where a tail leads that another one follows. -/
theorem continued_concat {kind : Kind} (notFile : kind ≠ .file) {last : List Char}
    (segment : IsSegment kind last) (done : List (List Char)) (text : List Char) :
    ∃ trail, continued kind done (text ++ '/' :: last) = trail ++ [last] ∧
      (continued kind done text = trail ∨ continued kind done text = trail ++ [[]]) := by
  obtain ⟨front, final, pieces⟩ := exists_concat_splitAtEach (isSeparator kind) text
  have inside : ∀ c ∈ last, isSeparator kind c = false := fun c member => by
    simpa using ((Bool.and_eq_true _ _).mp (segment.plain c member)).2
  -- What was the last piece is followed by another one now, and that one is last.
  have longer : splitAtEach (isSeparator kind) (text ++ '/' :: last) =
      (front ++ [final]) ++ [last] := by
    rw [splitAtEach_append _ _ (by simp [isSeparator]), pieces, splitAtEach_of_none inside]
  refine ⟨(advance (front.foldl advance done) final).reverse, ?_, ?_⟩
  · rw [continued_eq notFile done longer, segment.finish, List.foldl_append, List.reverse_cons]
    rfl
  · rw [continued_eq notFile done pieces]
    unfold finish advance
    split
    · -- Dots leave an empty segment at the end, which is where more would go.
      exact .inr (by rw [List.reverse_cons])
    · split
      · exact .inr (by rw [List.reverse_cons])
      · exact .inl rfl

theorem length_text_append (front back : List (List Char)) :
    (Path.rooted (front ++ back)).text.length =
      (Path.rooted front).text.length + (Path.rooted back).text.length := by
  rw [Path.text, List.flatMap_append, List.length_append]
  rfl

/-- The text of a path is no longer than with a segment behind it. -/
theorem length_continued_le {kind : Kind} (notFile : kind ≠ .file) {last : List Char}
    (segment : IsSegment kind last) (done : List (List Char)) (text : List Char) :
    (Path.rooted (continued kind done text)).text.length ≤
      (Path.rooted (continued kind done (text ++ '/' :: last))).text.length := by
  obtain ⟨trail, longer, same | same⟩ := continued_concat notFile segment done text
  · rw [longer, same, length_text_append]
    omega
  · -- An empty segment is a slash alone, and no segment is shorter.
    have bare : (Path.rooted [[]]).text.length = 1 := rfl
    have single : (Path.rooted [last]).text.length = last.length + 1 := by simp [Path.text]
    rw [longer, same, length_text_append, length_text_append, bare, single]
    omega

/-- The length of a text grows with what is put behind it. -/
theorem length_followed (marked : base.query ≠ none ∨ base.fragment ≠ none) (more : List Char) :
    (base.followed more).text.toList.length = base.text.toList.length + more.length := by
  -- The text gets into the fragment if there is one, and else into the query.
  obtain ⟨scheme, authority, path, query, fragment⟩ := base
  cases fragment with
  | some fragment =>
    simp only [followed, Url.text, withoutFragment, resource, Option.elim_some,
      String.toList_ofList, List.length_append, List.length_cons]
    omega
  | none =>
    cases query with
    | none => simp at marked
    | some query =>
      simp only [followed, Url.text, withoutFragment, resource, Option.map_some, Option.elim_some,
        Option.elim_none, String.toList_ofList, List.length_append, List.length_cons,
        List.length_nil]
      omega

/-- Behind the text of a URL all tails are read alike. -/
theorem exists_sibling (read : parse text = .ok base) (plain : ∀ c ∈ tail, isTailChar c = true)
    (longer : parse (String.ofList (text.toList ++ '/' :: tail)) = .ok url)
    (web : url.isWeb = true) (others : ∀ c ∈ other, isTailChar c = true) :
    ∃ sibling, parse (String.ofList (text.toList ++ '/' :: other)) = .ok sibling ∧
      sibling.scheme = url.scheme ∧ sibling.authority = url.authority ∧
      ∀ last : List Char, (∀ kind, IsSegment kind last) → tail = other ++ '/' :: last →
        sibling.text.toList.length ≤ url.text.toList.length := by
  have slash : ∀ tail : List Char, (∀ c ∈ tail, isTailChar c = true) →
      ∀ c ∈ '/' :: tail, isTailChar c = true := fun tail plain =>
    List.forall_mem_cons.2 ⟨by decide, plain⟩
  have scheme := scheme_of_append read (slash tail plain) longer
  have good : base.isWeb = true := isWeb_of_scheme read (scheme ▸ scheme_of_isWeb web)
  by_cases marked : base.query ≠ none ∨ base.fragment ≠ none
  · -- Behind a mark both tails are put into the same part.
    obtain ⟨blanks, again⟩ := parse_append_of_marked read good marked
    rw [again _ (slash tail plain) (by simp), Except.ok.injEq] at longer
    subst longer
    have spec := fun more => followed_spec base more
    refine ⟨_, again _ (slash other others) (by simp), ?_, ?_, fun last _ same => ?_⟩
    · rw [(spec _).1, (spec _).1]
    · rw [(spec _).2.1, (spec _).2.1]
    · rw [length_followed marked, length_followed marked, same]
      simp only [List.length_append, List.length_cons]
      omega
  · rw [not_or, not_ne_iff, not_ne_iff] at marked
    -- Without marks both go on from the same stem.
    obtain ⟨port, authority, done, _, _, goes⟩ := exists_stem read good marked.1 marked.2
    rw [goes tail plain] at longer
    cases authority with
    | error reason => simp [Except.map] at longer
    | ok place =>
      rw [Except.map, Except.ok.injEq] at longer
      subst longer
      refine ⟨_, goes other others, rfl, rfl, fun last segment same => ?_⟩
      have path := length_continued_le (by simp) (segment (.network port)) done other
      rw [← same] at path
      simp only [Url.text, withoutFragment, resource, Option.elim_none, String.toList_ofList,
        List.length_append, List.length_cons, List.length_nil]
      omega

end MergeNotes.Url
