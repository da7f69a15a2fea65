import MergeNotes.Proofs.Text.Trim
import MergeNotes.Proofs.Url.Parse

/-! Texts of URLs with more behind them: the scheme and the authority are those that were read
before, and the path goes on where it was. -/

namespace MergeNotes.Url

variable {port : Nat} {base : Url}

/-- The characters of a tail: those of escaped names, and slashes between them. -/
def isTailChar (c : Char) : Bool :=
  Percent.isUnreserved c || c == '%' || c == '/'

theorem isTailChar_spec {c : Char} (plain : isTailChar c = true) :
    isGraphic c = true ∧ c ≠ '?' ∧ c ≠ '#' ∧ isQueryChar c = true ∧ isFragmentChar c = true := by
  have ascii : c.toNat < 128 := by
    simp only [isTailChar, Bool.or_eq_true, beq_iff_eq] at plain
    rcases plain with (known | rfl) | rfl
    · -- Letters, digits and the unreserved signs are ASCII, and so are the two others.
      exact Percent.ascii_of_isUnreserved known
    all_goals decide
  revert plain
  exact @forall_ascii (fun c => isTailChar c = true → isGraphic c = true ∧ c ≠ '?' ∧ c ≠ '#' ∧
    isQueryChar c = true ∧ isFragmentChar c = true) (by decide +kernel) c ascii

/-- A scheme that is split off is split off whatever follows. -/
theorem splitScheme?_append {text scheme rest : List Char} (more : List Char)
    (split : splitScheme? text = some (scheme, rest)) :
    splitScheme? (text ++ more) = some (scheme, rest ++ more) := by
  unfold splitScheme? at split ⊢
  dsimp only at split ⊢
  -- The scheme ends at the first character that is none of one, if there is one.
  rcases all_or_stop (fun c => Percent.isAlphanumeric c || c == '+' || c == '-' || c == '.' ||
    isGap c) text with all | ⟨before, c, after, rfl, all, stop⟩
  · rw [span_of_all all] at split
    split at split
    · rename_i same
      simp at same
    · simp at split
  · rw [span_of_stop all stop] at split
    rw [List.append_assoc, List.cons_append, span_of_stop all stop]
    split at split
    · rename_i first more' behind same
      simp only [Prod.mk.injEq, List.cons.injEq] at same
      obtain ⟨rfl, rfl, rfl⟩ := same
      split at split
      · rename_i letter
        simp only [Option.some.injEq, Prod.mk.injEq] at split
        obtain ⟨rfl, rfl⟩ := split
        simp [letter]
      · simp at split
    · simp at split

theorem splitScheme?_suffix {text scheme rest : List Char}
    (split : splitScheme? text = some (scheme, rest)) : rest <:+ text := by
  unfold splitScheme? at split
  dsimp only at split
  split at split
  · rename_i first named behind same
    split at split
    · simp only [Option.some.injEq, Prod.mk.injEq] at split
      rw [List.span_eq_takeWhile_dropWhile, Prod.mk.injEq] at same
      -- What is taken and what is left make up the text.
      have whole := List.takeWhile_append_dropWhile
        (p := fun c => Percent.isAlphanumeric c || c == '+' || c == '-' || c == '.' || isGap c)
        (l := text)
      rw [same.1, same.2, split.2] at whole
      exact ⟨first :: named ++ [':'], by rw [← whole]; simp⟩
    · simp at split
  · simp at split

/-- Whether a character is dropped from the ends of the text of a URL. -/
def isEdge (c : Char) : Bool :=
  c.toNat ≤ 0x20

theorem isEdge_spec {c : Char} (edge : isEdge c = true) :
    isSeparator (.network port) c = false ∧ c ≠ '?' ∧ c ≠ '#' := by
  have low : c.toNat ≤ 0x20 := by simpa [isEdge] using edge
  -- Each of these is above the blanks.
  have other : c ≠ '/' ∧ c ≠ '\\' ∧ c ≠ '?' ∧ c ≠ '#' := by
    refine ⟨?_, ?_, ?_, ?_⟩ <;> rintro rfl <;> revert low <;> decide
  exact ⟨by simp [isSeparator_network, endsPort, other], other.2.2⟩

/-- Behind a text of which something is significant, all of it is but what stands before. -/
theorem significant_append {text tail : List Char} (present : text.dropWhile isEdge ≠ [])
    (closing : ∀ c ∈ tail.getLast?, isEdge c = false) (more : tail ≠ []) :
    significant (String.ofList (text ++ tail)) = text.dropWhile isEdge ++ tail := by
  obtain ⟨front, last, rfl⟩ : ∃ front last, tail = front ++ [last] :=
    ⟨_, _, (List.dropLast_concat_getLast more).symm⟩
  have kept : isEdge last = false := closing last List.getLast?_concat
  unfold significant
  rw [String.toList_ofList]
  change dropWhileEnd isEdge ((text ++ (front ++ [last])).dropWhile isEdge) = _
  -- In front the same is dropped, and behind nothing, since the last character is kept.
  rw [dropWhile_append_of_ne_nil present, ← List.append_assoc, dropWhileEnd_concat kept]

/-- A text without a mark behind it goes to the last part. -/
theorem splitMark_append {mark : Char} {tail : List Char} (absent : mark ∉ tail)
    (text : List Char) :
    splitMark mark (text ++ tail) =
      match splitMark mark text with
      | (before, none) => (before ++ tail, none)
      | (before, some after) => (before, some (after ++ tail)) := by
  rcases all_or_stop (· != mark) text with all | ⟨before, c, after, rfl, all, stop⟩
  · -- Without a mark in either there is none in both together.
    have first : mark ∉ text := fun member => by simpa using all mark member
    have second : mark ∉ text ++ tail := fun member =>
      (List.mem_append.1 member).elim first absent
    rw [splitMark_of_not_mem first, splitMark_of_not_mem second]
  · -- The first mark is the same one with the tail behind it.
    have same : c = mark := by simpa using stop
    subst same
    have first : c ∉ before := fun member => by simpa using all c member
    rw [List.append_assoc, List.cons_append, splitMark_of_first first, splitMark_of_first first]

/-- The parts of a text with a tail behind it are its own, but for the last one. -/
theorem splitMarks_append {tail : List Char} (plain : ∀ c ∈ tail, c ≠ '?' ∧ c ≠ '#')
    (text : List Char) :
    splitMarks (text ++ tail) =
      match splitMarks text with
      | (body, query, some fragment) => (body, query, some (fragment ++ tail))
      | (body, some query, none) => (body, some (query ++ tail), none)
      | (body, none, none) => (body ++ tail, none, none) := by
  -- The fragment is looked for first, and the query only in what is left.
  have asked : '?' ∉ tail := fun member => (plain _ member).1 rfl
  have placed : '#' ∉ tail := fun member => (plain _ member).2 rfl
  rw [splitMarks, splitMarks, splitMark_append placed]
  cases splitMark '#' text with
  | mk front fragment =>
    cases fragment with
    | some fragment => rfl
    | none =>
      dsimp only
      rw [splitMark_append asked]
      cases splitMark '?' front with
      | mk body query => cases query <;> rfl

/-- Slashes in front matter no more once there is something behind them. -/
theorem behindSlashes_append {kind : Kind} {body : List Char}
    (present : behindSlashes kind body ≠ []) (more : List Char) :
    behindSlashes kind (body ++ more) = behindSlashes kind body ++ withoutGaps more := by
  unfold behindSlashes at present ⊢
  rw [withoutGaps, List.filter_append]
  exact dropWhile_append_of_ne_nil present

theorem readAuthority_nil (kind : Kind) (authority : Authority) :
    readAuthority kind [] ≠ .ok authority := by
  simp [readAuthority, splitCredentials, splitHost, parseDomain_nil, bind, Except.bind]

/-- What is read of a text stands in it, ahead of what was at its edge. -/
theorem exists_edges {text : String} {scheme rest : List Char}
    (split : splitScheme? (significant text) = some (scheme, rest)) :
    ∃ front edges, text.toList = front ++ rest ++ edges ∧ (∀ c ∈ edges, isEdge c = true) ∧
      (∀ c ∈ rest.getLast?, isEdge c = false) ∧
      ∀ tail : List Char, tail ≠ [] → (∀ c ∈ tail.getLast?, isEdge c = false) →
        splitScheme? (significant (String.ofList (text.toList ++ tail))) =
          some (scheme, rest ++ (edges ++ tail)) := by
  obtain ⟨edges, whole, edge⟩ := dropWhileEnd_append isEdge (text.toList.dropWhile isEdge)
  change text.toList.dropWhile isEdge = significant text ++ edges at whole
  have present : text.toList.dropWhile isEdge ≠ [] := by
    intro empty
    -- Where nothing is significant no scheme is split off.
    have nothing : significant text = [] := by
      rw [empty] at whole
      exact (List.append_eq_nil_iff.1 whole.symm).1
    rw [nothing] at split
    simp [splitScheme?] at split
  obtain ⟨named, behind⟩ := splitScheme?_suffix split
  refine ⟨text.toList.takeWhile isEdge ++ named, edges, ?_, edge, ?_, ?_⟩
  · rw [List.append_assoc _ named, behind, List.append_assoc, ← whole,
      List.takeWhile_append_dropWhile]
  · intro c last
    -- What is behind the scheme ends as the significant text does, and so in no blank.
    have final : (significant text).getLast? = some c := by
      rw [← behind]
      exact getLast?_append_of_getLast? last
    exact not_of_getLast?_dropWhileEnd final
  · intro tail more closing
    rw [significant_append present closing more, whole, List.append_assoc]
    exact splitScheme?_append _ split

/-- Where the path of a URL goes on when its text does: what is behind its host is read with
more at its end, and so is the last segment. -/
inductive Stem (port : Nat) (text : List Char) (base : Url) :
    Except Error Authority → List (List Char) → Prop where
  | host {front name edges : List Char} {authority : Authority}
      (whole : withoutGaps text = front ++ name ++ edges) (present : name ≠ [])
      (inside : ∀ c ∈ name, isSeparator (.network port) c = false)
      (closing : ∀ c ∈ name.getLast?, isEdge c = false) (edge : ∀ c ∈ edges, isEdge c = true)
      (read : readAuthority (.network port) name = .ok authority)
      (named : base.authority = some authority) (bare : base.path = .rooted [[]]) :
      Stem port text base (readAuthority (.network port) (name ++ edges)) []
  | path {front path edges : List Char} {c : Char} {authority : Authority}
      (whole : withoutGaps text = front ++ c :: path ++ edges)
      (separates : isSeparator (.network port) c = true)
      (closing : ∀ c ∈ path.getLast?, isEdge c = false) (edge : ∀ c ∈ edges, isEdge c = true)
      (named : base.authority = some authority)
      (led : base.path = .rooted (pathOf (.network port) path)) :
      Stem port text base (.ok authority) (closed (.network port) (path ++ edges))

/-- Neither a slash nor what stands in a tail is a gap. -/
theorem withoutGaps_tail {tail : List Char} (plain : ∀ c ∈ tail, isTailChar c = true) :
    withoutGaps ('/' :: tail) = '/' :: tail :=
  withoutGaps_of_graphic <| List.forall_mem_cons.2
    ⟨by decide, fun c member => (isTailChar_spec (plain c member)).1⟩

/-- The last character of a tail is not dropped. -/
theorem closing_tail {tail : List Char} (plain : ∀ c ∈ tail, isTailChar c = true) :
    ∀ c ∈ tail.getLast?, isEdge c = false := by
  intro c last
  -- What stands in a tail is graphic, which no blank is.
  have bounds := isGraphic_iff.1 (isTailChar_spec (plain c (List.mem_of_getLast? last))).1
  simp only [isEdge, decide_eq_false_iff_not]
  omega

/-- Neither what was at the edge nor what is put behind it holds a mark. -/
theorem not_mark_of_mem {edges tail : List Char} (edge : ∀ c ∈ edges, isEdge c = true)
    (plain : ∀ c ∈ tail, isTailChar c = true) : ∀ c ∈ edges ++ tail, c ≠ '?' ∧ c ≠ '#' := by
  intro c member
  rcases List.mem_append.1 member with early | late
  · exact (@isEdge_spec 0 c (edge c early)).2
  · exact ⟨(isTailChar_spec (plain c late)).2.1, (isTailChar_spec (plain c late)).2.2.1⟩

/-- A text that ends in no edge still does without its gaps. -/
theorem not_edge_of_getLast?_withoutGaps {text : List Char}
    (closing : ∀ c ∈ text.getLast?, isEdge c = false) {c : Char}
    (last : (withoutGaps text).getLast? = some c) : isEdge c = false := by
  rcases List.eq_nil_or_concat text with rfl | ⟨front, final, rfl⟩
  · simp [withoutGaps] at last
  · rw [List.concat_eq_append] at closing last
    have kept := closing final List.getLast?_concat
    have gap : isGap final = false := by
      rw [Bool.eq_false_iff]
      intro gap
      simp only [isGap, Bool.or_eq_true, beq_iff_eq] at gap
      -- Every gap is a blank.
      rcases gap with (rfl | rfl) | rfl <;> simp [isEdge] at kept
    rw [withoutGaps, List.filter_append, List.filter_cons_of_pos (by simp [gap]), List.filter_nil,
      List.getLast?_concat, Option.some.injEq] at last
    exact last ▸ kept

/-- What is assembled from a text without marks has a stem, from which it goes on when the text
does. -/
theorem exists_stem_of_assemble {text scheme front body edges : List Char}
    (read : assemble scheme port body none none = .ok base) (whole : text = front ++ body ++ edges)
    (edge : ∀ c ∈ edges, isEdge c = true) (closing : ∀ c ∈ body.getLast?, isEdge c = false) :
    ∃ authority done, Stem port text base authority done ∧
      ∀ tail : List Char, (∀ c ∈ tail, isTailChar c = true) →
        assemble scheme port (body ++ (edges ++ '/' :: tail)) none none =
          authority.map fun authority =>
            ⟨scheme, some authority, .rooted (continued (.network port) done tail), none,
              none⟩ := by
  have dense : ∀ c ∈ withoutGaps edges, isEdge c = true := fun c member =>
    edge c (List.mem_filter.1 member).1
  -- The body is slashes, then what the authority and the path are read of.
  obtain ⟨slashes, split⟩ : ∃ slashes, withoutGaps body =
      slashes ++ behindSlashes (.network port) body :=
    ⟨_, (List.takeWhile_append_dropWhile).symm⟩
  have placed : withoutGaps text = (withoutGaps front ++ slashes) ++
      behindSlashes (.network port) body ++ withoutGaps edges := by
    rw [whole, withoutGaps, List.filter_append, List.filter_append, ← withoutGaps, ← withoutGaps,
      ← withoutGaps, split]
    simp only [List.append_assoc]
  -- There is something behind them, or there would be no authority.
  have present : behindSlashes (.network port) body ≠ [] := by
    intro empty
    simp only [assemble, empty, List.takeWhile_nil] at read
    cases nothing : readAuthority (.network port) [] with
    | error => simp [nothing, Except.map] at read
    | ok authority => exact readAuthority_nil _ _ nothing
  -- The tail is put behind the slashes, and its slash ends the authority at the latest.
  have behind : ∀ tail : List Char, (∀ c ∈ tail, isTailChar c = true) →
      behindSlashes (.network port) (body ++ (edges ++ '/' :: tail)) =
        behindSlashes (.network port) body ++ (withoutGaps edges ++ '/' :: tail) := by
    intro tail plain
    rw [behindSlashes_append present, withoutGaps, List.filter_append, ← withoutGaps,
      ← withoutGaps, withoutGaps_tail plain]
  -- The body ends in no blank, gaps aside, since it did not with them.
  have final : ∀ c ∈ (behindSlashes (.network port) body).getLast?, isEdge c = false := by
    intro c last
    have same := @getLast?_append_of_getLast? Char slashes _ c last
    rw [← split] at same
    exact not_edge_of_getLast?_withoutGaps closing same
  unfold assemble at read ⊢
  dsimp only at read ⊢
  generalize withoutGaps edges = blanks at dense placed behind
  generalize behindSlashes (.network port) body = name at read split placed present behind final
  have slash : isSeparator (.network port) '/' = true := by simp [isSeparator]
  rcases all_or_stop (!isSeparator (.network port) ·) name with
    all | ⟨host, c, path, rfl, all, stop⟩
  · -- The text ends in the authority, which is read with the blanks behind it.
    have inside : ∀ c ∈ name, isSeparator (.network port) c = false := fun c member => by
      simpa using all c member
    have apart : ∀ c ∈ name ++ blanks, (!isSeparator (.network port) c) = true := by
      intro c member
      rcases List.mem_append.1 member with early | late
      · exact all c early
      · simp [(isEdge_spec (dense c late)).1]
    rw [List.takeWhile_eq_self_iff.2 all, List.dropWhile_eq_nil_iff.2 all] at read
    cases known : readAuthority (.network port) name with
    | error => simp [known, Except.map] at read
    | ok authority =>
      rw [known, Except.map, Except.ok.injEq] at read
      refine ⟨_, _, .host placed present inside final dense known (by rw [← read])
        (by rw [← read]; rfl), fun tail plain => ?_⟩
      rw [behind tail plain, ← List.append_assoc, List.takeWhile_append_of_pos apart,
        List.dropWhile_append_of_pos apart, List.takeWhile_cons_of_neg (by simp [slash]),
        List.dropWhile_cons_of_neg (by simp [slash]), List.append_nil, pathBehindHost, if_pos slash]
      rfl
  · -- The authority is complete, and the path goes on.
    have separates : isSeparator (.network port) c = true := by simpa using stop
    rw [List.takeWhile_append_of_pos all, List.dropWhile_append_of_pos all,
      List.takeWhile_cons_of_neg (by simp [separates]),
      List.dropWhile_cons_of_neg (by simp [separates]), List.append_nil] at read
    cases known : readAuthority (.network port) host with
    | error => simp [known, Except.map] at read
    | ok authority =>
      rw [known, Except.map, Except.ok.injEq] at read
      refine ⟨_, _, @Stem.path port text base (withoutGaps front ++ slashes ++ host) path blanks c
        authority ?_ separates ?_ dense (by rw [← read]) ?_, fun tail plain => ?_⟩
      · rw [placed]
        simp only [List.append_assoc, List.cons_append]
      · exact fun x last => final x (getLast?_append_of_getLast?
          (by simp [List.getLast?_cons, Option.mem_def.1 last]))
      · rw [← read]
        simp [pathBehindHost, separates]
      · rw [behind tail plain, List.append_assoc, List.takeWhile_append_of_pos all,
          List.dropWhile_append_of_pos all, List.cons_append,
          List.takeWhile_cons_of_neg (by simp [separates]),
          List.dropWhile_cons_of_neg (by simp [separates]), List.append_nil, known, pathBehindHost,
          if_pos separates, ← List.append_assoc, pathOf_append (by simp) _ slash]
        rfl

/-- The marks of what is assembled are those of the text. -/
theorem marks_of_assemble {scheme body : List Char} {query fragment : Option (List Char)}
    (read : assemble scheme port body query fragment = .ok base) :
    base.query = query.map (fun text => encodeQuery (.network port) (withoutGaps text)) ∧
      base.fragment = fragment.map fun text => encodeFragment (withoutGaps text) := by
  unfold assemble at read
  dsimp only at read
  cases known : readAuthority (.network port) ((behindSlashes (.network port) body).takeWhile
      (!isSeparator (.network port) ·)) with
  | error => simp [known, Except.map] at read
  | ok authority =>
    rw [known, Except.map, Except.ok.injEq] at read
    rw [← read]
    exact ⟨rfl, rfl⟩

/-- With other marks, only these are others. -/
theorem assemble_marks {scheme body : List Char} {query fragment : Option (List Char)}
    (read : assemble scheme port body query fragment = .ok base)
    (otherQuery otherFragment : Option (List Char)) :
    assemble scheme port body otherQuery otherFragment =
      .ok { base with
        query := otherQuery.map fun text => encodeQuery (.network port) (withoutGaps text)
        fragment := otherFragment.map fun text => encodeFragment (withoutGaps text) } := by
  unfold assemble at read ⊢
  dsimp only at read ⊢
  cases known : readAuthority (.network port) ((behindSlashes (.network port) body).takeWhile
      (!isSeparator (.network port) ·)) with
  | error => simp [known, Except.map] at read
  | ok authority =>
    rw [known, Except.map, Except.ok.injEq] at read
    rw [← read]
    rfl

/-- A text in which no mark is found is all there is before the marks. -/
theorem splitMark_eq_none {mark : Char} {text before : List Char}
    (split : splitMark mark text = (before, none)) : before = text := by
  rcases all_or_stop (· != mark) text with all | ⟨front, c, after, rfl, all, stop⟩
  · -- The search went through the whole text.
    have absent : mark ∉ text := fun member => by simpa using all mark member
    rw [splitMark_of_not_mem absent, Prod.mk.injEq] at split
    exact split.1.symm
  · have same : c = mark := by simpa using stop
    subst same
    have first : c ∉ front := fun member => by simpa using all c member
    rw [splitMark_of_first first] at split
    simp at split

theorem splitMarks_eq_none {text : List Char} (query : (splitMarks text).2.1 = none)
    (fragment : (splitMarks text).2.2 = none) : splitMarks text = (text, none, none) := by
  unfold splitMarks at query fragment ⊢
  cases first : splitMark '#' text with
  | mk front placed =>
    rw [first] at query fragment
    dsimp only at query fragment
    -- No fragment was split off, and then no query either.
    subst fragment
    cases second : splitMark '?' front with
    | mk body asked =>
      rw [second] at query
      dsimp only at query
      subst query
      dsimp only
      rw [second, splitMark_eq_none second, splitMark_eq_none first]

/-- A URL of the web without a query and a fragment has a stem, from which its path goes on when
its text does. -/
theorem exists_stem {text : String} (read : parse text = .ok base) (web : base.isWeb = true)
    (unasked : base.query = none) (unplaced : base.fragment = none) :
    ∃ port authority done, kindOf base.scheme = .network port ∧
      Stem port text.toList base authority done ∧
      ∀ tail : List Char, (∀ c ∈ tail, isTailChar c = true) →
        parse (String.ofList (text.toList ++ '/' :: tail)) =
          authority.map fun authority => ⟨base.scheme, some authority,
            .rooted (continued (.network port) done tail), none, none⟩ := by
  obtain ⟨rest, port, split, network, _, assembled⟩ :=
    exists_assemble_of_scheme read (scheme_of_isWeb web)
  obtain ⟨front, edges, whole, edge, closing, again⟩ := exists_edges split
  have marks := marks_of_assemble assembled
  -- A mark in the text would be one of the URL.
  have unmarked : splitMarks rest = (rest, none, none) := by
    rw [unasked, unplaced] at marks
    exact splitMarks_eq_none (Option.map_eq_none_iff.1 marks.1.symm)
      (Option.map_eq_none_iff.1 marks.2.symm)
  rw [unmarked] at assembled
  obtain ⟨authority, done, stem, goes⟩ := exists_stem_of_assemble assembled whole edge closing
  refine ⟨port, authority, done, network, stem, fun tail plain => ?_⟩
  have slash : ∀ c ∈ '/' :: tail, isTailChar c = true :=
    List.forall_mem_cons.2 ⟨by decide, plain⟩
  rw [parse_eq (again _ (by simp) (closing_tail slash)) network,
    splitMarks_append (not_mark_of_mem edge slash), unmarked]
  exact goes tail plain

/-- A URL with more text in its fragment, or else in its query. -/
def followed (url : Url) (more : List Char) : Url :=
  match url.fragment with
  | some fragment => { url with fragment := some (fragment ++ more) }
  | none => { url with query := url.query.map (· ++ more) }

/-- More text behind a query or a fragment changes neither what it is about nor that it is there. -/
theorem followed_spec (url : Url) (more : List Char) :
    (url.followed more).scheme = url.scheme ∧ (url.followed more).authority = url.authority ∧
      (url.followed more).path = url.path ∧
      (url.query ≠ none ∨ url.fragment ≠ none →
        (url.followed more).query ≠ none ∨ (url.followed more).fragment ≠ none) := by
  unfold followed
  split
  · exact ⟨rfl, rfl, rfl, fun _ => .inr (by simp)⟩
  · rename_i unplaced
    -- Without a fragment it is the query that is there, and goes on being there.
    refine ⟨rfl, rfl, rfl, fun marked => .inl ?_⟩
    simpa [unplaced] using marked

theorem encode_withoutGaps_append {keep : Char → Bool} (text edges : List Char) {tail : List Char}
    (plain : ∀ c ∈ tail, isTailChar c = true) (kept : ∀ c ∈ tail, keep c = true) :
    Percent.encode keep (withoutGaps (text ++ (edges ++ tail))) =
      Percent.encode keep (withoutGaps text) ++
        (Percent.encode keep (withoutGaps edges) ++ tail) := by
  -- There is nothing in the tail to drop or to escape.
  have dense : withoutGaps tail = tail :=
    withoutGaps_of_graphic fun c member => (isTailChar_spec (plain c member)).1
  rw [withoutGaps, List.filter_append, List.filter_append, ← withoutGaps, ← withoutGaps,
    ← withoutGaps, dense, Percent.encode_append, Percent.encode_append,
    Percent.encode_of_kept kept]

theorem encodeFragment_append (text edges : List Char) {tail : List Char}
    (plain : ∀ c ∈ tail, isTailChar c = true) :
    encodeFragment (withoutGaps (text ++ (edges ++ tail))) =
      encodeFragment (withoutGaps text) ++ (encodeFragment (withoutGaps edges) ++ tail) :=
  encode_withoutGaps_append text edges plain fun c member =>
    (isTailChar_spec (plain c member)).2.2.2.2

theorem encodeQuery_append (text edges : List Char) {tail : List Char}
    (plain : ∀ c ∈ tail, isTailChar c = true) :
    encodeQuery (.network port) (withoutGaps (text ++ (edges ++ tail))) =
      encodeQuery (.network port) (withoutGaps text) ++
        (encodeQuery (.network port) (withoutGaps edges) ++ tail) :=
  encode_withoutGaps_append text edges plain fun c member =>
    (isTailChar_spec (plain c member)).2.2.2.1

/-- Behind a URL of the web with a query or a fragment, text gets into the last of them, behind
what was at the edge. -/
theorem parse_append_of_marked {text : String} (read : parse text = .ok base)
    (web : base.isWeb = true) (marked : base.query ≠ none ∨ base.fragment ≠ none) :
    ∃ blanks, ∀ tail : List Char, (∀ c ∈ tail, isTailChar c = true) → tail ≠ [] →
      parse (String.ofList (text.toList ++ tail)) = .ok (base.followed (blanks ++ tail)) := by
  obtain ⟨rest, port, split, network, _, assembled⟩ :=
    exists_assemble_of_scheme read (scheme_of_isWeb web)
  obtain ⟨front, edges, whole, edge, closing, again⟩ := exists_edges split
  obtain ⟨asked, placed⟩ := marks_of_assemble assembled
  have longer : ∀ tail : List Char, (∀ c ∈ tail, isTailChar c = true) → tail ≠ [] →
      parse (String.ofList (text.toList ++ tail)) = assemble base.scheme port
        (splitMarks (rest ++ (edges ++ tail))).1 (splitMarks (rest ++ (edges ++ tail))).2.1
        (splitMarks (rest ++ (edges ++ tail))).2.2 := fun tail plain present =>
    parse_eq (again tail present (closing_tail plain)) network
  -- The parts before the last one are those that were read before.
  have parts := fun tail plain => splitMarks_append (@not_mark_of_mem edges tail edge plain) rest
  generalize splitMarks rest = marks at assembled asked placed parts
  obtain ⟨body, query, fragment⟩ := marks
  cases fragment with
  | some fragment =>
    refine ⟨encodeFragment (withoutGaps edges), fun tail plain present => ?_⟩
    rw [longer tail plain present, parts tail plain]
    dsimp only
    rw [assemble_marks assembled, followed, placed, Option.map_some, Option.map_some,
      encodeFragment_append _ _ plain, ← asked]
  | none =>
    cases query with
    | some query =>
      refine ⟨encodeQuery (.network port) (withoutGaps edges), fun tail plain present => ?_⟩
      rw [longer tail plain present, parts tail plain]
      dsimp only
      rw [assemble_marks assembled, followed, placed, asked, Option.map_none, Option.map_some,
        Option.map_some, encodeQuery_append _ _ plain]
      rfl
    | none => simp [asked, placed] at marked

/-- A URL has the scheme of any URL that its text begins with. -/
theorem scheme_of_append {text : String} {url : Url} {tail : List Char}
    (read : parse text = .ok base) (plain : ∀ c ∈ tail, isTailChar c = true)
    (longer : parse (String.ofList (text.toList ++ tail)) = .ok url) :
    url.scheme = base.scheme := by
  -- With nothing behind it the URL is the same one.
  by_cases empty : tail = []
  · rw [empty, List.append_nil, String.ofList_toList, read, Except.ok.injEq] at longer
    rw [longer]
  · obtain ⟨rest, split⟩ := exists_splitScheme?_of_parse read
    obtain ⟨_, edges, _, _, _, again⟩ := exists_edges split
    obtain ⟨behind, found⟩ := exists_splitScheme?_of_parse longer
    rw [again tail empty (closing_tail plain), Option.some.injEq, Prod.mk.injEq] at found
    exact found.1.symm

end MergeNotes.Url
