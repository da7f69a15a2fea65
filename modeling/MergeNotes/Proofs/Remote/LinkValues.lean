import MergeNotes.Proofs.LinkHeader
import MergeNotes.Proofs.Remote.Pages
import MergeNotes.Proofs.Text.Plain
import MergeNotes.Proofs.Text.Trim

/-! Entries for link headers as servers write them, with any parameters, and the values that they
are put into: each entry is read by itself, but those that stand behind the first value are not. -/

namespace MergeNotes

open LinkHeader (WrittenEntry)

/-- Printable ASCII, the space and the tab. -/
def isPlainChar (c : Char) : Bool :=
  c == '\t' || (0x20 ≤ c.toNat && c.toNat ≤ 0x7E)

theorem ascii_of_isPlainChar {c : Char} (plain : isPlainChar c = true) : c.toNat < 128 := by
  simp only [isPlainChar, Bool.or_eq_true, beq_iff_eq, Bool.and_eq_true,
    decide_eq_true_eq] at plain
  rcases plain with rfl | ⟨_, small⟩
  · decide
  · omega

/-- Beyond ASCII not even the first byte of a character is plain. -/
theorem isPlainHeader_encodeChar (c : Char) :
    isPlainHeader (Utf8.encodeChar c) = isPlainChar c := by
  by_cases ascii : c.toNat < 128
  · exact @forall_ascii (fun c => isPlainHeader (Utf8.encodeChar c) = isPlainChar c)
      (by decide +kernel) c ascii
  · have other : isPlainChar c = false :=
      Bool.eq_false_iff.2 fun plain => ascii (ascii_of_isPlainChar plain)
    cases bytes : Utf8.encodeChar c with
    | nil => exact absurd bytes (Utf8.encodeChar_ne_nil c)
    | cons byte rest =>
      have large : ¬ byte < 0x80 := fun small => ascii (Utf8.ascii_of_encodeChar bytes small)
      rw [other, isPlainHeader, List.all_cons, Bool.and_eq_false_iff]
      left
      simp only [UInt8.lt_iff_toNat_lt, Bool.or_eq_false_iff, beq_eq_false_iff_ne,
        Bool.and_eq_false_iff, decide_eq_false_iff_not, UInt8.le_iff_toNat_le] at large ⊢
      have limit : (0x80 : UInt8).toNat = 128 := rfl
      have last : (0x7E : UInt8).toNat = 126 := rfl
      constructor
      · intro tab
        subst tab
        exact large (by decide)
      · omega

/-- A text is plain in bytes exactly if it is in characters. -/
theorem isPlainHeader_encode (text : List Char) :
    isPlainHeader (Utf8.encode text) = text.all isPlainChar := by
  induction text with
  | nil => rfl
  | cons c text ih =>
    rw [Utf8.encode_cons, List.all_cons, ← isPlainHeader_encodeChar c, ← ih]
    exact List.all_append

/-- The bytes of a plain text are its characters. -/
theorem map_encode_of_plain {text : List Char} (plain : text.all isPlainChar = true) :
    (Utf8.encode text).map (fun byte => Char.ofNat byte.toNat) = text := by
  induction text with
  | nil => rfl
  | cons c text ih =>
    rw [List.all_cons, Bool.and_eq_true] at plain
    have ascii := ascii_of_isPlainChar plain.1
    rw [Utf8.encode_cons, Utf8.encodeChar_of_ascii ascii, List.singleton_append, List.map_cons,
      ih plain.2, Utf8.toNat_toUInt8 (by omega), Char.ofNat_toNat]

namespace LinkHeader

/-- What is dropped at the ends of a header value. -/
def isPadding (c : Char) : Bool :=
  c == ' ' || c == '\t'

/-- An entry for a link header: a target in brackets, and parameters behind it. A relation that the
parameters begin with is closed. There are no further opening brackets in an entry, and no padding
at its end. -/
structure LinkEntry where
  target : List Char
  parameters : List Char
  target_opens : '<' ∉ target
  target_closes : '>' ∉ target
  parameters_opens : '<' ∉ parameters
  closed :
    (after? "rel=\"".toList (parameters.tail.dropWhile isBlank)).all ('"' ∈ ·) = true
  ended : ∀ last, parameters.getLast? = some last → isPadding last = false

namespace LinkEntry

variable (entry : LinkEntry)

/-- What is written of an entry behind its opening bracket. -/
def behindBracket : List Char :=
  entry.target ++ '>' :: entry.parameters

/-- The text of an entry. -/
def text : List Char :=
  '<' :: entry.behindBracket

/-- What is read of an entry that stands alone, if its first parameter is a relation. -/
def read? : Option Entry :=
  entry? entry.behindBracket |>.map (·.1)

/-- Whether an entry is written in plain ASCII. -/
def isPlain : Bool :=
  entry.text.all isPlainChar

/-- Whether an entry is read as one for the next page. -/
def isNext : Bool :=
  entry.read?.any (·.relation == "next".toList)

theorem not_mem_behindBracket : '<' ∉ entry.behindBracket := by
  rw [behindBracket, List.mem_append, List.mem_cons, not_or, not_or]
  exact ⟨entry.target_opens, by decide, entry.parameters_opens⟩

/-- The text of an entry does not end in padding. -/
theorem exists_last : ∃ front last, entry.text = front ++ [last] ∧ isPadding last = false := by
  rcases List.eq_nil_or_concat entry.parameters with none_given | ⟨front, last, given⟩
  · refine ⟨'<' :: entry.target, '>', ?_, rfl⟩
    rw [text, behindBracket, none_given]
    rfl
  · refine ⟨'<' :: (entry.target ++ '>' :: front), last, ?_, entry.ended last ?_⟩
    · rw [text, behindBracket, given]
      simp
    · rw [given, List.concat_eq_append]
      exact List.getLast?_concat

/-- What may follow an entry: nothing, or a comma. -/
def Separates (rest : List Char) : Prop :=
  ∀ c, rest.head? = some c → c = ','

/-- What holds no comma, and stands at the beginning of a text that may be followed, stands at the
beginning of what is in front. -/
theorem Separates.exists_of_append {front before behind rest : List Char}
    (separates : Separates rest) (clear : ',' ∉ front) (split : before ++ rest = front ++ behind) :
    ∃ more, before = front ++ more ∧ more ++ rest = behind := by
  rcases List.append_eq_append_iff.1 split with ⟨cut, whole, left⟩ | ⟨more, whole, left⟩
  · cases cut with
    | nil =>
      rw [List.append_nil] at whole
      exact ⟨[], by rw [whole, List.append_nil], left⟩
    | cons c cut =>
      have comma : c = ',' := separates c (by rw [left]; rfl)
      rw [whole, comma] at clear
      exact absurd (List.mem_append_right _ List.mem_cons_self) clear
  · exact ⟨more, whole, left.symm⟩

/-- If an entry is read from a text at whose beginning one stands, all that is read of it stands in
that one. -/
theorem exists_of_behindBracket_append {entry : LinkEntry} {written : WrittenEntry}
    {rest left : List Char} (separates : Separates rest)
    (whole : entry.behindBracket ++ rest = written.behindBracket ++ left) :
    ∃ inner, entry.behindBracket = written.behindBracket ++ inner := by
  -- The targets end at the first closing bracket, and the parameters follow.
  rw [behindBracket, WrittenEntry.behindBracket, List.append_assoc, List.append_assoc,
    List.cons_append, List.cons_append] at whole
  obtain ⟨target, parameters⟩ := eq_of_first entry.target_closes written.url_clear whole
  have split : entry.parameters ++ rest = (';' :: (written.blanks ++ "rel=\"".toList)) ++
      (written.relation ++ '"' :: left) := by
    rw [parameters]
    simp
  have name : ',' ∉ ';' :: (written.blanks ++ "rel=\"".toList) := by
    simp only [List.mem_cons, List.mem_append, not_or]
    refine ⟨by decide, fun member => ?_, by decide⟩
    exact absurd (written.blank ',' member) (by decide)
  -- The name of the relation stands within the parameters, and so does the mark that closes it.
  obtain ⟨more, given, behind⟩ := separates.exists_of_append name split
  have found : after? "rel=\"".toList (entry.parameters.tail.dropWhile isBlank) = some more := by
    rw [given, List.cons_append, List.tail_cons, List.append_assoc,
      List.dropWhile_append_of_pos written.blank]
    exact after?_eq_some_iff.2 (List.dropWhile_cons_of_neg (by decide))
  have closes : '"' ∈ more := by
    have closed := entry.closed
    rw [found] at closed
    exact of_decide_eq_true closed
  obtain ⟨front, inner, marked, first⟩ := List.eq_append_cons_of_mem closes
  rw [marked, List.append_assoc, List.cons_append] at behind
  obtain ⟨same, _⟩ := eq_of_first first written.relation_clear behind
  refine ⟨inner, ?_⟩
  rw [behindBracket, WrittenEntry.behindBracket, target, given, marked, same]
  simp

/-- An entry is read from a text as it is where it stands alone. -/
theorem entry?_append {rest : List Char} (separates : Separates rest) :
    entry? (entry.behindBracket ++ rest) =
      Option.map (fun found => (found.1, found.2 ++ rest)) ( entry? entry.behindBracket) := by
  cases alone : entry? entry.behindBracket with
  | none =>
    rw [Option.map_none, Option.eq_none_iff_forall_ne_some]
    intro found read
    obtain ⟨written, same, whole⟩ := entry?_eq_some_iff.1 read
    obtain ⟨inner, within⟩ := exists_of_behindBracket_append separates whole
    rw [entry?_eq_some_iff.2 ⟨written, same, within⟩] at alone
    cases alone
  | some found =>
    obtain ⟨written, same, whole⟩ := entry?_eq_some_iff.1 alone
    rw [Option.map_some]
    apply entry?_eq_some_iff.2
    exact ⟨written, same, by rw [whole, List.append_assoc]⟩

end LinkEntry

/-- Entries as one text, separated by commas. -/
def joined (entries : List LinkEntry) : List Char :=
  ", ".toList.intercalate (entries.map (·.text))

/-- The value of a link header with entries. -/
def valueOf (entries : List LinkEntry) : List UInt8 :=
  Utf8.encode (joined entries)

/-- A value announces a further page: it can be read, and there is an entry for it. -/
def Announces (entries : List LinkEntry) : Prop :=
  entries.all (·.isPlain) = true ∧ entries.any (·.isNext) = true

instance (entries : List LinkEntry) : Decidable (Announces entries) :=
  inferInstanceAs (Decidable (_ ∧ _))

/-- Entries behind others, each with a comma in front of it. -/
def following (entries : List LinkEntry) : List Char :=
  entries.flatMap fun entry => ", ".toList ++ entry.text

theorem separates_following (entries : List LinkEntry) :
    LinkEntry.Separates (following entries) := by
  intro c first
  cases entries with
  | nil => cases first
  | cons entry entries =>
    cases first
    rfl

/-- Behind the first entry stand the others. -/
theorem joined_cons (entry : LinkEntry) (entries : List LinkEntry) :
    joined (entry :: entries) = entry.text ++ following entries := by
  induction entries generalizing entry with
  | nil =>
    rw [joined, List.map_singleton, List.intercalate_singleton, following, List.flatMap_nil,
      List.append_nil]
  | cons next entries ih =>
    have others : joined (next :: entries) =
        ", ".toList.intercalate (next.text :: entries.map (·.text)) := rfl
    have behind : following (next :: entries) =
        (", ".toList ++ next.text) ++ following entries := List.flatMap_cons
    rw [joined, List.map_cons, List.map_cons, List.intercalate_cons_cons, ← others, ih, behind,
      List.append_assoc, List.append_assoc]

/-- Entries that follow others are found in order. -/
theorem entriesWithin_following {front : List Char} (written : List LinkEntry)
    (clear : '<' ∉ front) {fuel : Nat} (enough : (front ++ following written).length < fuel) :
    entriesWithin fuel (front ++ following written) = written.filterMap (·.read?) := by
  induction written generalizing front fuel with
  | nil =>
    rw [following, List.flatMap_nil] at enough ⊢
    rw [List.length_append] at enough
    obtain ⟨fuel, rfl⟩ := Nat.exists_eq_add_of_le (show front.length ≤ fuel by omega)
    rw [entriesWithin_append clear]
    cases fuel <;> rfl
  | cons entry written ih =>
    have split : front ++ following (entry :: written) =
        (front ++ ", ".toList) ++ '<' :: (entry.behindBracket ++ following written) := by
      rw [following, List.flatMap_cons, List.append_assoc, ← List.append_assoc]
      rfl
    have clear : '<' ∉ front ++ ", ".toList := by
      rw [List.mem_append, not_or]
      exact ⟨clear, by decide⟩
    rw [split] at enough ⊢
    rw [List.length_append, List.length_cons] at enough
    obtain ⟨fuel, rfl⟩ :=
      Nat.exists_eq_add_of_le (show (front ++ ", ".toList).length + 1 ≤ fuel by omega)
    rw [Nat.add_assoc, entriesWithin_append clear, Nat.add_comm 1, entriesWithin, if_pos rfl,
      entry.entry?_append (separates_following written), List.filterMap_cons, LinkEntry.read?]
    cases alone : entry? entry.behindBracket with
    | none => exact ih entry.not_mem_behindBracket (by omega)
    | some found =>
      -- What is left of the entry behind its relation holds no bracket either.
      obtain ⟨read, _, whole⟩ := entry?_eq_some_iff.1 alone
      have clear : '<' ∉ found.2 := by
        intro member
        apply entry.not_mem_behindBracket
        rw [whole]
        exact List.mem_append_right _ member
      apply congrArg (found.1 :: ·)
      apply ih clear
      rw [whole] at enough
      simp only [List.length_append] at enough ⊢
      omega

/-- What is found in joined entries is what each of them is read as. -/
theorem entries_joined (written : List LinkEntry) :
    entries (String.ofList (joined written)) = written.filterMap (·.read?) := by
  rw [entries, String.toList_ofList]
  cases written with
  | nil => rfl
  | cons entry written =>
    have split : following (entry :: written) = ", ".toList ++ joined (entry :: written) := by
      rw [joined_cons, following, List.flatMap_cons, List.append_assoc]
      rfl
    have found := entriesWithin_following (entry :: written) List.not_mem_nil (Nat.lt_succ_self _)
    rw [List.nil_append, split, List.length_append, Nat.succ_eq_add_one, Nat.add_assoc,
      entriesWithin_append (by decide)] at found
    exact found

/-- The page that entries lead to, which is that of the first one for the next page. -/
def nextPage? (entries : List LinkEntry) : Option String :=
  ((entries.filterMap (·.read?)).find? (·.relation == "next".toList)).map
    fun entry => String.ofList entry.url

/-- Joined entries lead where the entries do. -/
theorem next?_joined (written : List LinkEntry) :
    next? (String.ofList (joined written)) = nextPage? written := by
  rw [next?, entries_joined, nextPage?]

theorem isSome_nextPage? (entries : List LinkEntry) :
    (nextPage? entries).isSome = entries.any (·.isNext) := by
  rw [nextPage?, Option.isSome_map, List.isSome_find?, List.any_filterMap]
  rfl

theorem nextPage?_append (first second : List LinkEntry) :
    nextPage? (first ++ second) = (nextPage? first).or (nextPage? second) := by
  rw [nextPage?, List.filterMap_append, List.find?_append, Option.map_or]
  rfl

/-- Joined entries are plain exactly if each of them is. -/
theorem all_joined (entries : List LinkEntry) :
    (joined entries).all isPlainChar = entries.all (·.isPlain) := by
  cases entries with
  | nil => rfl
  | cons entry entries =>
    rw [joined_cons, List.all_append, List.all_cons, LinkEntry.isPlain]
    congr 1
    induction entries with
    | nil => rfl
    | cons next entries ih =>
      have mark : ", ".toList.all isPlainChar = true := by decide
      rw [following, List.flatMap_cons, List.all_append, List.all_append, mark, Bool.true_and,
        ← following, ih, List.all_cons, LinkEntry.isPlain]

/-- Joined entries do not end in padding. -/
theorem exists_last_joined (entry : LinkEntry) (entries : List LinkEntry) :
    ∃ front last, joined (entry :: entries) = front ++ [last] ∧ isPadding last = false := by
  rw [joined_cons]
  rcases List.eq_nil_or_concat entries with rfl | ⟨others, final, rfl⟩
  · rw [following, List.flatMap_nil, List.append_nil]
    exact entry.exists_last
  · obtain ⟨front, last, ends, kept⟩ := final.exists_last
    refine ⟨entry.text ++ (following others ++ (", ".toList ++ front)), last, ?_, kept⟩
    rw [following, List.concat_eq_append, List.flatMap_append, List.flatMap_singleton, ends,
      ← following]
    simp only [List.append_assoc]

/-- A character is padding exactly if its byte is. -/
theorem isPadding_byte {c : Char} (ascii : c.toNat < 128) :
    (c.toNat.toUInt8 == 0x20 || c.toNat.toUInt8 == 0x09) = isPadding c :=
  @forall_ascii (fun c => (c.toNat.toUInt8 == 0x20 || c.toNat.toUInt8 == 0x09) = isPadding c)
    (by decide +kernel) c ascii

/-- A value of plain entries has no padding at its ends. -/
theorem trimmed_valueOf {entries : List LinkEntry} (plain : entries.all (·.isPlain) = true) :
    dropWhileEnd (fun byte => byte == 0x20 || byte == 0x09)
      ((valueOf entries).dropWhile fun byte => byte == 0x20 || byte == 0x09) = valueOf entries := by
  cases entries with
  | nil => rfl
  | cons entry entries =>
    have kept : (valueOf (entry :: entries)).dropWhile (fun byte => byte == 0x20 || byte == 0x09) =
        valueOf (entry :: entries) := by
      rw [valueOf, joined_cons, LinkEntry.text, List.cons_append, Utf8.encode_cons]
      exact List.dropWhile_cons_of_neg (by decide)
    obtain ⟨front, last, ends, visible⟩ := exists_last_joined entry entries
    have ascii : last.toNat < 128 := by
      rw [← all_joined, ends, List.all_append, Bool.and_eq_true] at plain
      exact ascii_of_isPlainChar (List.all_eq_true.1 plain.2 last List.mem_cons_self)
    have whole : valueOf (entry :: entries) = Utf8.encode front ++ [last.toNat.toUInt8] := by
      rw [valueOf, ends, Utf8.encode_append, Utf8.encode_cons, Utf8.encode_nil, List.append_nil,
        Utf8.encodeChar_of_ascii ascii]
    rw [kept, whole]
    apply dropWhileEnd_concat
    exact (isPadding_byte ascii).trans visible

/-- Nothing is lost at the ends of a value: it is read as its entries, if these are plain. -/
theorem headerText?_valueOf (entries : List LinkEntry) :
    headerText? (valueOf entries) =
      if entries.all (·.isPlain) = true then some (String.ofList (joined entries)) else none := by
  have bytes : isPlainHeader (valueOf entries) = entries.all (·.isPlain) :=
    (isPlainHeader_encode _).trans (all_joined entries)
  unfold headerText?
  dsimp only
  by_cases plain : entries.all (·.isPlain) = true
  · rw [trimmed_valueOf plain, bytes, if_pos plain, if_pos plain, valueOf,
      map_encode_of_plain ((all_joined entries).trans plain)]
  · rw [if_neg plain, if_neg]
    -- A byte that is not plain is no padding, and so it is kept.
    rw [← bytes, isPlainHeader, Bool.not_eq_true, List.all_eq_false] at plain
    obtain ⟨byte, member, odd⟩ := plain
    have kept : (byte == 0x20 || byte == 0x09) = false := by
      rw [Bool.or_eq_false_iff, beq_eq_false_iff_ne, beq_eq_false_iff_ne]
      constructor
      · intro blank
        subst blank
        exact odd (by decide)
      · intro tab
        subst tab
        exact odd (by decide)
    intro all
    exact odd (List.all_eq_true.1 all byte (mem_dropWhileEnd (mem_dropWhile member kept) kept))

/-- Where the first value of a link header leads. -/
def firstNext? (values : List (List UInt8)) : Option String :=
  (values.head?.bind headerText?).bind next?

/-- The first value leads to the first page that it announces. -/
theorem firstNext?_valueOf (entries : List LinkEntry) (others : List (List UInt8)) :
    firstNext? (valueOf entries :: others) =
      if entries.all (·.isPlain) = true then nextPage? entries else none := by
  rw [firstNext?, List.head?_cons, Option.bind_some, headerText?_valueOf]
  by_cases plain : entries.all (·.isPlain) = true
  · rw [if_pos plain, if_pos plain, Option.bind_some, next?_joined]
  · rw [if_neg plain, if_neg plain, Option.bind_none]

theorem isSome_firstNext?_valueOf (entries : List LinkEntry) (others : List (List UInt8)) :
    (firstNext? (valueOf entries :: others)).isSome = true ↔ Announces entries := by
  rw [firstNext?_valueOf, Announces]
  by_cases plain : entries.all (·.isPlain) = true
  · rw [if_pos plain, isSome_nextPage?]
    exact (and_iff_right plain).symm
  · rw [if_neg plain]
    exact iff_of_false (by simp) fun announces => plain announces.1

/-- The entries of all values in one. -/
def gathered (values : List (List LinkEntry)) : List (List UInt8) :=
  [valueOf values.flatten]

/-- Whether the first of some values tells what all of them together do: it announces a further
page exactly if they do. -/
def FirstTells (values : List (List LinkEntry)) : Prop :=
  Announces (values.headD []) ↔ Announces values.flatten

instance (values : List (List LinkEntry)) : Decidable (FirstTells values) :=
  inferInstanceAs (Decidable (_ ↔ _))

/-- Values announce a further page exactly if the first of them does. -/
theorem isSome_firstNext?_map (values : List (List LinkEntry)) :
    (firstNext? (values.map valueOf)).isSome = true ↔ Announces (values.headD []) := by
  cases values with
  | nil => decide
  | cons first values => exact isSome_firstNext?_valueOf first _

/-- Where both lead on, the first value and all values together lead to the same page. -/
theorem firstNext?_eq_of_isSome {values : List (List LinkEntry)}
    (first : (firstNext? (values.map valueOf)).isSome = true)
    (all : (firstNext? (gathered values)).isSome = true) :
    firstNext? (values.map valueOf) = firstNext? (gathered values) := by
  cases values with
  | nil => cases first
  | cons front values =>
    rw [List.map_cons] at first ⊢
    rw [gathered] at all ⊢
    obtain ⟨plain, present⟩ := (isSome_firstNext?_valueOf _ _).1 first
    obtain ⟨plains, _⟩ := (isSome_firstNext?_valueOf _ _).1 all
    rw [firstNext?_valueOf, firstNext?_valueOf, if_pos plain, if_pos plains, List.flatten_cons,
      nextPage?_append]
    -- The first entry for the next page stands in the first value already.
    obtain ⟨page, found⟩ := Option.isSome_iff_exists.1 ((isSome_nextPage? front).trans present)
    rw [found, Option.some_or]

/-- All values together lead where the first one does exactly if that one tells. -/
theorem firstNext?_eq_iff (values : List (List LinkEntry)) :
    firstNext? (values.map valueOf) = firstNext? (gathered values) ↔ FirstTells values := by
  rw [FirstTells, ← isSome_firstNext?_map, ← isSome_firstNext?_valueOf values.flatten []]
  constructor
  · intro same
    rw [same]
    rfl
  · intro both
    by_cases first : (firstNext? (values.map valueOf)).isSome = true
    · exact firstNext?_eq_of_isSome first (both.1 first)
    · have all := mt both.2 first
      rw [Option.not_isSome_iff_eq_none] at first all
      rw [first]
      exact all.symm

end LinkHeader

end MergeNotes
