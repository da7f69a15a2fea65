import MergeNotes.Proofs.Dict
import MergeNotes.Proofs.Json.Containers

/-! The text of a value read back: that value, but for the order in which objects hold members. -/

namespace MergeNotes.Json

/-- The bytes of the text of a value. -/
def Value.bytes (value : Value) : List UInt8 :=
  Utf8.encode value.print

/-- The bytes of the text of a key. -/
def keyBytes (key : String) : List UInt8 :=
  Utf8.encode (printString key)

/-- The bytes of the texts of a key and of its value. -/
def Value.memberBytes (member : String × Value) : List UInt8 × List UInt8 :=
  (keyBytes member.1, member.2.bytes)

theorem bytes_text (value : Value) : Utf8.bytes value.text = value.bytes := by
  rw [Utf8.bytes, Value.text, String.toList_ofList, Value.bytes]

theorem keyBytes_eq (key : String) :
    keyBytes key =
      Ascii.quote :: (Utf8.encode (key.toList.flatMap printChar) ++ [Ascii.quote]) := by
  rw [keyBytes, printString, Utf8.encode_append, Utf8.encode_cons]
  rfl

theorem bytes_string (text : String) : (Value.string text).bytes = keyBytes text := by
  rw [Value.bytes, Value.print, keyBytes]

theorem encode_printItems (items : List Value) :
    Utf8.encode (printItems items) = separated true (items.map Value.bytes) := by
  -- Every item but the first stands behind a comma.
  have rest : ∀ (item : Value) (items : List Value), Utf8.encode (printItems (item :: items)) =
      item.bytes ++ separated false (items.map Value.bytes) := by
    intro item items
    induction items generalizing item with
    | nil => simp [printItems, Value.bytes, separated]
    | cons next items ih =>
      rw [printItems, Utf8.encode_append, Utf8.encode_cons, ih, ← Value.bytes]
      · simp [separated, separator, Utf8.encodeChar]
      · simp
  cases items with
  | nil => rfl
  | cons item items => simp [rest, separated, separator]

theorem encode_printMembers (members : List (String × Value)) :
    Utf8.encode (printMembers members) =
      separated true ((members.map Value.memberBytes).map memberText) := by
  -- Every member but the first stands behind a comma.
  have rest : ∀ (member : String × Value) (members : List (String × Value)),
      Utf8.encode (printMembers (member :: members)) = memberText (Value.memberBytes member) ++
        separated false ((members.map Value.memberBytes).map memberText) := by
    intro member members
    induction members generalizing member with
    | nil =>
      simp [printMembers, Value.memberBytes, memberText, Value.bytes, keyBytes, separated,
        Utf8.encode_append, Utf8.encode_cons, Utf8.encodeChar]
    | cons next members ih =>
      rw [printMembers, Utf8.encode_append, Utf8.encode_cons, Utf8.encode_append, Utf8.encode_cons,
        ih, ← Value.bytes, ← keyBytes]
      · simp [separated, separator, memberText, Value.memberBytes, Utf8.encodeChar]
      · simp
  cases members with
  | nil => rfl
  | cons member members => simp [rest, separated, separator]

theorem bytes_array (items : List Value) :
    (Value.array items).bytes =
      Ascii.openBracket :: (separated true (items.map Value.bytes) ++ [Ascii.closeBracket]) := by
  rw [Value.bytes, Value.print, Utf8.encode_append, Utf8.encode_cons, encode_printItems]
  rfl

theorem bytes_object (members : List (String × Value)) :
    (Value.object members).bytes =
      Ascii.openBrace :: (separated true ((members.map Value.memberBytes).map memberText) ++
        [Ascii.closeBrace]) := by
  rw [Value.bytes, Value.print, Utf8.encode_append, Utf8.encode_cons, encode_printMembers]
  rfl

/-- A value is another one but for the order in which objects at any depth hold their members. -/
inductive Value.Rearranges : Value → Value → Prop
  | null : Rearranges .null .null
  | boolean (b : Bool) : Rearranges (.boolean b) (.boolean b)
  | number (n : Number) : Rearranges (.number n) (.number n)
  | string (s : String) : Rearranges (.string s) (.string s)
  | array {items others : List Value} (each : List.Forall₂ Rearranges items others) :
      Rearranges (.array items) (.array others)
  | object {members arranged others : List (String × Value)}
      (keys : members.map (·.1) = arranged.map (·.1))
      (each : List.Forall₂ Rearranges (members.map (·.2)) (arranged.map (·.2)))
      (order : arranged.Perm others) : Rearranges (.object members) (.object others)

/-- A value is the same as itself. -/
theorem Value.Rearranges.refl : ∀ value : Value, value.Rearranges value
  | .null => .null
  | .boolean b => .boolean b
  | .number n => .number n
  | .string text => .string text
  | .array items => .array (List.forall₂_same.2 fun item _ => refl item)
  | .object members => .object rfl
      (List.forall₂_same.2 (List.forall_mem_map.2 fun member _ => refl member.2)) (.refl members)
termination_by value => sizeOf value
decreasing_by
  · have smaller := List.sizeOf_lt_of_mem ‹item ∈ items›
    simp only [Value.array.sizeOf_spec]
    omega
  · have smaller := List.sizeOf_lt_of_mem ‹member ∈ members›
    obtain ⟨key, content⟩ := member
    simp only [Prod.mk.sizeOf_spec, Value.object.sizeOf_spec] at smaller ⊢
    omega

/-- A number that is kept exactly. -/
def Number.IsExact : Number → Prop
  | .natural n => n < UInt64.size
  | .negative n => 0 < n ∧ n ≤ 1 <<< 63
  | .float _ => False

/-- The text of a value is understood where arrays and objects may be nested so deep: numbers are
exact, and no key stands twice in an object. -/
def Value.IsReadable : Nat → Value → Prop
  | _, .null | _, .boolean _ | _, .string _ => True
  | _, .number n => n.IsExact
  | 0, .array _ | 0, .object _ => False
  | depth + 1, .array items => ∀ item ∈ items, item.IsReadable depth
  | depth + 1, .object members =>
    (members.map (·.1)).Nodup ∧ ∀ member ∈ members, member.2.IsReadable depth

/-- The text of a natural begins with a digit. -/
theorem exists_bytes_natural (n : Nat) :
    ∃ digit < 10, ∃ more, (Value.number (.natural n)).bytes = digitByte digit :: more := by
  obtain ⟨digits, bytes, bounded, _, first, others, rfl, _⟩ := exists_digits n
  exact ⟨first, bounded first List.mem_cons_self, others.map digitByte, bytes⟩

/-- A digit begins no other token. -/
theorem digitByte_spec {digit : Nat} (small : digit < 10) :
    Cursor.isSpace (digitByte digit) = false ∧
      ∀ other ∈ [Ascii.lowerN, Ascii.lowerT, Ascii.lowerF, Ascii.minus, Ascii.quote,
        Ascii.openBracket, Ascii.openBrace, Ascii.closeBracket], digitByte digit ≠ other := by
  revert digit
  decide +kernel

/-- The first byte of the text of a value, which tells only `null` from all others. -/
theorem exists_bytes {depth : Nat} {value : Value} (readable : value.IsReadable depth) :
    ∃ byte more, value.bytes = byte :: more ∧ Cursor.isSpace byte = false ∧
      byte ≠ Ascii.closeBracket ∧ (byte = Ascii.lowerN → value = .null) := by
  -- Only a boolean or a natural begins with one of several bytes.
  cases value with
  | null => exact ⟨_, _, rfl, rfl, by decide, fun _ => rfl⟩
  | boolean b =>
    cases b with
    | true => exact ⟨Ascii.lowerT, _, rfl, rfl, by decide, fun same => absurd same (by decide)⟩
    | false => exact ⟨Ascii.lowerF, _, rfl, rfl, by decide, fun same => absurd same (by decide)⟩
  | string text =>
    rw [bytes_string, keyBytes_eq]
    exact ⟨Ascii.quote, _, rfl, rfl, by decide, fun same => absurd same (by decide)⟩
  | array items =>
    rw [bytes_array]
    exact ⟨Ascii.openBracket, _, rfl, rfl, by decide, fun same => absurd same (by decide)⟩
  | object members =>
    rw [bytes_object]
    exact ⟨Ascii.openBrace, _, rfl, rfl, by decide, fun same => absurd same (by decide)⟩
  | number number =>
    cases number with
    | natural n =>
      obtain ⟨digit, small, more, bytes⟩ := exists_bytes_natural n
      obtain ⟨glyph, other⟩ := digitByte_spec small
      exact ⟨_, more, bytes, glyph, other _ (by decide),
        fun same => absurd same (other _ (by decide))⟩
    | negative n =>
      refine ⟨Ascii.minus, Utf8.encode (decimalDigits n), ?_, rfl, by decide,
        fun same => absurd same (by decide)⟩
      rw [Value.bytes, Value.print, Number.print, Utf8.encode_cons]
      rfl
    | float x => cases depth <;> exact readable.elim

theorem begins_bytes {depth : Nat} {value : Value} (readable : value.IsReadable depth) :
    Begins value.bytes := by
  obtain ⟨byte, more, bytes, glyph, other, _⟩ := exists_bytes readable
  exact ⟨byte, more, bytes, glyph, other⟩

/-! A word, a number or a string is read whatever the depth. -/

theorem reads_null (depth : Nat) : Reads (readValue depth) Value.null.bytes .null := by
  intro rest position _
  rw [readValue.eq_def]
  rfl

theorem reads_boolean (depth : Nat) (b : Bool) :
    Reads (readValue depth) (Value.boolean b).bytes (.boolean b) := by
  intro rest position _
  rw [readValue.eq_def]
  cases b <;> rfl

theorem reads_string (depth : Nat) (text : String) :
    Reads (readValue depth) (Value.string text).bytes (.string text) := by
  rw [bytes_string, keyBytes_eq]
  refine (reads_readString text).behind Value.string fun rest position => ?_
  rw [readValue.eq_def]
  rfl

theorem reads_number (depth : Nat) {n : Number} (kept : n.IsExact) :
    Reads (readValue depth) (Value.number n).bytes (.number n) := by
  cases n with
  | natural n =>
    refine (reads_readNumber false kept).handed Value.number fun rest position => ?_
    obtain ⟨digit, small, more, bytes⟩ := exists_bytes_natural n
    obtain ⟨glyph, other⟩ := digitByte_spec small
    -- The first digit is no sign, and begins no word.
    change Utf8.encode (decimalDigits n) = _ at bytes
    rw [readValue.eq_def, bytes]
    simp only [List.cons_append, Cursor.skipSpace_cons glyph, Cursor.next?_cons,
      digit?_digitByte small, Option.isSome_some, if_true,
      if_neg (other Ascii.lowerN (by decide)), if_neg (other Ascii.lowerT (by decide)),
      if_neg (other Ascii.lowerF (by decide)), if_neg (other Ascii.minus (by decide))]
  | negative n =>
    -- Below zero half the range is kept, all of which 64 bits hold without their sign.
    have bounds : 0 < n ∧ n ≤ 1 <<< 63 := kept
    have bytes : (Value.number (.negative n)).bytes =
        Ascii.minus :: Utf8.encode (decimalDigits n) := by
      rw [Value.bytes, Value.print, Number.print, Utf8.encode_cons]
      rfl
    have same : wholeNumber true n = .negative n := by
      rw [wholeNumber, if_neg (by simp), if_neg (by omega)]
    have small : n < UInt64.size := by
      have limit : 1 <<< 63 < UInt64.size := by decide
      omega
    rw [bytes, ← same]
    refine (reads_readNumber true small).behind Value.number fun rest position => ?_
    rw [readValue.eq_def]
    rfl
  | float x => exact kept.elim

theorem reads_key (key : String) : Reads readKey (keyBytes key) key := by
  rw [keyBytes_eq]
  intro rest position delimited
  rw [List.cons_append, readKey, Cursor.advance_cons, reads_readString key rest _ delimited]
  rfl

/-! Values are read part by part. -/

/-- Two members have one key, and values that are the same but for the order of members. -/
def Value.MemberRearranges (member other : String × Value) : Prop :=
  member.1 = other.1 ∧ member.2.Rearranges other.2

theorem forall₂_memberRearranges_iff {members others : List (String × Value)} :
    List.Forall₂ Value.MemberRearranges members others ↔
      members.map (·.1) = others.map (·.1) ∧
        List.Forall₂ Value.Rearranges (members.map (·.2)) (others.map (·.2)) := by
  induction members generalizing others with
  | nil => cases others <;> simp
  | cons member members ih =>
    cases others with
    | nil => simp
    | cons other others =>
      simp only [List.forall₂_cons, List.map_cons, List.cons.injEq, Value.MemberRearranges, ih]
      tauto

/-- Two objects are the same but for order if the members of one, in some order, are those of the
other one by one. -/
theorem rearranges_object_iff {members others : List (String × Value)} :
    (Value.object members).Rearranges (.object others) ↔
      ∃ arranged, List.Forall₂ Value.MemberRearranges members arranged ∧ arranged.Perm others := by
  constructor
  · intro same
    cases same with
    | object keys each order => exact ⟨_, forall₂_memberRearranges_iff.2 ⟨keys, each⟩, order⟩
  · rintro ⟨arranged, each, order⟩
    obtain ⟨keys, values⟩ := forall₂_memberRearranges_iff.1 each
    exact .object keys values order

/-- What is true of all on one side of a relation is true of all on the other, if it goes along. -/
theorem forall_of_forall₂ {α β : Type} {relation : α → β → Prop} {left : α → Prop}
    {right : β → Prop} {items : List α} {others : List β}
    (each : List.Forall₂ relation items others)
    (step : ∀ item other, relation item other → right other → left item)
    (all : ∀ other ∈ others, right other) : ∀ item ∈ items, left item := by
  induction each with
  | nil => exact fun _ member => nomatch member
  | cons first _ ih =>
    obtain ⟨head, tail⟩ := List.forall_mem_cons.1 all
    exact List.forall_mem_cons.2 ⟨step _ _ first head, ih tail⟩

/-- What lies between each two of two rows makes up a row. -/
theorem exists_forall₂ {α β γ : Type} {first : α → γ → Prop} {second : γ → β → Prop}
    {items : List α} {others : List β}
    (each : List.Forall₂ (fun item other => ∃ found, first item found ∧ second found other)
      items others) :
    ∃ founds, List.Forall₂ first items founds ∧ List.Forall₂ second founds others := by
  induction each with
  | nil => exact ⟨[], .nil, .nil⟩
  | cons head _ ih =>
    obtain ⟨found, before, behind⟩ := head
    obtain ⟨founds, ahead, after⟩ := ih
    exact ⟨found :: founds, .cons before ahead, .cons behind after⟩

/-- The order of members is nothing to how well a text is understood. -/
theorem Value.Rearranges.isReadable {depth : Nat} {value other : Value}
    (same : value.Rearranges other) (readable : other.IsReadable depth) :
    value.IsReadable depth := by
  induction depth generalizing value other with
  -- At the depth zero there is nothing to rearrange.
  | zero => cases same <;> exact readable
  | succ depth ih =>
    cases same with
    | array each => exact forall_of_forall₂ each (fun _ _ => ih) readable
    | object keys each order =>
      obtain ⟨distinct, contents⟩ := readable
      -- The arranged members are those of the other object, in another order.
      have arranged := List.forall_mem_map.2 fun member present =>
        contents member (order.mem_iff.1 present)
      refine ⟨?_, List.forall_mem_map.1 (forall_of_forall₂ each (fun _ _ => ih) arranged)⟩
      rw [keys]
      exact (order.map _).nodup_iff.2 distinct
    | _ => exact readable

/-- The members of an object are put in order and all kept, where no key stands twice. -/
theorem perm_sortMembers {members : List (String × Value)}
    (distinct : (members.map (·.1)).Nodup) : (sortMembers members).Perm members := by
  have kept := @perm_foldl_insertEntry String Value _ _ members [] (by simpa using distinct)
  rwa [List.append_nil] at kept

theorem isQuoted_memberBytes (members : List (String × Value)) :
    ∀ text ∈ members.map Value.memberBytes, IsQuoted text.1 :=
  List.forall_mem_map.2 fun member _ => ⟨_, keyBytes_eq member.1⟩

/-- The text of a value is read as that value but for the order of members. -/
theorem reads_readValue {depth : Nat} {value other : Value} (same : value.Rearranges other)
    (readable : value.IsReadable depth) :
    ∃ found, Reads (readValue depth) value.bytes found ∧ found.Rearranges other := by
  induction depth generalizing value other with
  | zero =>
    cases same with
    | null => exact ⟨_, reads_null 0, .null⟩
    | boolean b => exact ⟨_, reads_boolean 0 b, .boolean b⟩
    | number n => exact ⟨_, reads_number 0 readable, .number n⟩
    | string text => exact ⟨_, reads_string 0 text, .string text⟩
    | array | object => exact readable.elim
  | succ depth ih =>
    cases same with
    | null => exact ⟨_, reads_null _, .null⟩
    | boolean b => exact ⟨_, reads_boolean _ b, .boolean b⟩
    | number n => exact ⟨_, reads_number _ readable, .number n⟩
    | string text => exact ⟨_, reads_string _ text, .string text⟩
    | @array items others each =>
      -- Each item is found as one that is the same but for order, and so is the whole row.
      have parts := List.Forall₂.imp (fun _ _ ⟨readable, same⟩ => ih same readable)
        ((List.forall₂_and_left (p := fun item : Value => item.IsReadable depth) items others).2
          ⟨readable, each⟩)
      obtain ⟨founds, reads, rearranged⟩ := exists_forall₂ parts
      refine ⟨.array founds, ?_, .array rearranged⟩
      have begin := List.forall_mem_map.2 fun item member => begins_bytes (readable item member)
      rw [bytes_array]
      refine (reads_readArray begin (List.forall₂_map_left_iff.2 reads)).behind Value.array
        fun rest position => ?_
      rw [readValue.eq_def]
      rfl
    | @object members arranged _ keys each order =>
      obtain ⟨distinct, contents⟩ := readable
      -- Keys are found as they are, and their values as ones that are the same but for order.
      have parts : List.Forall₂ (fun member other => ∃ found : String × Value,
          (Reads readKey (Value.memberBytes member).1 found.1 ∧
            Reads (readValue depth) (Value.memberBytes member).2 found.2) ∧
            Value.MemberRearranges found other) members arranged := by
        refine List.Forall₂.imp ?_ ((List.forall₂_and_left (p := fun member : String × Value =>
          member.2.IsReadable depth) members arranged).2
          ⟨contents, forall₂_memberRearranges_iff.2 ⟨keys, each⟩⟩)
        rintro member other ⟨readable, key, same⟩
        obtain ⟨found, reads, again⟩ := ih same readable
        exact ⟨(member.1, found), ⟨reads_key member.1, reads⟩, key, again⟩
      obtain ⟨founds, reads, rearranged⟩ := exists_forall₂ parts
      have reads := reads_readObject id (isQuoted_memberBytes members)
        (List.forall₂_map_left_iff.2 reads)
      -- What was found is put in order, which is one more order of the same members.
      have unique : (founds.map (·.1)).Nodup := by
        rwa [(forall₂_memberRearranges_iff.1 rearranged).1, ← keys]
      obtain ⟨sorted, again, moved⟩ :=
        List.perm_comp_forall₂ (perm_sortMembers unique) rearranged
      refine ⟨.object (sortMembers founds), ?_,
        rearranges_object_iff.2 ⟨sorted, again, moved.trans order⟩⟩
      rw [bytes_object]
      refine reads.behind (fun members => Value.object (sortMembers members))
        fun rest position => ?_
      rw [readValue.eq_def]
      rfl

/-- A text that a reader takes is read to its end. -/
theorem readWhole_of_reads {α : Type} {read : Cursor → Except Error (α × Cursor)}
    {text : List UInt8} {found : α} (reads : Reads read text found) :
    readWhole read text = .ok found := by
  have whole := reads [] ⟨1, 0⟩ delimited_nil
  rw [List.append_nil] at whole
  rw [readWhole, Cursor.start, whole]
  rfl

/-- The text of a value is understood as that value but for the order of members. -/
theorem exists_parse_text {value other : Value} (same : value.Rearranges other)
    (readable : other.IsReadable nestingLimit) :
    ∃ found, parse value.text = .ok found ∧ found.Rearranges other := by
  obtain ⟨found, reads, again⟩ := reads_readValue same (same.isReadable readable)
  refine ⟨found, ?_, again⟩
  rw [parse, bytes_text]
  exact readWhole_of_reads reads

end MergeNotes.Json
