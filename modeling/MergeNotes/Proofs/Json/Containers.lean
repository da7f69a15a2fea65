import Mathlib.Data.List.Forall2
import MergeNotes.Proofs.Json.Scalars

/-! Arrays and objects are read part by part, as they were written with commas between. -/

namespace MergeNotes.Json

variable {α κ ν : Type}

/-- What stands before the next part: a comma, unless it is the first. -/
def separator (isFirst : Bool) : List UInt8 :=
  if isFirst then [] else [Ascii.comma]

/-- Parts with commas between. -/
def separated : Bool → List (List UInt8) → List UInt8
  | _, [] => []
  | isFirst, text :: texts => separator isFirst ++ text ++ separated false texts

/-- No part is without text, so that there are at most as many parts as bytes. -/
theorem length_le_separated (isFirst : Bool) {texts : List (List UInt8)}
    (nonempty : ∀ text ∈ texts, text ≠ []) (rest : List UInt8) :
    texts.length ≤ (separated isFirst texts ++ rest).length := by
  induction texts generalizing isFirst with
  | nil => exact Nat.zero_le _
  | cons text texts ih =>
    obtain ⟨first, others⟩ := List.forall_mem_cons.1 nonempty
    have single := List.length_pos_iff.2 first
    have fewer := ih false others
    simp only [separated, List.length_append, List.length_cons] at fewer ⊢
    omega

/-- Behind a part stands the comma before the next one, or what closes them all. -/
theorem delimited_separated (texts : List (List UInt8)) {rest : List UInt8}
    (delimited : Delimited rest) : Delimited (separated false texts ++ rest) := by
  cases texts with
  | nil => exact delimited
  | cons text texts => exact delimited_cons _ (by decide)

/-- The text of a value begins with no blank, and with no bracket that closes. -/
def Begins (text : List UInt8) : Prop :=
  ∃ byte more, text = byte :: more ∧ Cursor.isSpace byte = false ∧ byte ≠ Ascii.closeBracket

theorem Begins.ne_nil {text : List UInt8} (begins : Begins text) : text ≠ [] := by
  obtain ⟨byte, more, rfl, _⟩ := begins
  exact List.cons_ne_nil byte more

theorem Cursor.skipSpace_cons {byte : UInt8} (glyph : isSpace byte = false) (rest : List UInt8)
    (position : Position) :
    skipSpace ⟨byte :: rest, position⟩ = ⟨byte :: rest, position⟩ := by
  simp [skipSpace, skipSpace.go, glyph]

@[simp] theorem within_ok (segment : Segment) (found : α) :
    within segment (.ok found) = .ok found :=
  rfl

theorem nextItem_separator (isFirst : Bool) {text : List UInt8} (begins : Begins text)
    (rest : List UInt8) (position : Position) :
    nextItem isFirst ⟨separator isFirst ++ text ++ rest, position⟩ =
      .ok (true, ⟨text ++ rest, position.past (separator isFirst)⟩) := by
  obtain ⟨byte, more, rfl, glyph, other⟩ := begins
  cases isFirst with
  | true => simp [separator, nextItem, Cursor.skipSpace_cons glyph, other]
  | false =>
    -- Behind the comma the item must not be the bracket that closes the array.
    have comma : Cursor.isSpace Ascii.comma = false := rfl
    have apart : Ascii.comma ≠ Ascii.closeBracket := by decide
    simp only [separator, nextItem, Cursor.skipSpace_cons comma, Cursor.skipSpace_cons glyph, apart,
      Bool.false_eq_true, if_false, if_true, List.nil_append, List.cons_append,
      Cursor.next?_cons, Cursor.peek?_cons, Position.past_cons, Position.past_nil]
    split
    · rename_i none
      cases none
    · rename_i closed
      exact absurd (Option.some.inj closed) other
    · rfl

@[simp] theorem nextItem_closeBracket (isFirst : Bool) (rest : List UInt8) (position : Position) :
    nextItem isFirst ⟨Ascii.closeBracket :: rest, position⟩ =
      .ok (false, ⟨Ascii.closeBracket :: rest, position⟩) :=
  rfl

@[simp] theorem closeArray_closeBracket (rest : List UInt8) (position : Position) :
    closeArray ⟨Ascii.closeBracket :: rest, position⟩ =
      .ok ⟨rest, position.after Ascii.closeBracket⟩ :=
  rfl

/-- The items of an array are read up to the bracket that closes it. -/
theorem readItems_separated {item : Cursor → Except Error (α × Cursor)}
    {texts : List (List UInt8)} {founds : List α} (begin : ∀ text ∈ texts, Begins text)
    (each : List.Forall₂ (Reads item) texts founds) {fuel : Nat} (enough : texts.length ≤ fuel)
    {isFirst : Bool} {index : Nat} (counted : (index == 0) = isFirst) (rest : List UInt8)
    (position : Position) :
    readItems item (fuel + 1) index
        ⟨separated isFirst texts ++ Ascii.closeBracket :: rest, position⟩ =
      .ok (founds, ⟨Ascii.closeBracket :: rest, position.past (separated isFirst texts)⟩) := by
  induction each generalizing fuel isFirst index position with
  -- Behind the last item stands the bracket.
  | nil => simp [readItems, separated, bind, Except.bind]
  | @cons text found texts founds reads others ih =>
    obtain ⟨first, begins⟩ := List.forall_mem_cons.1 begin
    obtain ⟨fuel, rfl⟩ := Nat.exists_eq_add_one_of_ne_zero (Nat.ne_zero_of_lt enough)
    -- An item ends where the next one is separated from it.
    have behind := delimited_separated texts (delimited_cons rest
      (show Ascii.closeBracket ∈ _ by decide))
    have later := @ih begins fuel (Nat.le_of_succ_le_succ enough) false (index + 1) rfl
    rw [separated, readItems, counted, List.append_assoc, nextItem_separator _ first]
    simp only [bind, Except.bind, reads _ _ behind, within_ok, later, Position.past_append]

/-- An array is read behind its opening bracket. -/
theorem reads_readArray {item : Cursor → Except Error (α × Cursor)}
    {texts : List (List UInt8)} {founds : List α} (begin : ∀ text ∈ texts, Begins text)
    (each : List.Forall₂ (Reads item) texts founds) :
    Reads (readArray item) (separated true texts ++ [Ascii.closeBracket]) founds := by
  intro rest position _
  have enough := length_le_separated true (fun text member => (begin text member).ne_nil)
    (Ascii.closeBracket :: rest)
  have read := readItems_separated begin each enough (show (0 == 0) = true from rfl) rest position
  rw [List.append_assoc, List.singleton_append, readArray]
  simp only [read, bind, Except.bind, closeArray_closeBracket, Position.past_append,
    Position.past_cons, Position.past_nil]

/-! The members of an object are keys and values with colons between. -/

/-- The text of a member: that of its key, a colon and that of its value. -/
def memberText (member : List UInt8 × List UInt8) : List UInt8 :=
  member.1 ++ Ascii.colon :: member.2

/-- Behind what separates it, the first member begins with its key. -/
theorem separated_members (isFirst : Bool) (member : List UInt8 × List UInt8)
    (members : List (List UInt8 × List UInt8)) (rest : List UInt8) :
    separated isFirst ((member :: members).map memberText) ++ rest =
      separator isFirst ++ member.1 ++
        (Ascii.colon :: (member.2 ++ (separated false (members.map memberText) ++ rest))) := by
  simp [separated, memberText]

theorem length_le_separated_members (isFirst : Bool) (members : List (List UInt8 × List UInt8))
    (rest : List UInt8) :
    members.length ≤ (separated isFirst (members.map memberText) ++ rest).length := by
  have nonempty : ∀ text ∈ members.map memberText, text ≠ [] :=
    List.forall_mem_map.2 fun member _ => by simp [memberText]
  have fewer := length_le_separated isFirst nonempty rest
  rwa [List.length_map] at fewer

/-- The text of a key begins with a quote. -/
def IsQuoted (text : List UInt8) : Prop :=
  ∃ more, text = Ascii.quote :: more

theorem nextMember_separator (isFirst : Bool) {text : List UInt8} (quoted : IsQuoted text)
    (rest : List UInt8) (position : Position) :
    nextMember isFirst ⟨separator isFirst ++ text ++ rest, position⟩ =
      .ok (true, ⟨text ++ rest, position.past (separator isFirst)⟩) := by
  obtain ⟨more, rfl⟩ := quoted
  cases isFirst <;> rfl

@[simp] theorem nextMember_closeBrace (isFirst : Bool) (rest : List UInt8) (position : Position) :
    nextMember isFirst ⟨Ascii.closeBrace :: rest, position⟩ =
      .ok (false, ⟨Ascii.closeBrace :: rest, position⟩) :=
  rfl

@[simp] theorem readColon_colon (rest : List UInt8) (position : Position) :
    readColon ⟨Ascii.colon :: rest, position⟩ = .ok ⟨rest, position.after Ascii.colon⟩ :=
  rfl

@[simp] theorem closeObject_closeBrace (rest : List UInt8) (position : Position) :
    closeObject ⟨Ascii.closeBrace :: rest, position⟩ =
      .ok ⟨rest, position.after Ascii.closeBrace⟩ :=
  rfl

/-- The members of an object are read up to the brace that closes it. -/
theorem readMembers_separated {key : Cursor → Except Error (κ × Cursor)} (keyText : κ → String)
    {value : Cursor → Except Error (ν × Cursor)} {texts : List (List UInt8 × List UInt8)}
    {founds : List (κ × ν)} (quoted : ∀ text ∈ texts, IsQuoted text.1)
    (each : List.Forall₂ (fun text found => Reads key text.1 found.1 ∧ Reads value text.2 found.2)
      texts founds) {fuel : Nat} (enough : texts.length ≤ fuel) (isFirst : Bool)
    (rest : List UInt8) (position : Position) :
    readMembers key keyText value (fuel + 1) isFirst
        ⟨separated isFirst (texts.map memberText) ++ Ascii.closeBrace :: rest, position⟩ =
      .ok (founds, ⟨Ascii.closeBrace :: rest,
        position.past (separated isFirst (texts.map memberText))⟩) := by
  induction each generalizing fuel isFirst position with
  -- Behind the last member stands the brace.
  | nil => simp [readMembers, separated, bind, Except.bind]
  | @cons text found texts founds reads others ih =>
    obtain ⟨first, begins⟩ := List.forall_mem_cons.1 quoted
    obtain ⟨readsKey, readsValue⟩ := reads
    obtain ⟨fuel, rfl⟩ := Nat.exists_eq_add_one_of_ne_zero (Nat.ne_zero_of_lt enough)
    -- A key ends where its colon stands, and a value where the next member is separated from it.
    have colon := delimited_cons
      (text.2 ++ (separated false (texts.map memberText) ++ Ascii.closeBrace :: rest))
      (show Ascii.colon ∈ _ by decide)
    have behind := delimited_separated (texts.map memberText)
      (delimited_cons rest (show Ascii.closeBrace ∈ _ by decide))
    have later := @ih begins fuel (Nat.le_of_succ_le_succ enough) false
    rw [separated_members, readMembers, nextMember_separator _ first]
    simp only [bind, Except.bind, within_ok, readsKey _ _ colon, readColon_colon,
      readsValue _ _ behind, later]
    simp [separated, memberText]

/-- An object is read behind its opening brace. -/
theorem reads_readObject {key : Cursor → Except Error (κ × Cursor)} (keyText : κ → String)
    {value : Cursor → Except Error (ν × Cursor)} {texts : List (List UInt8 × List UInt8)}
    {founds : List (κ × ν)} (quoted : ∀ text ∈ texts, IsQuoted text.1)
    (each : List.Forall₂ (fun text found => Reads key text.1 found.1 ∧ Reads value text.2 found.2)
      texts founds) :
    Reads (readObject key keyText value)
      (separated true (texts.map memberText) ++ [Ascii.closeBrace]) founds := by
  intro rest position _
  have enough := length_le_separated_members true texts (Ascii.closeBrace :: rest)
  have read := readMembers_separated keyText quoted each enough true rest position
  rw [List.append_assoc, List.singleton_append, readObject]
  simp only [read, bind, Except.bind, closeObject_closeBrace, Position.past_append,
    Position.past_cons, Position.past_nil]

end MergeNotes.Json
