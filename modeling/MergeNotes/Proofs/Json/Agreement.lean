import MergeNotes.Proofs.Json.Formats
import MergeNotes.Proofs.Json.Order
import MergeNotes.Proofs.Json.Skipping

/-! The direct way and the detour: what a format reads of a text in one pass, it decodes of the
value of that text too, unless the text holds what a value cannot. -/

namespace MergeNotes.Json

variable {α β κ ν : Type} {c after behind : Cursor}

/-- What the format reads is what it decodes of the value that stands there. -/
def Format.Agrees (format : Format α) : Prop :=
  ∀ ⦃c : Cursor⦄ ⦃a : α⦄ ⦃after : Cursor⦄, c.InText → format.read c = .ok (a, after) →
    ∀ depth, Yields (readValue depth c) fun found =>
      found.2 = after ∧ format.decode found.1 = .ok a

/-! A format looks at the next token first, and refuses what it does not expect. -/

theorem nextToken_eq_ok_iff {place : Cursor} {byte : UInt8} :
    nextToken c = .ok (place, byte, behind) ↔
      c.skipSpace = place ∧ c.skipSpace.next? = some (byte, behind) := by
  rw [nextToken]
  split
  · rename_i next
    simp [next, Cursor.fail]
  · rename_i next
    simp [next]

/-- A token of the wrong type is never accepted. -/
theorem refuseToken_ne_ok (expected : String) (c : Cursor) (a : α) :
    refuseToken expected c ≠ .ok a := by
  intro ok
  rw [refuseToken] at ok
  split at ok
  · cases ok
  · -- The token is read to say what was found, and then refused.
    dsimp only at ok
    split at ok
    · obtain ⟨_, _, ok⟩ := exists_ok_of_bind ok
      cases ok
    split at ok
    · obtain ⟨_, _, ok⟩ := exists_ok_of_bind ok
      cases ok
    split at ok
    · obtain ⟨_, _, ok⟩ := exists_ok_of_bind ok
      cases ok
    split at ok
    · obtain ⟨_, _, ok⟩ := exists_ok_of_bind ok
      cases ok
    split at ok
    · obtain ⟨_, _, ok⟩ := exists_ok_of_bind ok
      cases ok
    split at ok
    · obtain ⟨_, _, ok⟩ := exists_ok_of_bind ok
      cases ok
    split at ok
    · cases ok
    split at ok <;> cases ok

/-- Only what begins with its letter is read as `null`. -/
theorem ne_null_of_readValue {depth : Nat} {value : Value} {byte : UInt8}
    (next : c.skipSpace.next? = some (byte, behind)) (other : byte ≠ Ascii.lowerN)
    (read : readValue depth c = .ok (value, after)) : value ≠ .null := by
  intro null
  subst null
  obtain ⟨_, _, begins, reads⟩ := readValue_eq_ok_iff.1 read
  rw [next] at begins
  cases begins
  cases reads
  exact other rfl

/-! The parts of an array or object are read one by one, on both ways as far as on the other. -/

section Parts

variable {format : Format α} {depth : Nat}

theorem yields_readItems (agrees : format.Agrees) {fuel index : Nat} {items : List α}
    (inText : c.InText) (found : readItems format.read fuel index c = .ok (items, after)) :
    Yields (readItems (readValue depth) fuel index c) fun values =>
      values.2 = after ∧
        List.Forall₂ (fun item value => format.decode value = .ok item) items values.1 := by
  induction fuel generalizing c index items with
  | zero => cases found
  | succ fuel ih =>
    obtain ⟨⟨goesOn, place⟩, next, found⟩ := exists_ok_of_bind found
    rw [readItems, next]
    have inText := inText.forward (suffix_nextItem next)
    cases goesOn with
    | false =>
      cases found
      exact yields_ok ⟨rfl, .nil⟩
    | true =>
      obtain ⟨⟨item, behind⟩, first, found⟩ := exists_ok_of_bind found
      obtain ⟨⟨others, last⟩, rest, found⟩ := exists_ok_of_bind found
      cases found
      -- The item is the same on both ways, and the others begin at the same place.
      refine ((agrees inText (mapError_eq_ok_iff.1 first) depth).within (.item index)).bind ?_
      intro found here holds
      obtain ⟨value, place⟩ := found
      obtain ⟨rfl, same⟩ := holds
      have inText := inText.forward ((advances_readValue depth).within here)
      refine (ih inText rest).bind ?_
      intro found _ holds
      obtain ⟨values, last⟩ := found
      obtain ⟨rfl, all⟩ := holds
      exact yields_ok ⟨rfl, .cons same all⟩

theorem yields_readArray (agrees : format.Agrees) {items : List α}
    (inText : c.InText) (found : readArray format.read c = .ok (items, after)) :
    Yields (readArray (readValue depth) c) fun values =>
      values.2 = after ∧
        List.Forall₂ (fun item value => format.decode value = .ok item) items values.1 := by
  obtain ⟨⟨items, place⟩, inner, found⟩ := exists_ok_of_bind found
  obtain ⟨last, close, found⟩ := exists_ok_of_bind found
  cases found
  refine (yields_readItems agrees inText inner).bind ?_
  intro found _ holds
  obtain ⟨values, place⟩ := found
  obtain ⟨rfl, all⟩ := holds
  show Yields (closeArray place >>= _) _
  rw [close]
  exact yields_ok ⟨rfl, all⟩

/-- A key is read as the text that stands for it. -/
def KeyFormat.Agrees (key : KeyFormat κ) : Prop :=
  ∀ ⦃c : Cursor⦄ ⦃k : κ⦄ ⦃after : Cursor⦄, key.read c = .ok (k, after) →
    readKey c = .ok (key.text k, after) ∧ key.decode (key.text k) = .ok k

theorem KeyFormat.agrees_string : KeyFormat.string.Agrees :=
  fun _ _ _ read => ⟨read, rfl⟩

theorem yields_readMembers {key : KeyFormat κ} (keys : key.Agrees) (agrees : format.Agrees)
    {fuel : Nat} {isFirst : Bool} {entries : List (κ × α)} (inText : c.InText)
    (found : readMembers key.read key.text format.read fuel isFirst c = .ok (entries, after)) :
    Yields (readMembers readKey id (readValue depth) fuel isFirst c) fun members =>
      members.2 = after ∧ List.Forall₂ (StandsFor key format) entries members.1 := by
  induction fuel generalizing c isFirst entries with
  | zero => cases found
  | succ fuel ih =>
    obtain ⟨⟨goesOn, place⟩, next, found⟩ := exists_ok_of_bind found
    rw [readMembers, next]
    have inText := inText.forward (suffix_nextMember (mapError_eq_ok_iff.1 next))
    cases goesOn with
    | false =>
      cases found
      exact yields_ok ⟨rfl, .nil⟩
    | true =>
      obtain ⟨⟨k, behindKey⟩, readName, found⟩ := exists_ok_of_bind found
      obtain ⟨behindColon, colon, found⟩ := exists_ok_of_bind found
      obtain ⟨⟨held, behind⟩, first, found⟩ := exists_ok_of_bind found
      obtain ⟨⟨others, last⟩, rest, found⟩ := exists_ok_of_bind found
      cases found
      obtain ⟨text, decoded⟩ := keys readName
      show Yields (readKey place >>= _) _
      rw [text]
      show Yields (readColon behindKey >>= _) _
      rw [colon]
      have inText := inText.forward ((suffix_readColon colon).trans (advances_readKey text))
      -- Behind the colon the value is the same on both ways, and the other members follow it.
      refine ((agrees inText (mapError_eq_ok_iff.1 first) depth).within (.member _)).bind ?_
      intro found here holds
      obtain ⟨value, place⟩ := found
      obtain ⟨rfl, same⟩ := holds
      have inText := inText.forward ((advances_readValue depth).within here)
      refine (ih inText rest).bind ?_
      intro found _ holds
      obtain ⟨members, last⟩ := found
      obtain ⟨rfl, all⟩ := holds
      exact yields_ok ⟨rfl, .cons ⟨rfl, decoded, same⟩ all⟩

theorem yields_readObject {key : KeyFormat κ} (keys : key.Agrees) (agrees : format.Agrees)
    {entries : List (κ × α)} (inText : c.InText)
    (found : readObject key.read key.text format.read c = .ok (entries, after)) :
    Yields (readObject readKey id (readValue depth) c) fun members =>
      members.2 = after ∧ List.Forall₂ (StandsFor key format) entries members.1 := by
  obtain ⟨⟨entries, place⟩, inner, found⟩ := exists_ok_of_bind found
  obtain ⟨last, close, found⟩ := exists_ok_of_bind found
  cases found
  refine (yields_readMembers keys agrees inText inner).bind ?_
  intro found _ holds
  obtain ⟨members, place⟩ := found
  obtain ⟨rfl, all⟩ := holds
  show Yields (closeObject place >>= _) _
  rw [close]
  exact yields_ok ⟨rfl, all⟩

end Parts

namespace Format

/-- A string stands between quotes. -/
theorem exists_of_string_read {text : String} (read : string.read c = .ok (text, after)) :
    ∃ behind, c.skipSpace.next? = some (Ascii.quote, behind) ∧
      readString behind = .ok (text, after) := by
  obtain ⟨⟨place, byte, behind⟩, token, read⟩ := exists_ok_of_bind read
  obtain ⟨rfl, next⟩ := nextToken_eq_ok_iff.1 token
  dsimp only at read
  split at read
  · rename_i quote
    exact ⟨behind, quote ▸ next, read⟩
  · exact absurd read (refuseToken_ne_ok _ _ _)

theorem agrees_string : string.Agrees := by
  intro c text after _ read depth
  obtain ⟨behind, next, inner⟩ := exists_of_string_read read
  rw [readValue_eq_ok_iff.2 ⟨_, _, next, .string inner⟩]
  exact yields_ok ⟨rfl, rfl⟩

/-- A natural is a number without sign, which fits. -/
theorem exists_of_natural_read {name : String} {limit n : Nat}
    (read : (natural name limit).read c = .ok (n, after)) :
    ∃ number byte behind, c.skipSpace.next? = some (byte, behind) ∧
      (byte = Ascii.minus ∧ readNumber true behind = .ok (number, after) ∨
        (Ascii.digit? byte).isSome = true ∧ readNumber false c.skipSpace = .ok (number, after)) ∧
      fitNumber name limit number = .ok n := by
  obtain ⟨⟨place, byte, behind⟩, token, read⟩ := exists_ok_of_bind read
  obtain ⟨rfl, next⟩ := nextToken_eq_ok_iff.1 token
  dsimp only at read
  -- Behind a minus, and from a digit on, the number must fit.
  split at read
  · rename_i minus
    obtain ⟨⟨number, last⟩, found, read⟩ := exists_ok_of_bind read
    dsimp only at read
    split at read
    · rename_i fit
      cases read
      exact ⟨number, byte, behind, next, .inl ⟨minus, found⟩, fit⟩
    · cases read
  split at read
  · rename_i digit
    obtain ⟨⟨number, last⟩, found, read⟩ := exists_ok_of_bind read
    dsimp only at read
    split at read
    · rename_i fit
      cases read
      exact ⟨number, byte, behind, next, .inr ⟨digit, found⟩, fit⟩
    · cases read
  · obtain ⟨_, found, _⟩ := exists_ok_of_bind read
    exact absurd found (refuseToken_ne_ok _ _ _)

theorem agrees_natural (name : String) (limit : Nat) : (natural name limit).Agrees := by
  intro c n after _ read depth
  obtain ⟨number, byte, behind, next, found, fit⟩ := exists_of_natural_read read
  have value : readValue depth c = .ok (.number number, after) := by
    obtain ⟨rfl, found⟩ | ⟨digit, found⟩ := found
    · exact readValue_eq_ok_iff.2 ⟨_, _, next, .negative found⟩
    · exact readValue_eq_ok_iff.2 ⟨_, _, next, .natural digit found⟩
  rw [value]
  refine yields_ok ⟨rfl, ?_⟩
  simp only [natural, fit]

/-- A type that stands for another one agrees as that does. -/
theorem Agrees.transport {format : Format α} (agrees : format.Agrees) (make : α → β)
    (parts : β → α) : (format.transport make parts).Agrees := by
  intro c b after inText read depth
  obtain ⟨⟨a, last⟩, inner, same⟩ := exists_ok_of_map read
  cases same
  refine (agrees inText inner depth).mono ?_
  intro found _ holds
  obtain ⟨place, decoded⟩ := holds
  refine ⟨place, ?_⟩
  show (format.decode found.1).map make = _
  rw [decoded]
  rfl

theorem agrees_u32 : u32.Agrees :=
  (agrees_natural "u32" UInt32.size).transport _ _

theorem agrees_u64 : u64.Agrees :=
  (agrees_natural "u64" UInt64.size).transport _ _

/-- What may be absent agrees if what is present does. -/
theorem Agrees.option {format : Format α} (agrees : format.Agrees) : format.option.Agrees := by
  intro c a after inText read depth
  simp only [Format.option] at read
  split at read
  · -- What is absent is `null` on both ways.
    rename_i next
    obtain ⟨last, word, read⟩ := exists_ok_of_bind read
    cases read
    rw [readValue_eq_ok_iff.2 ⟨_, _, next, .null word⟩]
    exact yields_ok ⟨rfl, rfl⟩
  · -- What is present is no `null`, as it does not begin like one.
    rename_i absent
    obtain ⟨⟨present, last⟩, inner, read⟩ := exists_ok_of_bind read
    cases read
    have yields := agrees (inText.forward c.suffix_skipSpace) inner depth
    rw [readValue_skipSpace] at yields
    refine yields.mono ?_
    intro result found holds
    obtain ⟨value, place⟩ := result
    obtain ⟨rfl, decoded⟩ := holds
    refine ⟨rfl, ?_⟩
    obtain ⟨byte, behind, next, _⟩ := suffix_behind_readValue found
    have other : byte ≠ Ascii.lowerN := by
      intro same
      cases same
      exact absent behind next
    have some : value ≠ .null := ne_null_of_readValue next other found
    cases value with
    | null => exact absurd rfl some
    | _ => exact congrArg (Except.map Option.some) decoded

/-- Lists agree if their items do. -/
theorem Agrees.list {format : Format α} (agrees : format.Agrees) : format.list.Agrees := by
  intro c items after inText read depth
  obtain ⟨⟨place, byte, behind⟩, token, read⟩ := exists_ok_of_bind read
  obtain ⟨rfl, next⟩ := nextToken_eq_ok_iff.1 token
  dsimp only at read
  split at read
  · rename_i bracket
    have inText := inText.forward ((Cursor.suffix_of_next? next).trans c.suffix_skipSpace)
    refine (yields_array (bracket ▸ next) fun _ => yields_readArray agrees inText read).mono ?_
    intro found _ holds
    obtain ⟨value, last⟩ := found
    obtain ⟨values, rfl, rfl, all⟩ := holds
    exact ⟨rfl, mapM_of_forall₂ all.flip⟩
  · exact absurd read (refuseToken_ne_ok _ _ _)

/-- Finite maps agree if their keys and values do. -/
theorem Agrees.dict [Ord κ] [Std.TransOrd κ] [Std.LawfulEqOrd κ] {key : KeyFormat κ}
    {format : Format ν} (agrees : format.Agrees) (keys : key.Agrees) :
    (dict key format).Agrees := by
  intro c d after inText read depth
  obtain ⟨⟨place, byte, behind⟩, token, read⟩ := exists_ok_of_bind read
  obtain ⟨rfl, next⟩ := nextToken_eq_ok_iff.1 token
  dsimp only at read
  split at read
  · rename_i brace
    obtain ⟨⟨entries, last⟩, inner, read⟩ := exists_ok_of_bind read
    cases read
    have inText := inText.forward ((Cursor.suffix_of_next? next).trans c.suffix_skipSpace)
    refine (yields_object (brace ▸ next) fun _ =>
      yields_readObject keys agrees inText inner).mono ?_
    intro found _ holds
    obtain ⟨value, last⟩ := found
    obtain ⟨members, rfl, rfl, all⟩ := holds
    obtain ⟨others, each, same⟩ := exists_sortMembers all
    refine ⟨rfl, ?_⟩
    -- In the order of their keys the members still make up the map that was read.
    have decoded : (sortMembers members).mapM (fun member => do
        let k ← key.decode member.1
        let v ← format.decode member.2
        .ok (k, v)) = .ok others := by
      refine mapM_of_forall₂ (each.flip.imp fun member entry stands => ?_)
      rw [stands.name, stands.content]
      rfl
    rw [← same]
    exact congrArg (· >>= fun entries => .ok (Dict.ofList entries)) decoded
  · exact absurd read (refuseToken_ne_ok _ _ _)

section Choice

variable {options : List (String × α)} {nameOf : α → String} {name : String} {a : α}

theorem exists_of_readName
    (read : (do
      let (name, c) ← string.read c
      match choose options name with
      | .ok value => (.ok (name, value, c) : Except Error (String × α × Cursor))
      | .error mismatch => c.refuse mismatch) = .ok (name, a, after)) :
    string.read c = .ok (name, after) ∧ choose options name = .ok a := by
  obtain ⟨⟨text, last⟩, inner, read⟩ := exists_ok_of_bind read
  dsimp only at read
  split at read
  · rename_i chosen
    cases read
    exact ⟨inner, chosen⟩
  · cases read

/-- A name is decoded alone or as the only key of an object. -/
theorem decode_choice (chosen : choose options name = .ok a) :
    (choice options nameOf).decode (.string name) = .ok a ∧
      (choice options nameOf).decode (.object (sortMembers [(name, .null)])) = .ok a := by
  constructor
  · simp only [choice, chosen]
  · show (choice options nameOf).decode (.object [(name, .null)]) = _
    simp only [choice, chosen]

/-- Under a name stands `null`. -/
theorem exists_of_readUnit
    (read : (do
      let (c, byte, after) ← nextToken c
      if byte = Ascii.lowerN then readNull after else refuseToken "unit" c) = .ok after) :
    ∃ behind, c.skipSpace.next? = some (Ascii.lowerN, behind) ∧ readNull behind = .ok after := by
  obtain ⟨⟨place, byte, behind⟩, token, read⟩ := exists_ok_of_bind read
  obtain ⟨rfl, next⟩ := nextToken_eq_ok_iff.1 token
  dsimp only at read
  split at read
  · rename_i letter
    exact ⟨behind, letter ▸ next, read⟩
  · exact absurd read (refuseToken_ne_ok _ _ _)

/-- Before its first key an object is at that key. -/
theorem eq_of_nextMember_true (next : nextMember true c = .ok (true, after)) :
    after = c.skipSpace ∧ ∃ behind, after.next? = some (Ascii.quote, behind) := by
  simp only [nextMember] at next
  split at next
  · cases next
  · rename_i byte behind found
    split at next
    · cases next
    · simp only [if_true] at next
      split at next
      · rename_i quote
        cases next
        exact ⟨rfl, behind, quote ▸ found⟩
      · cases next

/-- An object with a name as its only key, and `null` under it. -/
theorem readObject_unit {place behindName behindColon last : Cursor} {depth : Nat}
    (first : nextMember true c = .ok (true, place))
    (read : string.read place = .ok (name, behindName))
    (colon : readColon behindName = .ok behindColon)
    (null : behindColon.skipSpace.next? = some (Ascii.lowerN, behind))
    (word : readNull behind = .ok last)
    (close : last.skipSpace.next? = some (Ascii.closeBrace, after)) :
    readObject readKey id (readValue depth) c = .ok ([(name, .null)], after) := by
  obtain ⟨rfl, behindQuote, quote⟩ := eq_of_nextMember_true first
  obtain ⟨_, next, inner⟩ := exists_of_string_read read
  rw [Cursor.skipSpace_skipSpace, quote] at next
  cases next
  have key : readKey c.skipSpace = .ok (name, behindName) := by
    rw [readKey, Cursor.advance, quote]
    dsimp only
    rw [inner]
    rfl
  -- There is at least the quote, so that the fuel is enough for the end behind the one member.
  have length := c.suffix_skipSpace.length_le
  rw [Cursor.rest_of_next? quote, List.length_cons] at length
  obtain ⟨fuel, more⟩ := Nat.exists_eq_succ_of_ne_zero (n := c.rest.length) (by omega)
  have held : readValue depth behindColon = .ok (.null, last) :=
    readValue_eq_ok_iff.2 ⟨_, _, null, .null word⟩
  rw [readObject, readMembers, first, more]
  simp only [within_ok, bind, Except.bind, key, colon, held, readMembers, nextMember_end close,
    closeObject_end close]

/-- Named constants agree. -/
theorem agrees_choice (options : List (String × α)) (nameOf : α → String) :
    (choice options nameOf).Agrees := by
  intro c a after inText read depth
  obtain ⟨⟨place, byte, behind⟩, token, read⟩ := exists_ok_of_bind read
  obtain ⟨rfl, next⟩ := nextToken_eq_ok_iff.1 token
  dsimp only at read
  split at read
  · -- An object holds the name as its only key.
    rename_i brace
    obtain ⟨⟨goesOn, place⟩, first, read⟩ := exists_ok_of_bind read
    cases goesOn with
    | false =>
      obtain ⟨_, failed, _⟩ := exists_ok_of_bind read
      cases failed
    | true =>
      obtain ⟨⟨name, value, behindName⟩, readName, read⟩ := exists_ok_of_bind read
      obtain ⟨inner, chosen⟩ := exists_of_readName readName
      obtain ⟨behindColon, colon, read⟩ := exists_ok_of_bind read
      obtain ⟨last, unit, read⟩ := exists_ok_of_bind read
      obtain ⟨letter, null, word⟩ := exists_of_readUnit (mapError_eq_ok_iff.1 unit)
      dsimp only at read
      split at read
      · cases read
      · rename_i close
        split at read
        · rename_i isClose
          cases read
          have whole (depth : Nat) : readObject readKey id (readValue depth) behind = _ :=
            readObject_unit first inner colon null word (isClose ▸ close)
          refine (yields_object (brace ▸ next) fun depth => whole depth ▸ yields_ok rfl).mono ?_
          intro found _ holds
          obtain ⟨value, last⟩ := found
          obtain ⟨members, rfl, same⟩ := holds
          cases same
          exact ⟨rfl, (decode_choice chosen).2⟩
        · cases read
  · split at read
    · -- A string is the name.
      obtain ⟨⟨name, value, last⟩, readName, read⟩ := exists_ok_of_bind read
      cases read
      obtain ⟨inner, chosen⟩ := exists_of_readName readName
      obtain ⟨_, next, inner⟩ := exists_of_string_read inner
      rw [Cursor.skipSpace_skipSpace] at next
      rw [readValue_eq_ok_iff.2 ⟨_, _, next, .string inner⟩]
      exact yields_ok ⟨rfl, (decode_choice chosen).1⟩
    · cases read

end Choice

end Format

end MergeNotes.Json
