import MergeNotes.Proofs.Json.Advance
import MergeNotes.Proofs.Json.WellFormed

/-! Passing over a string or a number and reading it: what can be passed over is read up to the same
place, or it is refused for what a value cannot hold. -/

namespace MergeNotes.Json

variable {α β : Type} {c after : Cursor}

/-- What only the reading of a value refuses: depth, size, and surrogates without a partner. -/
def Defect.isExcess : Defect → Bool
  | .nestedTooDeep | .numberOutOfRange | .loneSurrogate | .endOfEscape => true
  | _ => false

/-- A refusal for what a value cannot hold. -/
def Error.IsExcess (error : Error) : Prop :=
  ∃ defect : Defect, error.fault = .grammar defect ∧ defect.isExcess = true

theorem Error.IsExcess.within {error : Error} (excess : error.IsExcess) (segment : Segment) :
    (error.within segment).IsExcess :=
  excess

/-- A result has a property, or it is a refusal for what a value cannot hold. -/
def Yields (result : Except Error α) (property : α → Prop) : Prop :=
  (∃ a, result = .ok a ∧ property a) ∨ ∃ error, result = .error error ∧ error.IsExcess

section Yields

variable {result : Except Error α} {property other : α → Prop}

theorem yields_ok {a : α} (holds : property a) : Yields (.ok a) property :=
  .inl ⟨a, rfl, holds⟩

theorem yields_fail {defect : Defect} (excess : defect.isExcess = true) (c : Cursor) :
    Yields (c.fail defect) property :=
  .inr ⟨_, rfl, defect, rfl, excess⟩

theorem Yields.mono (yields : Yields result property)
    (weaker : ∀ a, result = .ok a → property a → other a) : Yields result other := by
  obtain ⟨a, ok, holds⟩ | refused := yields
  · exact .inl ⟨a, ok, weaker a ok holds⟩
  · exact .inr refused

/-- A chain of two results yields what the second yields, given what the first does. -/
theorem Yields.bind {next : α → Except Error β} {last : β → Prop} (yields : Yields result property)
    (further : ∀ a, result = .ok a → property a → Yields (next a) last) :
    Yields (result >>= next) last := by
  obtain ⟨a, ok, holds⟩ | ⟨error, refused, excess⟩ := yields
  · rw [ok]
    exact further a ok holds
  · rw [refused]
    exact .inr ⟨error, rfl, excess⟩

/-- Seen from the whole, a part yields what it yields. -/
theorem Yields.within (yields : Yields result property) (segment : Segment) :
    Yields (Json.within segment result) property := by
  obtain ⟨a, ok, holds⟩ | ⟨error, refused, excess⟩ := yields
  · rw [ok]
    exact yields_ok holds
  · rw [refused]
    exact .inr ⟨error.within segment, rfl, excess.within segment⟩

end Yields

/-! A string that can be passed over is only refused for a surrogate without a partner. -/

/-- Where the passing over a string stands when its reading stands here. -/
def StringState.passed : StringState → SkipState
  | .plain | .high _ => .plain
  | .escape | .highEscape _ => .escape
  | .hex _ digits => .hex digits

/-- What four digits lead to is passed over, unless they stand for half a pair alone. -/
theorem unitStep_cases (high : Option Nat) (code : Nat) :
    (∃ state output, unitStep high code = .next state output ∧ state.passed = .plain) ∨
      unitStep high code = .bad .loneSurrogate := by
  rw [unitStep.eq_def]
  cases high with
  | none =>
    dsimp only
    split
    · exact .inr rfl
    split
    · exact .inl ⟨_, _, rfl, rfl⟩
    · exact .inl ⟨_, _, rfl, rfl⟩
  | some high =>
    dsimp only
    split
    · exact .inl ⟨_, _, rfl, rfl⟩
    · exact .inr rfl

/-- A byte that is passed over ends the string for its reading too, or leads its reading on to where
the passing over stands, or has no meaning in a value. -/
theorem stringStep_of_skip {state : StringState} {byte : UInt8} {rest : List UInt8}
    {position : Position} (skip : skipStringFrom state.passed (byte :: rest) position = .ok after) :
    stringStep state byte = .done ∧ after = ⟨rest, position.after byte⟩ ∨
      (∃ next output, stringStep state byte = .next next output ∧
        skipStringFrom next.passed rest (position.after byte) = .ok after) ∨
      ∃ defect, stringStep state byte = .bad defect ∧ defect.isExcess = true := by
  cases state with
  | plain =>
    simp only [StringState.passed, skipStringFrom] at skip
    split at skip
    · rename_i quote
      exact .inl ⟨if_pos quote, (Except.ok.inj skip).symm⟩
    split at skip
    · rename_i quote backslash
      exact .inr (.inl ⟨.escape, [], by rw [stringStep, if_neg quote, if_pos backslash], skip⟩)
    split at skip
    · cases skip
    · rename_i quote backslash control
      exact .inr (.inl ⟨.plain, [byte],
        by rw [stringStep, if_neg quote, if_neg backslash, if_neg control], skip⟩)
  | escape =>
    simp only [StringState.passed, skipStringFrom] at skip
    split at skip
    · rename_i letter
      exact .inr (.inl ⟨.hex none [], [], by rw [stringStep, if_pos letter], skip⟩)
    split at skip
    · rename_i letter escaped
      obtain ⟨meant, same⟩ := Option.isSome_iff_exists.1 escaped
      exact .inr (.inl ⟨.plain, [meant], by rw [stringStep, if_neg letter, same], skip⟩)
    · cases skip
  | hex high digits =>
    simp only [StringState.passed, skipStringFrom] at skip
    split at skip
    · rename_i short
      exact .inr (.inl ⟨.hex high (digits ++ [byte]), [], by rw [stringStep, if_pos short], skip⟩)
    split at skip
    · rename_i short value
      obtain ⟨code, same⟩ := Option.isSome_iff_exists.1 value
      have step : stringStep (.hex high digits) byte = unitStep high code := by
        rw [stringStep, if_neg short, same]
      obtain ⟨next, output, unit, passed⟩ | lone := unitStep_cases high code
      · exact .inr (.inl ⟨next, output, step.trans unit, passed ▸ skip⟩)
      · exact .inr (.inr ⟨.loneSurrogate, step.trans lone, rfl⟩)
    · cases skip
  | high high =>
    -- Only a second escape may follow on the first half of a pair.
    simp only [StringState.passed, skipStringFrom] at skip
    by_cases backslash : byte = Ascii.backslash
    · subst backslash
      exact .inr (.inl ⟨.highEscape high, [], rfl, skip⟩)
    · exact .inr (.inr ⟨.endOfEscape, if_neg backslash, rfl⟩)
  | highEscape high =>
    simp only [StringState.passed, skipStringFrom] at skip
    by_cases letter : byte = Ascii.lowerU
    · subst letter
      exact .inr (.inl ⟨.hex (some high) [], [], rfl, skip⟩)
    · exact .inr (.inr ⟨.endOfEscape, if_neg letter, rfl⟩)

/-- A string that can be passed over ends at the same place for its reading. -/
theorem yields_readStringFrom {state : StringState} {found bytes : List UInt8}
    {position : Position} (skip : skipStringFrom state.passed bytes position = .ok after) :
    Yields (readStringFrom state found bytes position) fun read => read.2 = after := by
  induction bytes generalizing state found position with
  | nil => cases skip
  | cons byte bytes ih =>
    rw [readStringFrom]
    obtain ⟨done, rfl⟩ | ⟨next, output, step, skip⟩ | ⟨defect, bad, excess⟩ :=
      stringStep_of_skip skip
    · -- The quote ends both.
      rw [done]
      exact yields_ok rfl
    · rw [step]
      exact ih skip
    · -- The reading stops here, at half a pair of surrogates.
      rw [bad]
      exact yields_fail excess _

/-- Behind its opening quote a string can be read that can be passed over. -/
theorem yields_readString (inText : c.InText) {byte : UInt8} {behind : Cursor}
    (next : c.next? = some (byte, behind)) (ascii : byte < 0x80)
    (skip : skipString behind = .ok after) :
    Yields (readString behind) fun read => read.2 = after := by
  obtain ⟨text, suffix⟩ := inText
  rw [Cursor.rest_of_next? next] at suffix
  obtain ⟨more, rest⟩ := exists_encode_of_suffix suffix ascii
  have yields : Yields (readStringFrom .plain [] behind.rest behind.position) _ :=
    yields_readStringFrom skip
  refine yields.bind ?_
  intro read run same
  obtain ⟨data, last⟩ := read
  rw [rest] at run
  -- What the string stands for is well-formed, so that it is not refused for its bytes.
  have empty : [].reverse = Utf8.encode [] := rfl
  obtain ⟨chars, whole⟩ := exists_encode_of_readStringFrom empty run
  dsimp only at whole ⊢
  rw [whole, Utf8.decode?_encode]
  exact yields_ok same

theorem yields_readKey (inText : c.InText) {behind : Cursor}
    (quote : c.next? = some (Ascii.quote, behind)) (skip : skipString behind = .ok after) :
    Yields (readKey c) fun read => read.2 = after := by
  rw [readKey, Cursor.advance, quote]
  exact (yields_readString inText quote (by decide) skip).within .unknown

/-! A number that can be passed over is only refused for its size. -/

/-- The first of the digits that are taken is the next byte. -/
theorem next?_of_takeDigits {digit : Nat} {digits : List Nat}
    (taken : takeDigits c = (digit :: digits, after)) :
    ∃ byte behind, c.next? = some (byte, behind) ∧ Ascii.digit? byte = some digit ∧
      takeDigits behind = (digits, after) := by
  obtain ⟨rest, position⟩ := c
  rw [takeDigits] at taken
  cases rest with
  | nil => cases taken
  | cons byte rest =>
    rw [takeDigits.go] at taken
    split at taken
    · cases taken
    · rename_i found
      obtain ⟨same, last⟩ := Prod.mk.inj taken
      obtain ⟨rfl, rest⟩ := List.cons.inj same
      exact ⟨byte, _, rfl, found, Prod.ext rest last⟩

/-- The digits of an exponent end where they end for any other number, also those beyond 32 bits. -/
theorem readExponentDigits_spec (total : Nat) (bytes : List UInt8) (position : Position) :
    (∃ value, readExponentDigits total bytes position =
        (.inl value, (takeDigits ⟨bytes, position⟩).2)) ∨
      ∃ place, readExponentDigits total bytes position = (.inr (), place) ∧
        (takeDigits place).2 = (takeDigits ⟨bytes, position⟩).2 := by
  induction bytes generalizing total position with
  | nil => exact .inl ⟨total, rfl⟩
  | cons byte bytes ih =>
    rw [readExponentDigits, takeDigits, takeDigits.go]
    split
    · exact .inl ⟨total, rfl⟩
    · split
      · exact ih _ _
      · exact .inr ⟨_, rfl, rfl⟩

theorem yields_readScaled (negative : Bool) (significand : Nat) (exponent : Int) (c : Cursor) :
    Yields (readScaled negative significand exponent c) fun read => read.2 = c := by
  rw [readScaled]
  split
  · exact yields_ok rfl
  · exact yields_fail rfl c

/-- Digits that are passed over stand behind the sign of an exponent. -/
theorem exists_digits_of_skipExponent (skip : skipExponent c = .ok after) :
    ∃ digit digits, takeDigits (exponentSign c).2 = (digit :: digits, after) := by
  rw [skipExponent] at skip
  rw [exponentSign]
  split at skip
  · cases skip
  · rename_i found last some taken
    cases skip
    cases found with
    | nil => exact absurd rfl some
    | cons digit digits =>
      refine ⟨digit, digits, ?_⟩
      rw [← taken]
      split <;> simp only [*]

theorem yields_readExponent {negative : Bool} {significand : Nat} {exponent : Int}
    (skip : skipExponent c = .ok after) :
    Yields (readExponent negative significand exponent c) fun read => read.2 = after := by
  obtain ⟨digit, digits, taken⟩ := exists_digits_of_skipExponent skip
  obtain ⟨byte, behind, next, first, taken⟩ := next?_of_takeDigits taken
  rw [readExponent_eq, next]
  dsimp only
  rw [first]
  dsimp only
  obtain ⟨value, ended⟩ | ⟨place, ended, same⟩ :=
    readExponentDigits_spec digit behind.rest behind.position
  · rw [ended, taken]
    exact yields_readScaled _ _ _ _
  · -- Beyond 32 bits the digits are passed over by both.
    rw [ended]
    dsimp only
    split
    · exact yields_fail rfl _
    · exact yields_ok (same.trans (congrArg Prod.snd taken))

/-- A number that can be passed over ends at the same place for its reading. -/
theorem yields_readNumber {negative : Bool} (skip : skipNumber c = .ok after) :
    Yields (readNumber negative c) fun read => read.2 = after := by
  rw [skipNumber] at skip
  rw [readNumber]
  -- The digits before the point are taken by both.
  split at skip
  · cases skip
  · cases skip
  · generalize appendDigits UInt64.size 0 _ = significand
    obtain ⟨significand, dropped⟩ := significand
    dsimp only
    split at skip
    · split at skip
      · cases skip
      · -- There are digits behind the point, and there may be an exponent.
        rename_i digits _ nonempty taken
        have some : digits.isEmpty = false := List.isEmpty_eq_false_iff.2 nonempty
        rw [readFraction, taken]
        dsimp only
        rw [if_neg (Bool.eq_false_iff.1 some)]
        split at skip
        · exact yields_readExponent skip
        · exact yields_readExponent skip
        · cases skip
          exact yields_readScaled _ _ _ _
    · exact yields_readExponent skip
    · exact yields_readExponent skip
    · cases skip
      split
      · exact yields_ok rfl
      · exact yields_readScaled _ _ _ _

end MergeNotes.Json
