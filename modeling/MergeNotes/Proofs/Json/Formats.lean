import Mathlib.Data.List.Nodup
import MergeNotes.Proofs.Json.Values

/-! What a format writes it reads and decodes again, whatever the order of members. -/

namespace MergeNotes.Json

variable {α β κ ν : Type}

/-- What a format writes of a value can be read, and is read and decoded as that value, in whatever
order the members of objects come. -/
structure Format.Keeps (format : Format α) (depth : Nat) (a : α) : Prop where
  readable : (format.encode a).IsReadable depth
  reads {value : Value} (same : value.Rearranges (format.encode a)) :
    Reads format.read value.bytes a
  decodes {value : Value} (same : value.Rearranges (format.encode a)) : format.decode value = .ok a

theorem nextToken_cons {byte : UInt8} (glyph : Cursor.isSpace byte = false) (rest : List UInt8)
    (position : Position) :
    nextToken ⟨byte :: rest, position⟩ =
      .ok (⟨byte :: rest, position⟩, byte, ⟨rest, position.after byte⟩) := by
  rw [nextToken, Cursor.skipSpace_cons glyph]
  rfl

/-- Working through a list yields what it yields for each item. -/
theorem mapM_of_forall₂ {ε : Type} {f : α → Except ε β} {items : List α} {founds : List β}
    (each : List.Forall₂ (fun item found => f item = .ok found) items founds) :
    items.mapM f = .ok founds := by
  induction each with
  | nil => rfl
  | cons first _ ih => rw [List.mapM_cons, first, ih]; rfl

namespace Format

/-- A type that stands for another one is kept as that is. -/
theorem Keeps.transport {format : Format α} {depth : Nat} {make : α → β} {parts : β → α} {b : β}
    (keeps : format.Keeps depth (parts b)) (made : make (parts b) = b) :
    (format.transport make parts).Keeps depth b where
  readable := keeps.readable
  reads same := by
    intro rest position delimited
    show (format.read _).map _ = _
    rw [keeps.reads same rest position delimited]
    simp only [Except.map, made]
  decodes same := by
    show (format.decode _).map make = _
    rw [keeps.decodes same, Except.map, made]

/-- Strings are kept. -/
theorem keeps_string (depth : Nat) (text : String) : string.Keeps depth text where
  readable := by cases depth <;> trivial
  reads same := by
    cases same
    intro rest position delimited
    have reads := reads_readString text rest (position.after Ascii.quote) delimited
    rw [bytes_string, keyBytes_eq, List.cons_append]
    exact reads
  decodes same := by
    cases same
    rfl

/-- Naturals are kept below the limit of their type, if 64 bits hold them. -/
theorem keeps_natural (name : String) {limit n : Nat} (small : n < limit)
    (bounded : limit ≤ UInt64.size) (depth : Nat) : (natural name limit).Keeps depth n where
  readable := by cases depth <;> exact Nat.lt_of_lt_of_le small bounded
  reads same := by
    cases same
    intro rest position delimited
    have fits : fitNumber name limit (.natural n) = .ok n := if_pos small
    have reads : Reads (readNumber false) (Value.number (.natural n)).bytes (.natural n) :=
      reads_readNumber false (Nat.lt_of_lt_of_le small bounded)
    have reads := reads rest position delimited
    -- The token begins with a digit, so that a number without sign is read.
    obtain ⟨digit, single, more, bytes⟩ := exists_bytes_natural n
    obtain ⟨glyph, other⟩ := digitByte_spec single
    rw [bytes] at reads ⊢
    simp only [natural, List.cons_append, nextToken_cons glyph, digit?_digitByte single,
      Option.isSome_some, if_true, if_neg (other Ascii.minus (by decide)), bind, Except.bind]
    rw [List.cons_append] at reads
    simp only [reads, fits]
  decodes same := by
    cases same
    have fits : fitNumber name limit (.natural n) = .ok n := if_pos small
    simp only [natural, fits]

/-- Words of 32 bits are kept. -/
theorem keeps_u32 (depth : Nat) (n : UInt32) : u32.Keeps depth n :=
  (keeps_natural "u32" n.toNat_lt (by decide) depth).transport UInt32.ofNat_toNat

/-- Words of 64 bits are kept. -/
theorem keeps_u64 (depth : Nat) (n : UInt64) : u64.Keeps depth n :=
  (keeps_natural "u64" n.toNat_lt (by decide) depth).transport UInt64.ofNat_toNat

/-- An absent value is kept, and one that is present if its format keeps it and never writes what
stands for an absent one. -/
theorem keeps_option {format : Format α} {depth : Nat} (keeps : ∀ a, format.Keeps depth a)
    (present : ∀ a, format.encode a ≠ .null) (a : Option α) : (option format).Keeps depth a := by
  cases a with
  | none =>
    refine ⟨by cases depth <;> trivial, fun same => ?_, fun same => ?_⟩
    · cases same
      exact fun rest position _ => rfl
    · cases same
      rfl
  | some a =>
    -- A value that is the same but for order is no more absent than what was written.
    have other : ∀ {value : Value}, value.Rearranges (format.encode a) → value ≠ .null := by
      rintro value same rfl
      generalize written : format.encode a = whole at same
      cases same
      exact present a written
    refine ⟨(keeps a).readable, fun same => ?_, fun same => ?_⟩
    · intro rest position delimited
      have reads := (keeps a).reads same rest position delimited
      obtain ⟨byte, more, bytes, glyph, _, null⟩ :=
        exists_bytes (same.isReadable (keeps a).readable)
      rw [bytes] at reads ⊢
      -- Only `null` begins with its letter.
      have letter : byte ≠ Ascii.lowerN := fun letter => other same (null letter)
      rw [List.cons_append] at reads
      simp only [option, List.cons_append, Cursor.skipSpace_cons glyph, Cursor.next?_cons]
      split
      · rename_i head
        simp only [Option.some.injEq, Prod.mk.injEq] at head
        exact absurd head.1 letter
      · simp only [reads]
        rfl
    · have decoded := (keeps a).decodes same
      have absent := other same
      simp only [option]
      rw [decoded]
      rfl

/-- Lists are kept, if each of their items is. -/
theorem keeps_list {format : Format α} {depth : Nat} (keeps : ∀ a, format.Keeps depth a)
    (values : List α) : (list format).Keeps (depth + 1) values := by
  have readable : (Value.array (values.map format.encode)).IsReadable (depth + 1) :=
    List.forall_mem_map.2 fun a _ => (keeps a).readable
  refine ⟨readable, fun same => ?_, fun same => ?_⟩
  · -- The items of the other array are read, and begin as values do.
    have items := same.isReadable readable
    cases same with
    | array each =>
      intro rest position delimited
      have begin := List.forall_mem_map.2 fun item member => begins_bytes (items item member)
      have founds := (List.forall₂_map_right_iff.1 each).imp fun _ a same => (keeps a).reads same
      have reads := reads_readArray begin (List.forall₂_map_left_iff.2 founds) rest
        (position.after Ascii.openBracket) delimited
      rw [bytes_array, List.cons_append]
      exact reads
  · cases same with
    | array each =>
      exact mapM_of_forall₂ ((List.forall₂_map_right_iff.1 each).imp fun _ a same =>
        (keeps a).decodes same)

/-- Named constants are kept, if each name is that of one of the options. -/
theorem keeps_choice {options : List (String × α)} {nameOf : α → String}
    (named : ∀ a, options.lookup (nameOf a) = some a) (depth : Nat) (a : α) :
    (choice options nameOf).Keeps depth a where
  readable := by cases depth <;> trivial
  reads same := by
    cases same
    intro rest position delimited
    have reads := (keeps_string depth (nameOf a)).reads (.string _) rest position delimited
    have chosen : choose options (nameOf a) = .ok a := by
      rw [choose, named]
    rw [bytes_string, keyBytes_eq, List.cons_append] at reads ⊢
    have glyph : Cursor.isSpace Ascii.quote = false := rfl
    simp only [choice, nextToken_cons glyph, bind, Except.bind, reads, chosen]
    rfl
  decodes same := by
    cases same
    simp only [choice, choose, named]

end Format

/-- A key is read and decoded from the text that stands for it. -/
structure KeyFormat.Keeps (key : KeyFormat κ) (k : κ) : Prop where
  reads : Reads key.read (keyBytes (key.text k)) k
  decodes : key.decode (key.text k) = .ok k

namespace KeyFormat

theorem keeps_string (text : String) : string.Keeps text where
  reads := reads_key text
  decodes := rfl

/-- A decimal number needs no escapes. -/
theorem keyBytes_decimal (n : Nat) :
    keyBytes (decimal n) =
      Ascii.quote :: ((Value.number (.natural n)).bytes ++ [Ascii.quote]) := by
  have single : ∀ digit < 10, printChar (Nat.digitChar digit) = [Nat.digitChar digit] := by decide
  have plain : (decimalDigits n).flatMap printChar = decimalDigits n := by
    rw [Url.decimalDigits_eq]
    refine (List.flatMap_congr fun c member => ?_).trans (List.flatMap_singleton' _)
    obtain ⟨digit, small, rfl⟩ := Url.exists_digit_of_mem_toDigits (by omega) member
    exact single digit small
  rw [keyBytes_eq, decimal, String.toList_ofList, plain]
  rfl

theorem keeps_u32 (n : UInt32) : u32.Keeps n := by
  have reads := (Format.keeps_u32 0 n).reads (.refl _)
  change Reads Format.u32.read (Value.number (.natural n.toNat)).bytes n at reads
  obtain ⟨digit, small, more, bytes⟩ := exists_bytes_natural n.toNat
  have begins : beginsNumber (digitByte digit) = true := by
    rw [beginsNumber, digit?_digitByte small]
    exact Bool.or_true _
  constructor
  · -- Inside the quotes a number is read, which the closing quote delimits.
    intro rest position delimited
    have found := reads (Ascii.quote :: rest) (position.after Ascii.quote)
      (delimited_cons rest (by decide))
    rw [show u32.text n = decimal n.toNat from rfl, keyBytes_decimal]
    rw [bytes, List.cons_append] at found ⊢
    simp only [u32, List.cons_append, List.append_assoc, List.nil_append, Cursor.advance_cons,
      Cursor.next?_cons, begins, found]
    simp only [Position.past_cons, Position.past_append, Position.past_nil]
    rfl
  · -- Without the quotes the number is the whole text.
    have found := reads [] ⟨1, 0⟩ delimited_nil
    have text : Utf8.bytes (decimal n.toNat) = (Value.number (.natural n.toNat)).bytes := by
      rw [Utf8.bytes, decimal, String.toList_ofList]
      rfl
    rw [List.append_nil] at found
    simp only [u32, text, Cursor.start]
    rw [bytes] at found ⊢
    simp only [Cursor.peek?_cons, begins, found, bind, Except.bind]
    rfl

theorem injective_text {key : KeyFormat κ} (keys : ∀ k, key.Keeps k) :
    Function.Injective key.text := by
  intro k other same
  have decoded := (keys k).decodes
  rw [same, (keys other).decodes] at decoded
  exact (Except.ok.inj decoded).symm

end KeyFormat

namespace Format

section Dict

variable [Ord κ] [Std.TransOrd κ] [Std.LawfulEqOrd κ] {key : KeyFormat κ} {format : Format ν}

/-- The members of an object that is a map but for order are its entries in some order. -/
theorem exists_entries {d : Dict κ ν} {members : List (String × Value)}
    (same : (Value.object members).Rearranges ((dict key format).encode d)) :
    ∃ entries : List (κ × ν), entries.Perm d.entries ∧
      List.Forall₂ (fun member entry => member.1 = key.text entry.1 ∧
        member.2.Rearranges (format.encode entry.2)) members entries := by
  obtain ⟨arranged, each, order⟩ := rearranges_object_iff.1 same
  -- The order in which the members were arranged is one of the entries they were written of.
  have written : List.Forall₂
      (fun member entry => member = (key.text entry.1, format.encode entry.2))
      (d.entries.map fun entry => (key.text entry.1, format.encode entry.2)) d.entries :=
    List.forall₂_map_left_iff.2 (List.forall₂_same.2 fun _ _ => rfl)
  obtain ⟨entries, matched, moved⟩ := List.perm_comp_forall₂ order written
  have whole := List.forall₂_map_right_iff.2 matched
  rw [List.forall₂_eq_eq_eq] at whole
  rw [whole] at each
  exact ⟨entries, moved, List.forall₂_map_right_iff.1 each⟩

/-- Finite maps are kept, if their keys and values are. -/
theorem keeps_dict {depth : Nat} (keys : ∀ k, key.Keeps k) (keeps : ∀ v, format.Keeps depth v)
    (d : Dict κ ν) : (dict key format).Keeps (depth + 1) d := by
  refine ⟨⟨?_, List.forall_mem_map.2 fun entry _ => (keeps entry.2).readable⟩, fun same => ?_,
    fun same => ?_⟩
  · -- The keys differ, and so do their texts.
    have distinct := List.Nodup.map (KeyFormat.injective_text keys) d.ascending.nodup
    rw [List.map_map] at distinct ⊢
    exact distinct
  · cases same with
    | @object members _ _ names each order =>
      obtain ⟨entries, moved, each⟩ := exists_entries (.object names each order)
      intro rest position delimited
      -- Each member is read as its entry, and the entries in any order make up the map.
      have found : List.Forall₂ (fun member entry =>
          Reads key.read (Value.memberBytes member).1 entry.1 ∧
            Reads format.read (Value.memberBytes member).2 entry.2) members entries := by
        refine each.imp fun member entry same => ⟨?_, (keeps entry.2).reads same.2⟩
        rw [Value.memberBytes, same.1]
        exact (keys entry.1).reads
      have reads := reads_readObject key.text (isQuoted_memberBytes members)
        (List.forall₂_map_left_iff.2 found) rest (position.after Ascii.openBrace) delimited
      have glyph : Cursor.isSpace Ascii.openBrace = false := rfl
      rw [bytes_object, List.cons_append]
      simp only [dict, nextToken_cons glyph, if_true, reads, bind, Except.bind,
        Dict.ofList_of_perm moved, Position.past_cons]
  · cases same with
    | @object members _ _ names each order =>
      obtain ⟨entries, moved, each⟩ := exists_entries (.object names each order)
      have decoded : members.mapM (fun member => do
          let k ← key.decode member.1
          let v ← format.decode member.2
          .ok (k, v)) = .ok entries := by
        refine mapM_of_forall₂ (each.imp fun member entry same => ?_)
        rw [same.1, (keys entry.1).decodes, (keeps entry.2).decodes same.2]
        rfl
      refine (congrArg (· >>= fun entries => .ok (Dict.ofList entries)) decoded).trans ?_
      exact congrArg Except.ok (Dict.ofList_of_perm moved)

end Dict

end Format

end MergeNotes.Json
