import MergeNotes.Json.Record
import MergeNotes.Proofs.Dict
import MergeNotes.Proofs.Result

/-! Members out of order: the value of an object holds its members in the order of their keys, of
several with one key the last, and this makes no difference to what is decoded of them. -/

namespace MergeNotes.Json

namespace Fields

variable {σ γ : Type} {fields : Fields σ γ} {key other : String} {content held : Value}
  {slots middle last : σ} {members : List (String × Value)}

/-- A member fills the empty slot of its field, or goes to the fields behind. -/
theorem decodeMember_field_eq_ok_iff {α : Type} {name : String} {format : Format α}
    {absent slot : Option α} {found : Option α × σ} :
    (field name format absent fields).decodeMember key content (slot, slots) = .ok found ↔
      (key = name ∧ slot = Option.none ∧
        ∃ value, format.decode content = .ok value ∧ found = (some value, slots)) ∨
      (key ≠ name ∧ ∃ others, fields.decodeMember key content slots = .ok others ∧
        found = (slot, others)) := by
  by_cases mine : key = name
  · -- The slot of its own field must be empty.
    cases slot with
    | none =>
      simp only [decodeMember, mine, ne_eq, not_true_eq_false, false_and, or_false,
        true_and]
      cases format.decode content <;> simp [Except.map, eq_comm]
    | some _ => simp [decodeMember, mine, mismatch]
  · simp only [decodeMember, mine, false_and, false_or, ne_eq, not_false_eq_true, true_and]
    cases fields.decodeMember key content slots <;> simp [Except.map, eq_comm]

/-- Two members that are decoded one after the other are decoded in the other order too. -/
theorem decodeMember_swap (first : fields.decodeMember key content slots = .ok middle)
    (second : fields.decodeMember other held middle = .ok last) :
    ∃ between, fields.decodeMember other held slots = .ok between ∧
      fields.decodeMember key content between = .ok last := by
  induction fields with
  | none => exact ⟨(), rfl, rfl⟩
  | field name format absent rest ih =>
    obtain ⟨slot, slots⟩ := slots
    obtain ⟨mine, rfl, value, decoded, rfl⟩ | ⟨apart, others, earlier, rfl⟩ :=
      decodeMember_field_eq_ok_iff.1 first
    · obtain ⟨_, taken, _⟩ | ⟨apart, others, later, rfl⟩ := decodeMember_field_eq_ok_iff.1 second
      · -- A field is not found twice.
        cases taken
      · -- The first is that of this field, and the second is not.
        exact ⟨(Option.none, others),
          decodeMember_field_eq_ok_iff.2 (.inr ⟨apart, others, later, rfl⟩),
          decodeMember_field_eq_ok_iff.2 (.inl ⟨mine, rfl, value, decoded, rfl⟩)⟩
    · obtain ⟨mine, rfl, value, decoded, rfl⟩ | ⟨alsoApart, more, later, rfl⟩ :=
        decodeMember_field_eq_ok_iff.1 second
      · -- The second is that of this field, and the first is not.
        exact ⟨(some value, slots),
          decodeMember_field_eq_ok_iff.2 (.inl ⟨mine, rfl, value, decoded, rfl⟩),
          decodeMember_field_eq_ok_iff.2 (.inr ⟨apart, others, earlier, rfl⟩)⟩
      · -- Neither is, so that both go to the fields behind.
        obtain ⟨between, before, behind⟩ := ih earlier later
        exact ⟨(slot, between),
          decodeMember_field_eq_ok_iff.2 (.inr ⟨alsoApart, between, before, rfl⟩),
          decodeMember_field_eq_ok_iff.2 (.inr ⟨apart, more, behind, rfl⟩)⟩

/-- A key that is decoded twice is that of no field, so that nothing was found by it. -/
theorem eq_of_decodeMember_twice (first : fields.decodeMember key content slots = .ok middle)
    (second : fields.decodeMember key held middle = .ok last) : middle = slots := by
  induction fields with
  | none => rfl
  | field name format absent rest ih =>
    obtain ⟨slot, slots⟩ := slots
    obtain ⟨mine, _, value, _, rfl⟩ | ⟨apart, others, earlier, rfl⟩ :=
      decodeMember_field_eq_ok_iff.1 first
    · obtain ⟨_, taken, _⟩ | ⟨apart, _⟩ := decodeMember_field_eq_ok_iff.1 second
      · cases taken
      · exact absurd mine apart
    · obtain ⟨mine, _⟩ | ⟨_, more, later, _⟩ := decodeMember_field_eq_ok_iff.1 second
      · exact absurd mine apart
      · rw [ih earlier later]

theorem decodeMembers_cons_eq_ok_iff {member : String × Value} :
    fields.decodeMembers slots (member :: members) = .ok last ↔
      ∃ middle, fields.decodeMember member.1 member.2 slots = .ok middle ∧
        fields.decodeMembers middle members = .ok last := by
  rw [decodeMembers]
  cases fields.decodeMember member.1 member.2 slots with
  | error error => simp
  | ok middle => simp

theorem decodeMembers_append_eq_ok_iff {others : List (String × Value)} :
    fields.decodeMembers slots (members ++ others) = .ok last ↔
      ∃ middle, fields.decodeMembers slots members = .ok middle ∧
        fields.decodeMembers middle others = .ok last := by
  induction members generalizing slots with
  | nil => simp [decodeMembers]
  | cons member members ih =>
    simp only [List.cons_append, decodeMembers_cons_eq_ok_iff, ih]
    constructor
    · intro decodes
      obtain ⟨first, decoded, middle, rest, others⟩ := decodes
      exact ⟨middle, ⟨first, decoded, rest⟩, others⟩
    · intro decodes
      obtain ⟨middle, ⟨first, decoded, rest⟩, others⟩ := decodes
      exact ⟨first, decoded, middle, rest, others⟩

/-- The last member may as well come first. -/
theorem decodeMembers_last {member : String × Value}
    (decoded : fields.decodeMembers slots (members ++ [member]) = .ok last) :
    fields.decodeMembers slots (member :: members) = .ok last := by
  induction members generalizing slots with
  | nil => exact decoded
  | cons head members ih =>
    obtain ⟨middle, first, rest⟩ := decodeMembers_cons_eq_ok_iff.1 decoded
    obtain ⟨between, second, rest⟩ := decodeMembers_cons_eq_ok_iff.1 (ih rest)
    obtain ⟨swapped, before, behind⟩ := decodeMember_swap first second
    exact decodeMembers_cons_eq_ok_iff.2
      ⟨swapped, before, decodeMembers_cons_eq_ok_iff.2 ⟨between, behind, rest⟩⟩

/-- The last member may as well stand in the place of its key. -/
theorem decodeMembers_insertEntry
    (decoded : fields.decodeMembers slots (members ++ [(key, content)]) = .ok last) :
    fields.decodeMembers slots (insertEntry key content members) = .ok last := by
  induction members generalizing slots with
  | nil => exact decoded
  | cons head members ih =>
    obtain ⟨middle, first, rest⟩ := decodeMembers_cons_eq_ok_iff.1 decoded
    rw [insertEntry]
    split
    · -- Its place is before all that are left.
      exact decodeMembers_last decoded
    · -- The earlier member with this key was not a field, and is not missed.
      rename_i same
      obtain ⟨between, second, others⟩ := decodeMembers_cons_eq_ok_iff.1 (decodeMembers_last rest)
      rw [Std.LawfulEqCmp.eq_of_compare same] at second ⊢
      rw [eq_of_decodeMember_twice first second] at second
      exact decodeMembers_cons_eq_ok_iff.2 ⟨between, second, others⟩
    · exact decodeMembers_cons_eq_ok_iff.2 ⟨middle, first, ih rest⟩

/-- Members that are decoded as they come are decoded in the order of their keys. -/
theorem decodeMembers_sortMembers (decoded : fields.decodeMembers slots members = .ok last) :
    fields.decodeMembers slots (sortMembers members) = .ok last := by
  have general : ∀ sorted, fields.decodeMembers slots (sorted ++ members) = .ok last →
      fields.decodeMembers slots
        (members.foldl (fun sorted member => insertEntry member.1 member.2 sorted) sorted) =
          .ok last := by
    clear decoded
    induction members with
    | nil =>
      intro sorted decoded
      rwa [List.append_nil] at decoded
    | cons member members ih =>
      intro sorted decoded
      rw [List.append_cons] at decoded
      obtain ⟨middle, first, rest⟩ := decodeMembers_append_eq_ok_iff.1 decoded
      exact ih _ (decodeMembers_append_eq_ok_iff.2 ⟨middle, decodeMembers_insertEntry first, rest⟩)
  exact general [] decoded

end Fields

section Dict

variable {κ ν : Type}

/-- A member stands for an entry: its key is the text of the entry's key, and both are decoded as
what the entry holds. -/
structure StandsFor (key : KeyFormat κ) (format : Format ν) (entry : κ × ν)
    (member : String × Value) : Prop where
  text : member.1 = key.text entry.1
  name : key.decode member.1 = .ok entry.1
  content : format.decode member.2 = .ok entry.2

variable {key : KeyFormat κ} {format : Format ν} {entries : List (κ × ν)}
  {members : List (String × Value)}

/-- No entry has the key of a member that comes before all of theirs. -/
theorem not_mem_of_before (each : List.Forall₂ (StandsFor key format) entries members)
    {entry : κ × ν} {member : String × Value} (stands : StandsFor key format entry member)
    (before : ∀ later ∈ members, compare member.1 later.1 = .lt) :
    entry.1 ∉ entries.map (·.1) := by
  induction each with
  | nil => exact List.not_mem_nil
  | @cons head first entries members matched _ ih =>
    obtain ⟨earlier, later⟩ := List.forall_mem_cons.1 before
    rw [List.map_cons, List.mem_cons, not_or]
    refine ⟨fun same => ?_, ih later⟩
    -- Equal keys have equal texts, and no text comes before itself.
    rw [stands.text, matched.text, same, @Std.ReflCmp.compare_self String compare] at earlier
    cases earlier

variable [Ord κ] [Std.TransOrd κ] [Std.LawfulEqOrd κ]

/-- A member in the place of its key stands for an entry that is set behind all others. -/
theorem exists_insertEntry (each : List.Forall₂ (StandsFor key format) entries members)
    (ascending : Ascending members) {entry : κ × ν} {member : String × Value}
    (stands : StandsFor key format entry member) :
    ∃ others, List.Forall₂ (StandsFor key format) others (insertEntry member.1 member.2 members) ∧
      ∀ dict : Dict κ ν,
        dict.insertAll others = (dict.insertAll entries).insert entry.1 entry.2 := by
  induction each with
  | nil => exact ⟨[entry], .cons stands .nil, fun _ => rfl⟩
  | @cons head first entries members matched rest ih =>
    obtain ⟨least, ascending⟩ := List.pairwise_cons.1 ascending
    rw [insertEntry]
    split
    · -- Before all others: the entry is none of theirs, and may as well be set first.
      rename_i before
      have fresh := not_mem_of_before (.cons matched rest) stands
        (List.forall_mem_cons.2 ⟨before, fun later present =>
          Std.TransCmp.lt_trans before (least later present)⟩)
      exact ⟨entry :: head :: entries, .cons stands (.cons matched rest), fun dict =>
        dict.insertAll_insert entry.2 fresh⟩
    · -- In the place of another: the entry takes that of its own.
      rename_i same
      have same := Std.LawfulEqCmp.eq_of_compare same
      have fresh := not_mem_of_before rest stands fun later present => same ▸ least later present
      have key : entry.1 = head.1 := by
        have decoded := matched.name
        rw [← same, stands.name] at decoded
        exact Except.ok.inj decoded
      refine ⟨entry :: entries, .cons stands rest, fun dict => ?_⟩
      show (dict.insert entry.1 entry.2).insertAll entries = _
      rw [← dict.insert_insert_self entry.1 head.2, Dict.insertAll_insert _ _ fresh, key]
      rfl
    · -- Behind the first: the entry goes to its place among the others.
      obtain ⟨others, each, whole⟩ := ih ascending
      exact ⟨head :: others, .cons matched each, fun dict => whole (dict.insert head.1 head.2)⟩

/-- Members in the order of their keys make up the same map as in the order they came. -/
theorem exists_sortMembers (each : List.Forall₂ (StandsFor key format) entries members) :
    ∃ others, List.Forall₂ (StandsFor key format) others (sortMembers members) ∧
      Dict.ofList others = Dict.ofList entries := by
  have general : ∀ (known : List (κ × ν)) (sorted : List (String × Value)),
      List.Forall₂ (StandsFor key format) known sorted → Ascending sorted →
      ∃ others, List.Forall₂ (StandsFor key format) others
        (members.foldl (fun sorted member => insertEntry member.1 member.2 sorted) sorted) ∧
        Dict.empty.insertAll others = (Dict.empty.insertAll known).insertAll entries := by
    induction each with
    | nil => exact fun known sorted found _ => ⟨known, found, rfl⟩
    | cons stands _ ih =>
      intro known sorted found ascending
      obtain ⟨more, found, whole⟩ := exists_insertEntry found ascending stands
      obtain ⟨others, last, same⟩ := ih more _ found (ascending_insertEntry ascending)
      refine ⟨others, last, ?_⟩
      rw [same, whole]
      rfl
  exact general [] [] .nil List.Pairwise.nil

end Dict

end MergeNotes.Json
