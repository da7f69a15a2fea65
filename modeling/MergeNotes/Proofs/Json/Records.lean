import MergeNotes.Json.Record
import MergeNotes.Proofs.Json.Formats

/-! Records are read and decoded member by member, each of which fills the slot of its field. -/

namespace MergeNotes.Json

namespace Fields

variable {σ γ : Type}

/-- The names of the fields. -/
def names {σ γ : Type} : Fields σ γ → List String
  | none => []
  | field name _ _ rest => name :: rest.names

/-- Every field keeps its value. -/
def Keep (depth : Nat) {σ γ : Type} : Fields σ γ → γ → Prop
  | none, () => True
  | field _ format _ rest, (value, values) => format.Keeps depth value ∧ rest.Keep depth values

/-- The slots once the fields with these names were found. -/
def pick (found : List String) {σ γ : Type} : Fields σ γ → γ → σ
  | none, () => ()
  | field name _ _ rest, (value, values) =>
    (if name ∈ found then some value else Option.none, rest.pick found values)

theorem map_encode (fields : Fields σ γ) (values : γ) :
    (fields.encode values).map (·.1) = fields.names := by
  induction fields with
  | none => rfl
  | field name format absent rest ih => exact congrArg (name :: ·) (ih values.2)

theorem pick_nil (fields : Fields σ γ) (values : γ) : fields.pick [] values = fields.start := by
  induction fields with
  | none => rfl
  | field name format absent rest ih => exact congrArg (Option.none, ·) (ih values.2)

/-- A name that no field has changes no slot. -/
theorem pick_cons_of_not_mem {fields : Fields σ γ} {key : String} (other : key ∉ fields.names)
    (found : List String) (values : γ) :
    fields.pick (key :: found) values = fields.pick found values := by
  induction fields with
  | none => rfl
  | field name format absent rest ih =>
    simp only [names, List.mem_cons, not_or] at other
    simp only [pick, List.mem_cons, Ne.symm other.1, false_or, ih other.2]

/-- The record is complete when all its fields were found. -/
theorem finish_pick {fields : Fields σ γ} {found : List String}
    (all : ∀ name ∈ fields.names, name ∈ found) (values : γ) :
    fields.finish (fields.pick found values) = .ok values := by
  induction fields with
  | none => rfl
  | field name format absent rest ih =>
    obtain ⟨first, others⟩ := List.forall_mem_cons.1 all
    simp only [pick, finish, if_pos first, Option.some_or, ih others]
    rfl

theorem Keep.readable {depth : Nat} {fields : Fields σ γ} {values : γ}
    (keep : fields.Keep depth values) :
    ∀ member ∈ fields.encode values, member.2.IsReadable depth := by
  induction fields with
  | none => exact fun _ member => nomatch member
  | field name format absent rest ih =>
    exact List.forall_mem_cons.2 ⟨keep.1.readable, ih keep.2⟩

/-- A member that was written is the field of its name, which comes first, or one of the others. -/
theorem eq_or_mem_of_mem_encode {α : Type} {name : String} {format : Format α} {absent : Option α}
    {rest : Fields σ γ} {value : α} {values : γ} {key : String} {content : Value}
    (fresh : name ∉ rest.names)
    (member : (key, content) ∈ (field name format absent rest).encode (value, values)) :
    key = name ∧ content = format.encode value ∧ key ∉ rest.names ∨
      key ≠ name ∧ (key, content) ∈ rest.encode values := by
  rcases List.mem_cons.1 member with same | later
  · obtain ⟨rfl, rfl⟩ := Prod.mk.inj same
    exact .inl ⟨rfl, rfl, fresh⟩
  · -- The other members have the names of the other fields, of which this is none.
    refine .inr ⟨?_, later⟩
    rintro rfl
    rw [← map_encode rest values] at fresh
    exact fresh (List.mem_map_of_mem later)

/-- A member that was not yet found fills its slot. -/
theorem readMember_pick {depth : Nat} {fields : Fields σ γ} {values : γ}
    (distinct : fields.names.Nodup) (keep : fields.Keep depth values) {key : String}
    {written content : Value}
    (member : (key, written) ∈ fields.encode values) (same : content.Rearranges written)
    {found : List String} (fresh : key ∉ found) {rest : List UInt8} (delimited : Delimited rest)
    (position : Position) :
    fields.readMember key (fields.pick found values)
        ⟨Ascii.colon :: (content.bytes ++ rest), position⟩ =
      .ok (fields.pick (key :: found) values,
        ⟨rest, position.past (Ascii.colon :: content.bytes)⟩) := by
  induction fields with
  | none => cases member
  | field name format absent others ih =>
    obtain ⟨value, values⟩ := values
    obtain ⟨unique, distinct⟩ := List.nodup_cons.1 distinct
    obtain ⟨keeps, keep⟩ := keep
    rcases eq_or_mem_of_mem_encode unique member with ⟨rfl, rfl, other⟩ | ⟨other, later⟩
    · -- The slot is empty, and the member is read by the format of its field.
      simp only [pick, readMember, if_true, if_neg fresh, readColon_colon,
        keeps.reads same _ _ delimited, within_ok, List.mem_cons_self,
        pick_cons_of_not_mem other, Position.past_cons]
    · -- The slot of this field stays as it was.
      simp only [pick, readMember, if_neg other, ih distinct keep later, Except.map, List.mem_cons,
        Ne.symm other, false_or]

/-- A member that was not yet found fills its slot in decoding too. -/
theorem decodeMember_pick {depth : Nat} {fields : Fields σ γ} {values : γ}
    (distinct : fields.names.Nodup) (keep : fields.Keep depth values) {key : String}
    {written content : Value}
    (member : (key, written) ∈ fields.encode values) (same : content.Rearranges written)
    {found : List String} (fresh : key ∉ found) :
    fields.decodeMember key content (fields.pick found values) =
      .ok (fields.pick (key :: found) values) := by
  induction fields with
  | none => cases member
  | field name format absent others ih =>
    obtain ⟨value, values⟩ := values
    obtain ⟨unique, distinct⟩ := List.nodup_cons.1 distinct
    obtain ⟨keeps, keep⟩ := keep
    rcases eq_or_mem_of_mem_encode unique member with ⟨rfl, rfl, other⟩ | ⟨other, later⟩
    · simp only [pick, decodeMember, if_true, if_neg fresh, keeps.decodes same, Except.map,
        List.mem_cons_self, pick_cons_of_not_mem other]
    · simp only [pick, decodeMember, if_neg other, ih distinct keep later, Except.map,
        List.mem_cons, Ne.symm other, false_or]

/-- The members of an object are read in any order, each into its slot. -/
theorem readMembers_pick {depth : Nat} {fields : Fields σ γ} {values : γ}
    (unique : fields.names.Nodup) (keep : fields.Keep depth values)
    {members arranged : List (String × Value)}
    (each : List.Forall₂ Value.MemberRearranges members arranged)
    (written : ∀ member ∈ arranged, member ∈ fields.encode values) {found : List String}
    (distinct : (arranged.map (·.1) ++ found).Nodup) {fuel : Nat} (enough : members.length ≤ fuel)
    (isFirst : Bool) (rest : List UInt8) (position : Position) :
    fields.readMembers (fuel + 1) isFirst (fields.pick found values)
        ⟨separated isFirst ((members.map Value.memberBytes).map memberText) ++
          Ascii.closeBrace :: rest, position⟩ =
      .ok (fields.pick ((arranged.map (·.1)).reverse ++ found) values,
        ⟨Ascii.closeBrace :: rest,
          position.past (separated isFirst ((members.map Value.memberBytes).map memberText))⟩) := by
  induction each generalizing fuel isFirst position found with
  | nil => simp [readMembers, separated]
  | @cons member other members arranged first _ ih =>
    obtain ⟨fuel, rfl⟩ := Nat.exists_eq_add_one_of_ne_zero (Nat.ne_zero_of_lt enough)
    obtain ⟨key, content⟩ := member
    obtain ⟨name, encoded⟩ := other
    obtain ⟨rfl, same⟩ : key = name ∧ content.Rearranges encoded := first
    obtain ⟨head, tail⟩ := List.forall_mem_cons.1 written
    have fresh : key ∉ found := fun member =>
      (List.nodup_cons.1 distinct).1 (List.mem_append_right _ member)
    -- The name of the member counts as found for those behind it.
    have later := ih tail (List.nodup_middle.2 distinct) (Nat.le_of_succ_le_succ enough) false
    -- A key ends where its colon stands, and a value where the next member is separated from it.
    have colon := delimited_cons (content.bytes ++ (separated false
      ((members.map Value.memberBytes).map memberText) ++ Ascii.closeBrace :: rest))
      (show Ascii.colon ∈ _ by decide)
    have behind := delimited_separated ((members.map Value.memberBytes).map memberText)
      (delimited_cons rest (show Ascii.closeBrace ∈ _ by decide))
    have quoted : IsQuoted (keyBytes key) := ⟨_, keyBytes_eq key⟩
    rw [List.map_cons, Value.memberBytes, separated_members, readMembers,
      nextMember_separator _ quoted]
    simp only [within_ok, reads_key key _ _ colon,
      readMember_pick unique keep head same fresh behind, later]
    simp [separated, memberText]

/-- The members of an object are decoded in any order, each into its slot. -/
theorem decodeMembers_pick {depth : Nat} {fields : Fields σ γ} {values : γ}
    (unique : fields.names.Nodup) (keep : fields.Keep depth values)
    {members arranged : List (String × Value)}
    (each : List.Forall₂ Value.MemberRearranges members arranged)
    (written : ∀ member ∈ arranged, member ∈ fields.encode values) {found : List String}
    (distinct : (arranged.map (·.1) ++ found).Nodup) :
    fields.decodeMembers (fields.pick found values) members =
      .ok (fields.pick ((arranged.map (·.1)).reverse ++ found) values) := by
  induction each generalizing found with
  | nil => rfl
  | @cons member other members arranged first _ ih =>
    obtain ⟨key, content⟩ := member
    obtain ⟨name, encoded⟩ := other
    obtain ⟨rfl, same⟩ : key = name ∧ content.Rearranges encoded := first
    obtain ⟨head, tail⟩ := List.forall_mem_cons.1 written
    have fresh : key ∉ found := fun member =>
      (List.nodup_cons.1 distinct).1 (List.mem_append_right _ member)
    -- The name of the member counts as found for those behind it.
    have later := ih tail (List.nodup_middle.2 distinct)
    rw [decodeMembers, decodeMember_pick unique keep head same fresh]
    simp only [later, List.map_cons, List.reverse_cons, List.append_assoc, List.singleton_append]

/-- The members of a record in any order are its fields one by one, and complete it. -/
theorem exists_arranged {fields : Fields σ γ} {values : γ} (unique : fields.names.Nodup)
    {members : List (String × Value)}
    (same : (Value.object members).Rearranges (.object (fields.encode values))) :
    ∃ arranged : List (String × Value), List.Forall₂ Value.MemberRearranges members arranged ∧
      (∀ member ∈ arranged, member ∈ fields.encode values) ∧
      (arranged.map Prod.fst ++ []).Nodup ∧
      fields.finish (fields.pick ((arranged.map Prod.fst).reverse ++ []) values) = .ok values := by
  obtain ⟨arranged, each, order⟩ := rearranges_object_iff.1 same
  -- The keys are the names of the fields in another order.
  have keys := order.map Prod.fst
  rw [fields.map_encode] at keys
  refine ⟨arranged, each, fun member => order.mem_iff.1, ?_, finish_pick ?_ values⟩
  · rw [List.append_nil]
    exact keys.nodup_iff.2 unique
  · intro name member
    rw [List.append_nil, List.mem_reverse]
    exact keys.mem_iff.2 member

end Fields

/-- Records are kept, if their fields are and the record is made of its parts again. -/
theorem Format.keeps_record {α σ γ : Type} (name : String) {fields : Fields σ γ} {make : γ → α}
    {parts : α → γ} {depth : Nat} {a : α} (unique : fields.names.Nodup)
    (keep : fields.Keep depth (parts a)) (made : make (parts a) = a) :
    (record name fields make parts).Keeps (depth + 1) a := by
  refine ⟨⟨?_, keep.readable⟩, fun same => ?_, fun same => ?_⟩
  · rw [fields.map_encode]
    exact unique
  · cases same with
    | @object members _ _ names each order =>
      obtain ⟨arranged, each, written, distinct, complete⟩ :=
        Fields.exists_arranged unique (.object names each order)
      intro rest position delimited
      -- There are no more members than bytes, by which the reader is bounded.
      have enough := length_le_separated_members true (members.map Value.memberBytes)
        (Ascii.closeBrace :: rest)
      rw [List.length_map] at enough
      have read := Fields.readMembers_pick unique keep each written distinct enough true rest
        (position.after Ascii.openBrace)
      rw [fields.pick_nil] at read
      have glyph : Cursor.isSpace Ascii.openBrace = false := rfl
      rw [bytes_object, List.cons_append, List.append_assoc, List.singleton_append]
      have apart : Ascii.openBrace ≠ Ascii.openBracket := by decide
      simp only [record, nextToken_cons glyph, bind, Except.bind, if_neg apart, if_true, read,
        complete, closeObject_closeBrace, made]
      simp
  · cases same with
    | @object members _ _ names each order =>
      obtain ⟨arranged, each, written, distinct, complete⟩ :=
        Fields.exists_arranged unique (.object names each order)
      have decoded := Fields.decodeMembers_pick unique keep each written distinct
      rw [fields.pick_nil] at decoded
      simp only [record, decoded, complete, made]

end MergeNotes.Json
