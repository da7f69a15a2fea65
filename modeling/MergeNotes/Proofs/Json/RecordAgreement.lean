import MergeNotes.Proofs.Json.Agreement

/-! Records read directly and by way of their values: unknown members are passed over on the one way
and read on the other, and absent fields may end an array early on both. -/

namespace MergeNotes.Json

variable {c after behind : Cursor} {depth : Nat}

/-- At the end of an array there is no further item. -/
theorem next?_of_closeArray (close : closeArray c = .ok after) :
    c.skipSpace.next? = some (Ascii.closeBracket, after) := by
  simp only [closeArray] at close
  split at close
  · cases close
  · rename_i byte behind next
    split at close
    · rename_i bracket
      cases close
      exact bracket ▸ next
    · split at close
      · split at close <;> cases close
      · cases close

theorem next?_of_nextItem_false {isFirst : Bool} (next : nextItem isFirst c = .ok (false, after)) :
    after = c.skipSpace ∧ ∃ behind, c.skipSpace.next? = some (Ascii.closeBracket, behind) := by
  simp only [nextItem] at next
  split at next
  · cases next
  · rename_i byte behind found
    split at next
    · rename_i bracket
      cases next
      exact ⟨rfl, behind, bracket ▸ found⟩
    · split at next
      · cases next
      · split at next
        · split at next <;> cases next
        · cases next

namespace Fields

variable {σ γ : Type} {fields : Fields σ γ}

/-- The format of each field agrees. -/
def Agree {σ γ : Type} : Fields σ γ → Prop
  | none => True
  | field _ format _ rest => format.Agrees ∧ rest.Agree

/-- A member that is read behind its key is decoded from its value, also where it is that of no
field and was passed over. -/
theorem yields_readMember (agree : fields.Agree) {key : String} {slots last : σ}
    (inText : c.InText) (read : fields.readMember key slots c = .ok (last, after)) (depth : Nat) :
    ∃ behind, readColon c = .ok behind ∧ Yields (readValue depth behind) fun found =>
      found.2 = after ∧ fields.decodeMember key found.1 slots = .ok last := by
  induction fields with
  | none =>
    -- A member of no field is passed over here, and read on the other way.
    rw [readMember] at read
    split at read
    · cases read
    · rename_i behind colon
      split at read
      · cases read
      · rename_i place skip
        cases read
        refine ⟨behind, colon, ?_⟩
        have inText := inText.forward (suffix_readColon colon)
        exact (yields_readValue_of_skip depth inText (mapError_eq_ok_iff.1 skip)).mono
          fun found _ same => ⟨same, rfl⟩
  | field name format absent rest ih =>
    obtain ⟨slot, slots⟩ := slots
    by_cases mine : key = name
    · -- A field is not read twice.
      cases slot with
      | some _ => simp [readMember, mine] at read
      | none =>
        simp only [readMember, if_pos mine] at read
        split at read
        · cases read
        · rename_i behind colon
          split at read
          · cases read
          · rename_i value place inner
            cases read
            refine ⟨behind, colon, ?_⟩
            have inText := inText.forward (suffix_readColon colon)
            refine (agree.1 inText (mapError_eq_ok_iff.1 inner) depth).mono ?_
            intro found _ holds
            obtain ⟨content, place⟩ := found
            obtain ⟨rfl, decoded⟩ := holds
            exact ⟨rfl, decodeMember_field_eq_ok_iff.2 (.inl ⟨mine, rfl, value, decoded, rfl⟩)⟩
    · simp only [readMember, if_neg mine] at read
      obtain ⟨⟨others, place⟩, inner, same⟩ := exists_ok_of_map read
      cases same
      obtain ⟨behind, colon, yields⟩ := ih agree.2 inner
      refine ⟨behind, colon, yields.mono ?_⟩
      intro found _ holds
      obtain ⟨content, place⟩ := found
      obtain ⟨rfl, decoded⟩ := holds
      exact ⟨rfl, decodeMember_field_eq_ok_iff.2 (.inr ⟨mine, others, decoded, rfl⟩)⟩

/-- The members that are read are decoded in the order they came. -/
theorem yields_readMembers (agree : fields.Agree) {fuel : Nat} {isFirst : Bool} {slots last : σ}
    (inText : c.InText) (read : fields.readMembers fuel isFirst slots c = .ok (last, after)) :
    Yields (Json.readMembers readKey id (readValue depth) fuel isFirst c) fun found =>
      found.2 = after ∧ fields.decodeMembers slots found.1 = .ok last := by
  induction fuel generalizing c isFirst slots with
  | zero => cases read
  | succ fuel ih =>
    rw [readMembers] at read
    rw [Json.readMembers]
    split at read
    · cases read
    · rename_i place next
      cases read
      rw [next]
      exact yields_ok ⟨rfl, rfl⟩
    · rename_i place next
      rw [next]
      split at read
      · cases read
      · rename_i key behindKey name
        split at read
        · cases read
        · rename_i middle behind member
          have first := suffix_nextMember (mapError_eq_ok_iff.1 next)
          have forward := (advances_readKey name).trans first
          have inText := inText.forward forward
          obtain ⟨behindColon, colon, yields⟩ := yields_readMember agree inText member depth
          show Yields (readKey place >>= _) _
          rw [name]
          show Yields (readColon behindKey >>= _) _
          rw [colon]
          -- The member is decoded from its value, and the others follow it on both ways.
          refine (yields.within (.member key)).bind ?_
          intro found here holds
          obtain ⟨content, behind⟩ := found
          obtain ⟨rfl, decoded⟩ := holds
          have inText := inText.forward (((advances_readValue depth).within here).trans
            (suffix_readColon colon))
          refine (ih inText read).bind ?_
          intro found _ holds
          obtain ⟨members, last⟩ := found
          obtain ⟨rfl, rest⟩ := holds
          exact yields_ok ⟨rfl, decodeMembers_cons_eq_ok_iff.2 ⟨middle, decoded, rest⟩⟩

/-- At the end of an array all further fields are absent. -/
theorem readItems_end {expected : String} {index : Nat} {values : γ}
    (bracket : c.skipSpace.next? = some (Ascii.closeBracket, behind))
    (read : fields.readItems expected index c = .ok (values, after)) :
    fields.decodeItems expected index [] = .ok (values, []) ∧
      after.skipSpace.next? = some (Ascii.closeBracket, behind) := by
  induction fields generalizing index c with
  | none =>
    cases read
    exact ⟨rfl, bracket⟩
  | field name format absent rest ih =>
    rw [readItems, nextItem_end bracket] at read
    cases absent with
    | none => cases read
    | some value =>
      -- The field is absent, and so are those behind it.
      obtain ⟨⟨others, place⟩, later, same⟩ := exists_ok_of_map read
      cases same
      rw [← Cursor.skipSpace_skipSpace] at bracket
      obtain ⟨decoded, bracket⟩ := ih bracket later
      refine ⟨?_, bracket⟩
      rw [decodeItems, decoded]
      rfl

/-- The items that are read are decoded as the same fields. -/
theorem yields_readItems (agree : fields.Agree) {expected : String} {index bound : Nat}
    {values : γ} (inText : c.InText)
    (read : fields.readItems expected index c = .ok (values, after))
    (bracket : after.skipSpace.next? = some (Ascii.closeBracket, behind))
    (enough : c.rest.length < bound) :
    Yields (Json.readItems (readValue depth) bound index c) fun found =>
      closeArray found.2 = .ok behind ∧
        fields.decodeItems expected index found.1 = .ok (values, []) := by
  obtain ⟨bound, rfl⟩ := Nat.exists_eq_succ_of_ne_zero (Nat.ne_zero_of_lt enough)
  induction fields generalizing index c bound with
  | none =>
    cases read
    rw [Json.readItems, nextItem_end bracket]
    exact yields_ok ⟨closeArray_end bracket, rfl⟩
  | field name format absent rest ih =>
    rw [Json.readItems]
    cases next : nextItem (index == 0) c with
    | error error =>
      rw [readItems, next] at read
      cases read
    | ok found =>
      obtain ⟨goesOn, place⟩ := found
      cases goesOn with
      | false =>
        -- No item is left for this field and those behind it.
        obtain ⟨rfl, last, close⟩ := next?_of_nextItem_false next
        obtain ⟨decoded, same⟩ := readItems_end close read
        rw [bracket] at same
        cases same
        exact yields_ok ⟨closeArray_end close, decoded⟩
      | true =>
        rw [readItems, next] at read
        dsimp only at read
        split at read
        · cases read
        · rename_i value _ inner
          obtain ⟨⟨others, last⟩, later, same⟩ := exists_ok_of_map read
          cases same
          have forward := suffix_nextItem next
          have inText := inText.forward forward
          have yields := agree.1 inText (mapError_eq_ok_iff.1 inner) depth
          refine (yields.within (.item index)).bind ?_
          intro found here holds
          obtain ⟨item, place⟩ := found
          obtain ⟨rfl, decoded⟩ := holds
          have here := mapError_eq_ok_iff.1 here
          have inText := inText.forward (advances_readValue depth here)
          -- The item takes a byte, so that the fuel is enough for those behind it.
          have shorter := length_lt_of_readValue here
          have length := forward.length_le
          obtain ⟨bound, rfl⟩ := Nat.exists_eq_succ_of_ne_zero (n := bound) (by omega)
          refine (ih agree.2 inText later bound (by omega)).bind ?_
          intro found _ holds
          obtain ⟨items, last⟩ := found
          obtain ⟨close, rest⟩ := holds
          refine yields_ok ⟨close, ?_⟩
          simp only [decodeItems, decoded, rest]
          rfl

theorem yields_readArray (agree : fields.Agree) {expected : String} {values : γ} {place : Cursor}
    (inText : c.InText) (read : fields.readItems expected 0 c = .ok (values, place))
    (close : closeArray place = .ok after) :
    Yields (readArray (readValue depth) c) fun found =>
      found.2 = after ∧ fields.decodeItems expected 0 found.1 = .ok (values, []) := by
  refine (yields_readItems agree inText read (next?_of_closeArray close)
    (Nat.lt_succ_self _)).bind ?_
  intro found _ holds
  obtain ⟨items, place⟩ := found
  obtain ⟨close, decoded⟩ := holds
  show Yields (closeArray place >>= _) _
  rw [close]
  exact yields_ok ⟨rfl, decoded⟩

theorem yields_readObject (agree : fields.Agree) {slots last : σ} {place : Cursor}
    (inText : c.InText)
    (read : fields.readMembers (c.rest.length + 1) true slots c = .ok (last, place))
    (close : closeObject place = .ok after) :
    Yields (readObject readKey id (readValue depth) c) fun found =>
      found.2 = after ∧ fields.decodeMembers slots found.1 = .ok last := by
  refine (yields_readMembers agree inText read).bind ?_
  intro found _ holds
  obtain ⟨members, place⟩ := found
  obtain ⟨rfl, decoded⟩ := holds
  show Yields (closeObject place >>= _) _
  rw [close]
  exact yields_ok ⟨rfl, decoded⟩

end Fields

/-- Records agree if their fields do, whatever unknown members they have. -/
theorem Format.agrees_record {α σ γ : Type} (name : String) {fields : Fields σ γ} {make : γ → α}
    {parts : α → γ} (agree : fields.Agree) :
    (record name fields make parts).Agrees := by
  intro c a after inText read depth
  obtain ⟨⟨place, byte, behind⟩, token, read⟩ := exists_ok_of_bind read
  obtain ⟨rfl, next⟩ := nextToken_eq_ok_iff.1 token
  have inText := inText.forward ((Cursor.suffix_of_next? next).trans c.suffix_skipSpace)
  dsimp only at read
  split at read
  · -- An array holds the fields in order.
    rename_i bracket
    split at read
    · cases read
    · rename_i values place items
      obtain ⟨last, close, read⟩ := exists_ok_of_bind read
      cases read
      refine (yields_array (bracket ▸ next) fun _ =>
        Fields.yields_readArray agree inText items close).mono ?_
      intro found _ holds
      obtain ⟨value, last⟩ := found
      obtain ⟨items, rfl, rfl, decoded⟩ := holds
      refine ⟨rfl, ?_⟩
      simp only [record, decoded]
  split at read
  · -- An object holds them by name, and on the other way in the order of the names.
    rename_i brace
    split at read
    · cases read
    · rename_i slots place members
      split at read
      · cases read
      · rename_i values finish
        obtain ⟨last, close, read⟩ := exists_ok_of_bind read
        cases read
        refine (yields_object (brace ▸ next) fun _ =>
          Fields.yields_readObject agree inText members close).mono ?_
        intro found _ holds
        obtain ⟨value, last⟩ := found
        obtain ⟨members, rfl, rfl, decoded⟩ := holds
        refine ⟨rfl, ?_⟩
        simp only [record, Fields.decodeMembers_sortMembers decoded, finish]
  · exact absurd read (refuseToken_ne_ok _ _ _)

end MergeNotes.Json
