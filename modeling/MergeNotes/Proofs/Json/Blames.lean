import MergeNotes.Proofs.Json.Faults
import MergeNotes.Proofs.Json.Records

/-! What formats refuse: each says what it expected, at a place in the text, and a record leads to
the field that is refused. -/

namespace MergeNotes.Json

variable {α β γ κ ν σ : Type}

/-- A refusal of a value is a known one, has a place in the text, and its path starts with a certain
step if it has any. -/
def Error.Blames (known : Mismatch → Prop) (start : Segment → Prop) (error : Error) : Prop :=
  ∀ mismatch, error.fault = .content mismatch →
    known mismatch ∧ error.position ≠ none ∧ ∀ segment ∈ error.path.head?, start segment

theorem Grammatical.blames {result : Except Error α} (grammatical : Grammatical result)
    {known : Mismatch → Prop} {start : Segment → Prop} :
    FailsAs (Error.Blames known start) result :=
  grammatical.mono fun _ unsaid mismatch said => absurd said (unsaid mismatch)

section Blames

variable {known : Mismatch → Prop} {start : Segment → Prop}

theorem Error.Blames.within {error : Error} {first : Segment → Prop} {segment : Segment}
    (blames : error.Blames known first) (starts : start segment) :
    (error.within segment).Blames known start := by
  intro mismatch said
  obtain ⟨knows, placed, _⟩ := blames mismatch said
  refine ⟨knows, placed, fun head same => ?_⟩
  rw [← Option.some.inj same]
  exact starts

theorem failsAs_refuse {mismatch : Mismatch} (knows : known mismatch) (c : Cursor) :
    FailsAs (Error.Blames known start) (c.refuse mismatch : Except Error α) := by
  rintro _ failed said same
  cases failed
  cases same
  exact ⟨knows, nofun, nofun⟩

/-- A token is refused for its type, if not for the grammar. -/
theorem failsAs_refuseToken {expected : String}
    (knows : ∀ found, known (.wrongType found expected)) (c : Cursor) :
    FailsAs (Error.Blames known start) (refuseToken expected c : Except Error α) := by
  have refuse (found : Found) (c : Cursor) :
      FailsAs (Error.Blames known start) (c.refuse (.wrongType found expected) : Except Error α) :=
    failsAs_refuse (knows found) c
  unfold refuseToken
  split
  · exact (grammatical_fail _ _).blames
  · dsimp only
    repeat' split
    all_goals first
      | exact refuse _ _
      | exact FailsAs.bind (grammatical_readWord _ _).blames fun _ => refuse _ _
      | exact FailsAs.bind (grammatical_readNumber _ _).blames fun _ => refuse _ _
      | exact FailsAs.bind (grammatical_readString _).blames fun _ => refuse _ _
      | exact (grammatical_failNext _ _).blames

end Blames

namespace Format

variable {known : Mismatch → Prop} {format : Format α}

/-- A format refuses values for what is known only. -/
def Blames (format : Format α) (known : Mismatch → Prop) : Prop :=
  ∀ c, FailsAs (Error.Blames known fun _ => True) (format.read c)

/-- Seen from the value, a part that is refused is named. -/
theorem Blames.within (blames : format.Blames known) {start : Segment → Prop} {segment : Segment}
    (starts : start segment) (c : Cursor) :
    FailsAs (Error.Blames known start) (Json.within segment (format.read c)) :=
  (blames c).within fun _ blamed => blamed.within starts

theorem blames_string (type : ∀ found, known (.wrongType found "a string")) :
    string.Blames known := by
  intro c
  refine (grammatical_nextToken c).blames.bind fun (c, byte, after) => ?_
  dsimp only
  split
  · exact (grammatical_readString _).blames
  · exact failsAs_refuseToken type c

/-- A number is refused for its type or for its value. -/
theorem known_of_fitNumber {name : String} {limit : Nat} {number : Number} {mismatch : Mismatch}
    (refused : fitNumber name limit number = .error mismatch)
    (type : ∀ found, known (.wrongType found name))
    (value : ∀ found, known (.wrongValue found name)) : known mismatch := by
  unfold fitNumber at refused
  split at refused
  · split at refused
    · cases refused
    · exact Except.error.inj refused ▸ value _
  · exact Except.error.inj refused ▸ value _
  · exact Except.error.inj refused ▸ type _

/-- Whatever number is read must fit. -/
theorem failsAs_fitted {name : String} (limit : Nat)
    (type : ∀ found, known (.wrongType found name))
    (value : ∀ found, known (.wrongValue found name)) (number : Number) (c : Cursor) :
    FailsAs (Error.Blames known fun _ => True)
      (match fitNumber name limit number with
        | .ok n => (.ok (n, c) : Except Error (Nat × Cursor))
        | .error mismatch => c.refuse mismatch) := by
  split
  · exact failsAs_ok _
  · rename_i mismatch refused
    exact failsAs_refuse (known_of_fitNumber refused type value) _

theorem blames_natural {name : String} (limit : Nat)
    (type : ∀ found, known (.wrongType found name))
    (value : ∀ found, known (.wrongValue found name)) : (natural name limit).Blames known := by
  intro c
  refine (grammatical_nextToken c).blames.bind fun token => ?_
  obtain ⟨c, byte, after⟩ := token
  have fits (found : Number × Cursor) := failsAs_fitted limit type value found.1 found.2
  dsimp only
  split
  · exact (grammatical_readNumber _ _).blames.bind fits
  · split
    · exact (grammatical_readNumber _ _).blames.bind fits
    · exact (failsAs_refuseToken type c).bind fits

theorem Blames.transport (blames : format.Blames known) (make : α → β) (parts : β → α) :
    (format.transport make parts).Blames known :=
  fun c => (blames c).map

theorem Blames.option (blames : format.Blames known) : format.option.Blames known := by
  intro c
  unfold Format.option
  dsimp only
  split
  · exact (grammatical_readWord _ _).blames.bind fun _ => failsAs_ok _
  · exact (blames _).bind fun _ => failsAs_ok _

theorem failsAs_readItems (blames : format.Blames known) (fuel : Nat) : ∀ index c,
    FailsAs (Error.Blames known fun _ => True) (readItems format.read fuel index c) := by
  induction fuel with
  | zero => exact fun _ _ => (grammatical_fail _ _).blames
  | succ fuel ih =>
    intro index c
    refine (grammatical_nextItem _ c).blames.bind fun (goesOn, c) => ?_
    cases goesOn with
    | false => exact failsAs_ok _
    | true =>
      refine (blames.within trivial c).bind fun (value, c) => ?_
      exact (ih _ _).bind fun _ => failsAs_ok _

theorem Blames.list (blames : format.Blames known)
    (type : ∀ found, known (.wrongType found "a sequence")) : format.list.Blames known := by
  intro c
  refine (grammatical_nextToken c).blames.bind fun (c, byte, after) => ?_
  dsimp only
  split
  · refine (failsAs_readItems blames _ _ _).bind fun (values, c) => ?_
    exact (grammatical_closeArray c).blames.bind fun _ => failsAs_ok _
  · exact failsAs_refuseToken type c

theorem known_of_choose {options : List (String × α)} {name : String} {mismatch : Mismatch}
    (refused : choose options name = .error mismatch)
    (variant : ∀ name, known (.unknownVariant name (options.map (·.1)))) : known mismatch := by
  unfold choose at refused
  split at refused
  · cases refused
  · exact Except.error.inj refused ▸ variant name

section Choice

variable {options : List (String × α)}

/-- A name is a string, and one of those that were allowed. -/
theorem failsAs_readName (type : ∀ found, known (.wrongType found "a string"))
    (variant : ∀ name, known (.unknownVariant name (options.map (·.1)))) (c : Cursor) :
    FailsAs (Error.Blames known fun _ => True) (do
      let (name, c) ← string.read c
      match choose options name with
      | .ok value => (.ok (name, value, c) : Except Error (String × α × Cursor))
      | .error mismatch => c.refuse mismatch) := by
  refine (blames_string type c).bind fun found => ?_
  obtain ⟨name, c⟩ := found
  dsimp only
  split
  · exact failsAs_ok _
  · rename_i mismatch refused
    exact failsAs_refuse (known_of_choose refused variant) _

/-- Under a name stands an empty value. -/
theorem failsAs_readUnit (unit : ∀ found, known (.wrongType found "unit")) (c : Cursor) :
    FailsAs (Error.Blames known fun _ => True) (do
      let (c, byte, after) ← nextToken c
      if byte = Ascii.lowerN then readNull after else refuseToken "unit" c) := by
  refine (grammatical_nextToken c).blames.bind fun token => ?_
  obtain ⟨c, byte, after⟩ := token
  dsimp only
  split
  · exact (grammatical_readWord _ _).blames
  · exact failsAs_refuseToken unit _

/-- Behind the name there is a colon, an empty value, and the end of the object. -/
theorem failsAs_behindName (unit : ∀ found, known (.wrongType found "unit")) (name : String)
    (value : α) (c : Cursor) : FailsAs (Error.Blames known fun _ => True) (do
      let c ← readColon c
      let c ← Json.within (.member name) do
        let (c, byte, after) ← nextToken c
        if byte = Ascii.lowerN then readNull after else refuseToken "unit" c
      let c := c.skipSpace
      match c.next? with
      | none => c.fail .endInObject
      | some (byte, after) =>
        if byte = Ascii.closeBrace then .ok (value, after) else c.fail .expectedValue) := by
  refine (grammatical_readColon c).blames.bind fun c => ?_
  refine FailsAs.bind ((failsAs_readUnit unit c).within
    fun _ blamed => blamed.within trivial) fun c => ?_
  dsimp only
  repeat' split
  all_goals first | exact failsAs_ok _ | exact (grammatical_fail _ _).blames

theorem blames_choice (nameOf : α → String)
    (type : ∀ found, known (.wrongType found "a string"))
    (unit : ∀ found, known (.wrongType found "unit"))
    (variant : ∀ name, known (.unknownVariant name (options.map (·.1)))) :
    (choice options nameOf).Blames known := by
  intro c
  have named := failsAs_readName type variant
  refine (grammatical_nextToken c).blames.bind fun token => ?_
  obtain ⟨c, byte, after⟩ := token
  dsimp only
  split
  · refine (grammatical_nextMember true after).blames.bind fun member => ?_
    obtain ⟨goesOn, c⟩ := member
    have behind (found : String × α × Cursor) :=
      failsAs_behindName unit found.1 found.2.1 found.2.2
    cases goesOn with
    | false => exact (grammatical_failNext _ _).blames.bind behind
    | true => exact (named c).bind behind
  · split
    · exact (named c).bind fun _ => failsAs_ok _
    · exact (grammatical_failNext _ _).blames

end Choice

end Format

/-- Keys are refused for what is known only. -/
def KeyFormat.Blames (key : KeyFormat κ) (known : Mismatch → Prop) : Prop :=
  ∀ c, FailsAs (Error.Blames known fun _ => True) (key.read c)

namespace KeyFormat

variable {known : Mismatch → Prop}

theorem blames_string : string.Blames known :=
  fun c => (grammatical_readKey c).blames

theorem blames_u32 (type : ∀ found, known (.wrongType found "u32"))
    (value : ∀ found, known (.wrongValue found "u32")) : u32.Blames known := by
  intro c
  have number : Format.u32.Blames known := (Format.blames_natural _ type value).transport _ _
  unfold u32
  dsimp only
  split
  · split
    · exact (grammatical_fail _ _).within.blames
    · split
      · refine FailsAs.bind (failsAs_ok _) fun (n, c) => ?_
        dsimp only
        split
        · exact failsAs_ok _
        · exact (grammatical_failNext _ _).within.blames
      · -- A number that does not fit is a step of the path, as far as it can be told.
        rename_i refusal refused
        exact fun _ failed => Except.error.inj failed ▸ (number _ refusal refused).within trivial
  · exact (grammatical_fail _ _).within.blames

end KeyFormat

namespace Format

variable {known : Mismatch → Prop}

theorem failsAs_readMembers {key : KeyFormat κ} {value : Format ν} (keys : key.Blames known)
    (values : value.Blames known) (fuel : Nat) : ∀ isFirst c,
    FailsAs (Error.Blames known fun _ => True)
      (readMembers key.read key.text value.read fuel isFirst c) := by
  induction fuel with
  | zero => exact fun _ _ => (grammatical_fail _ _).blames
  | succ fuel ih =>
    intro isFirst c
    refine (grammatical_nextMember _ c).within.blames.bind fun (goesOn, c) => ?_
    cases goesOn with
    | false => exact failsAs_ok _
    | true =>
      refine (keys c).bind fun (name, c) => ?_
      refine (grammatical_readColon c).blames.bind fun c => ?_
      refine (values.within trivial c).bind fun (held, c) => ?_
      exact (ih _ _).bind fun _ => failsAs_ok _

theorem blames_dict [Ord κ] [Std.TransOrd κ] [Std.LawfulEqOrd κ] {key : KeyFormat κ}
    {value : Format ν} (keys : key.Blames known) (values : value.Blames known)
    (type : ∀ found, known (.wrongType found "a map")) : (dict key value).Blames known := by
  intro c
  refine (grammatical_nextToken c).blames.bind fun token => ?_
  obtain ⟨c, byte, after⟩ := token
  dsimp only
  split
  · refine FailsAs.bind (FailsAs.bind (failsAs_readMembers keys values _ _ _) fun found => ?_)
      fun _ => failsAs_ok _
    exact (grammatical_closeObject found.2).blames.bind fun _ => failsAs_ok _
  · exact failsAs_refuseToken type c

end Format

/-! Records, which also refuse fields that are missing or come twice. -/

/-- A reading of a record stops at a refusal of a part, or for a reason that is known. -/
def Stop.Blames (known : Mismatch → Prop) (start : Segment → Prop) : Stop → Prop
  | .refused error => error.Blames known start
  | .raised reason _ => known reason

/-- Where a reading stops, the record is refused. -/
theorem Stop.Blames.error {known : Mismatch → Prop} {start : Segment → Prop} {stop : Stop}
    (blames : stop.Blames known start) (leave : Cursor → Cursor) :
    (stop.error leave).Blames known start := by
  cases stop with
  | refused error => exact blames
  | raised reason place =>
    intro mismatch said
    cases said
    exact ⟨blames, nofun, nofun⟩

/-- Where a result is a stop, that is for what is known. -/
def StopsAs (known : Mismatch → Prop) (start : Segment → Prop) (result : Except Stop α) : Prop :=
  ∀ stop, result = .error stop → stop.Blames known start

section StopsAs

variable {known : Mismatch → Prop} {start : Segment → Prop}

theorem stopsAs_ok (value : α) : StopsAs known start (.ok value) :=
  nofun

theorem stopsAs_refused {error : Error} (blames : error.Blames known start) :
    StopsAs known start (.error (.refused error) : Except Stop α) :=
  fun _ stopped => Except.error.inj stopped ▸ blames

theorem stopsAs_raised {reason : Mismatch} (knows : known reason) (place : Cursor) :
    StopsAs known start (.error (.raised reason place) : Except Stop α) :=
  fun _ stopped => Except.error.inj stopped ▸ knows

theorem StopsAs.map {result : Except Stop α} {make : α → β} (stops : StopsAs known start result) :
    StopsAs known start (result.map make) := by
  cases result with
  | error stop => exact fun _ stopped => Except.error.inj stopped ▸ stops stop rfl
  | ok value => exact stopsAs_ok _

end StopsAs

namespace Fields

variable {known : Mismatch → Prop} {start : Segment → Prop}

/-- Every field refuses values for what is known only. -/
def Blame (known : Mismatch → Prop) {σ γ : Type} : Fields σ γ → Prop
  | none => True
  | field _ format _ rest => format.Blames known ∧ rest.Blame known

/-- A member is refused by its field, or because it comes twice. -/
theorem stopsAs_readMember {fields : Fields σ γ} (blame : fields.Blame known)
    (steps : ∀ name ∈ fields.names, start (.member name))
    (twice : ∀ name ∈ fields.names, known (.duplicateField name)) (key : String) :
    ∀ slots c, StopsAs known start (fields.readMember key slots c) := by
  induction fields with
  | none =>
    rintro ⟨⟩ c
    rw [readMember]
    cases colon : readColon c with
    | error error => exact stopsAs_refused ((grammatical_readColon c).blames error colon)
    | ok c =>
      dsimp only
      -- What no field has the name of is only passed over.
      cases skipped : Json.within (.member key) (skipValue c) with
      | error error =>
        exact stopsAs_refused ((grammatical_skipValueWithin _ c).within.blames error skipped)
      | ok c => exact stopsAs_ok _
  | field name format absent rest ih =>
    rintro ⟨slot, slots⟩ c
    obtain ⟨first, others⟩ := blame
    by_cases same : key = name
    · cases slot with
      | some value =>
        simp only [readMember, if_pos same]
        exact stopsAs_raised (twice name List.mem_cons_self) c
      | none =>
        simp only [readMember, if_pos same]
        cases colon : readColon c with
        | error error => exact stopsAs_refused ((grammatical_readColon c).blames error colon)
        | ok c =>
          dsimp only
          cases read : Json.within (.member key) (format.read c) with
          | error error =>
            have step : start (.member key) := same ▸ steps name List.mem_cons_self
            exact stopsAs_refused (first.within step c error read)
          | ok found => exact stopsAs_ok _
    · simp only [readMember, if_neg same]
      refine (ih others ?_ ?_ slots c).map
      · exact fun name member => steps name (List.mem_cons_of_mem _ member)
      · exact fun name member => twice name (List.mem_cons_of_mem _ member)

theorem stopsAs_readMembers {fields : Fields σ γ} (blame : fields.Blame known)
    (steps : ∀ name ∈ fields.names, start (.member name))
    (twice : ∀ name ∈ fields.names, known (.duplicateField name)) (fuel : Nat) :
    ∀ isFirst slots c, StopsAs known start (fields.readMembers fuel isFirst slots c) := by
  induction fuel with
  | zero => exact fun _ _ _ => stopsAs_refused nofun
  | succ fuel ih =>
    intro isFirst slots c
    rw [readMembers]
    cases next : Json.within .unknown (nextMember isFirst c) with
    | error error =>
      exact stopsAs_refused ((grammatical_nextMember isFirst c).within.blames error next)
    | ok found =>
      obtain ⟨goesOn, c⟩ := found
      cases goesOn with
      | false => exact stopsAs_ok _
      | true =>
        dsimp only
        cases read : readKey c with
        | error error => exact stopsAs_refused ((grammatical_readKey c).blames error read)
        | ok found =>
          obtain ⟨key, c⟩ := found
          dsimp only
          have member := stopsAs_readMember blame steps twice key slots c
          cases filled : fields.readMember key slots c with
          | error stop => exact fun _ stopped => Except.error.inj stopped ▸ member stop filled
          | ok found => exact ih _ _ _

theorem stopsAs_readItems {expected : String}
    (length : ∀ index, known (.wrongLength index expected))
    (items : ∀ index, start (.item index)) {fields : Fields σ γ} (blame : fields.Blame known) :
    ∀ index c, StopsAs known start (fields.readItems expected index c) := by
  induction fields with
  | none => exact fun _ _ => stopsAs_ok _
  | field name format absent rest ih =>
    intro index c
    obtain ⟨first, others⟩ := blame
    rw [readItems]
    cases next : nextItem (index == 0) c with
    | error error => exact stopsAs_refused ((grammatical_nextItem _ c).blames error next)
    | ok found =>
      obtain ⟨goesOn, c⟩ := found
      cases goesOn with
      | false =>
        cases absent with
        | none => exact stopsAs_raised (length index) c
        | some value => exact (ih others _ _).map
      | true =>
        dsimp only
        cases read : Json.within (.item index) (format.read c) with
        | error error => exact stopsAs_refused (first.within (items index) c error read)
        | ok found => exact (ih others _ _).map

/-- What is missing when a record is made is a field. -/
theorem known_of_finish {fields : Fields σ γ}
    (missing : ∀ name ∈ fields.names, known (.missingField name)) :
    ∀ {slots reason}, fields.finish slots = .error reason → known reason := by
  induction fields with
  | none =>
    rintro ⟨⟩ reason refused
    cases refused
  | field name format absent rest ih =>
    rintro ⟨slot, slots⟩ reason refused
    rw [finish] at refused
    split at refused
    · cases refused
      exact missing name List.mem_cons_self
    · cases finished : rest.finish slots with
      | error other =>
        rw [finished] at refused
        cases refused
        exact ih (fun name member => missing name (List.mem_cons_of_mem _ member)) finished
      | ok values =>
        rw [finished] at refused
        cases refused

end Fields

namespace Format

variable {known : Mismatch → Prop} {start : Segment → Prop}

/-- What a record calls an array of the wrong length. -/
def lengthWords (name : String) (count : Nat) : String :=
  "struct " ++ name ++ " with " ++ decimal count ++ (if count = 1 then " element" else " elements")

/-- A record is refused for its type or its length, or for a field, to which the path then leads
first. -/
theorem failsAs_record {name : String} {fields : Fields σ γ} {make : γ → α} {parts : α → γ}
    (blame : fields.Blame known) (items : ∀ index, start (.item index))
    (steps : ∀ name ∈ fields.names, start (.member name))
    (type : ∀ found, known (.wrongType found ("struct " ++ name)))
    (length : ∀ index, known (.wrongLength index (lengthWords name fields.count)))
    (missing : ∀ name ∈ fields.names, known (.missingField name))
    (twice : ∀ name ∈ fields.names, known (.duplicateField name)) (c : Cursor) :
    FailsAs (Error.Blames known start) ((record name fields make parts).read c) := by
  refine (grammatical_nextToken c).blames.bind fun (c, byte, after) => ?_
  dsimp only
  split
  · have read := Fields.stopsAs_readItems length items blame 0 after
    split
    · rename_i stop stopped
      exact fun _ failed => Except.error.inj failed ▸ (read stop stopped).error leaveArray
    · exact (grammatical_closeArray _).blames.bind fun _ => failsAs_ok _
  · split
    · have read := Fields.stopsAs_readMembers blame steps twice (after.rest.length + 1) true
        fields.start after
      split
      · rename_i stop stopped
        exact fun _ failed => Except.error.inj failed ▸ (read stop stopped).error leaveObject
      · split
        · rename_i c _ _ reason refused
          have raised : Stop.Blames known start (.raised reason c) :=
            Fields.known_of_finish missing refused
          exact fun _ failed => Except.error.inj failed ▸ raised.error leaveObject
        · exact (grammatical_closeObject _).blames.bind fun _ => failsAs_ok _
    · exact failsAs_refuseToken type c

end Format

end MergeNotes.Json
