import MergeNotes.Json.Format

/-! Failures of readers, and those that are for the grammar only: tokens, and values that are passed
over. -/

namespace MergeNotes.Json

variable {α β : Type}

/-- Where a result is a failure, it is one of a kind. -/
def FailsAs (kind : Error → Prop) (result : Except Error α) : Prop :=
  ∀ error, result = .error error → kind error

/-- A refusal that says nothing of the value. -/
def Error.IsGrammar (error : Error) : Prop :=
  ∀ mismatch, error.fault ≠ .content mismatch

section FailsAs

variable {kind other : Error → Prop} {result : Except Error α}

theorem failsAs_ok (value : α) : FailsAs kind (.ok value) :=
  nofun

theorem FailsAs.mono (fails : FailsAs kind result) (weaker : ∀ error, kind error → other error) :
    FailsAs other result :=
  fun error failed => weaker error (fails error failed)

/-- A chain of two results fails as they do. -/
theorem FailsAs.bind {next : α → Except Error β} (first : FailsAs kind result)
    (second : ∀ value, FailsAs kind (next value)) : FailsAs kind (result >>= next) := by
  cases result with
  | error error => exact fun _ failed => Except.error.inj failed ▸ first error rfl
  | ok value => exact second value

theorem FailsAs.map {make : α → β} (fails : FailsAs kind result) :
    FailsAs kind (result.map make) := by
  cases result with
  | error error => exact fun _ failed => Except.error.inj failed ▸ fails error rfl
  | ok value => exact failsAs_ok _

/-- What fails in a part of a value fails in the value, behind one more step. -/
theorem FailsAs.within {segment : Segment} (fails : FailsAs kind result)
    (seen : ∀ error, kind error → other (error.within segment)) :
    FailsAs other (Json.within segment result) := by
  cases result with
  | error error => exact fun _ failed => Except.error.inj failed ▸ seen error (fails error rfl)
  | ok value => exact failsAs_ok _

end FailsAs

/-! Tokens, and what stands between them. -/

/-- A result that fails for the grammar only. -/
def Grammatical (result : Except Error α) : Prop :=
  FailsAs Error.IsGrammar result

theorem Grammatical.within {segment : Segment} {result : Except Error α}
    (grammatical : Grammatical result) : Grammatical (Json.within segment result) :=
  FailsAs.within grammatical fun _ unsaid => unsaid

@[simp] theorem grammatical_ok (value : α) : Grammatical (.ok value) :=
  failsAs_ok value

@[simp] theorem grammatical_fail (c : Cursor) (defect : Defect) :
    Grammatical (c.fail defect : Except Error α) := by
  rintro _ failed mismatch said
  cases failed
  cases said

@[simp] theorem grammatical_failNext (c : Cursor) (defect : Defect) :
    Grammatical (c.failNext defect : Except Error α) :=
  grammatical_fail c.advance defect

theorem grammatical_readWord (word : List UInt8) : ∀ c, Grammatical (readWord word c) := by
  induction word with
  | nil => exact fun c => grammatical_ok c
  | cons expected word ih =>
    intro c
    rw [readWord]
    split
    · exact grammatical_fail _ _
    · split
      · exact ih _
      · exact grammatical_fail _ _

theorem grammatical_readStringFrom (state : StringState) (found bytes : List UInt8)
    (position : Position) : Grammatical (readStringFrom state found bytes position) := by
  induction bytes generalizing state found position with
  | nil => exact grammatical_fail _ _
  | cons byte bytes ih =>
    rw [readStringFrom]
    dsimp only
    split
    · exact grammatical_fail _ _
    · exact grammatical_ok _
    · exact ih _ _ _

theorem grammatical_readString (c : Cursor) : Grammatical (readString c) := by
  unfold readString
  refine FailsAs.bind (grammatical_readStringFrom _ _ _ _) fun (data, after) => ?_
  dsimp only
  split
  · exact grammatical_ok _
  · exact grammatical_fail _ _

theorem grammatical_skipStringFrom (state : SkipState) (bytes : List UInt8)
    (position : Position) : Grammatical (skipStringFrom state bytes position) := by
  induction bytes generalizing state position with
  | nil => exact grammatical_fail _ _
  | cons byte bytes ih =>
    rw [skipStringFrom.eq_def]
    dsimp only
    repeat' split
    all_goals first | exact ih _ _ | exact grammatical_ok _ | exact grammatical_fail _ _

theorem grammatical_readScaled (negative : Bool) (significand : Nat) (exponent : Int)
    (c : Cursor) : Grammatical (readScaled negative significand exponent c) := by
  unfold readScaled
  split <;> simp

theorem grammatical_readExponent (negative : Bool) (significand : Nat) (exponent : Int)
    (c : Cursor) : Grammatical (readExponent negative significand exponent c) := by
  unfold readExponent
  dsimp only
  repeat' split
  all_goals simp [grammatical_readScaled]

theorem grammatical_readFraction (negative : Bool) (significand : Nat) (exponent : Int)
    (c : Cursor) : Grammatical (readFraction negative significand exponent c) := by
  unfold readFraction
  dsimp only
  repeat' split
  all_goals simp [grammatical_readScaled, grammatical_readExponent]

theorem grammatical_readNumber (negative : Bool) (c : Cursor) :
    Grammatical (readNumber negative c) := by
  unfold readNumber
  dsimp only
  repeat' split
  all_goals simp [grammatical_readScaled, grammatical_readExponent, grammatical_readFraction]

theorem grammatical_skipExponent (c : Cursor) : Grammatical (skipExponent c) := by
  unfold skipExponent
  dsimp only
  split <;> simp

theorem grammatical_skipNumber (c : Cursor) : Grammatical (skipNumber c) := by
  unfold skipNumber
  repeat' split
  all_goals simp [grammatical_skipExponent]

theorem grammatical_nextToken (c : Cursor) : Grammatical (nextToken c) := by
  unfold nextToken
  dsimp only
  split <;> simp

theorem grammatical_nextItem (isFirst : Bool) (c : Cursor) :
    Grammatical (nextItem isFirst c) := by
  unfold nextItem
  dsimp only
  repeat' split
  all_goals simp

theorem grammatical_nextMember (isFirst : Bool) (c : Cursor) :
    Grammatical (nextMember isFirst c) := by
  unfold nextMember
  dsimp only
  repeat' split
  all_goals simp

theorem grammatical_readColon (c : Cursor) : Grammatical (readColon c) := by
  unfold readColon
  dsimp only
  repeat' split
  all_goals simp

theorem grammatical_closeArray (c : Cursor) : Grammatical (closeArray c) := by
  unfold closeArray
  dsimp only
  repeat' split
  all_goals simp

theorem grammatical_closeObject (c : Cursor) : Grammatical (closeObject c) := by
  unfold closeObject
  dsimp only
  repeat' split
  all_goals simp

theorem grammatical_readKey (c : Cursor) : Grammatical (readKey c) :=
  (grammatical_readString _).within

theorem grammatical_expectEnd (c : Cursor) : Grammatical (expectEnd c) := by
  unfold expectEnd
  dsimp only
  split <;> simp

/-! Values that are passed over. -/

theorem grammatical_skipItems {item : Cursor → Except Error Cursor}
    (grammatical : ∀ c, Grammatical (item c)) (fuel : Nat) :
    ∀ c, Grammatical (skipItems item fuel c) := by
  induction fuel with
  | zero => exact fun c => grammatical_fail _ _
  | succ fuel ih =>
    intro c
    refine FailsAs.bind (grammatical c) fun behind => ?_
    dsimp only
    repeat' split
    all_goals first | exact ih _ | exact grammatical_ok _ | exact grammatical_fail _ _

theorem grammatical_skipMembers {value : Cursor → Except Error Cursor}
    (grammatical : ∀ c, Grammatical (value c)) (fuel : Nat) :
    ∀ c, Grammatical (skipMembers value fuel c) := by
  induction fuel with
  | zero => exact fun c => grammatical_fail _ _
  | succ fuel ih =>
    intro c
    rw [skipMembers]
    dsimp only
    split
    · exact grammatical_fail _ _
    · split
      · exact grammatical_failNext _ _
      · refine FailsAs.bind (grammatical_skipStringFrom _ _ _) fun behindKey => ?_
        refine FailsAs.bind (grammatical_readColon _) fun behindColon => ?_
        refine FailsAs.bind (grammatical _) fun behind => ?_
        repeat' split
        all_goals first | exact ih _ | exact grammatical_ok _ | exact grammatical_fail _ _

theorem grammatical_skipValueWithin (fuel : Nat) :
    ∀ c, Grammatical (skipValueWithin fuel c) := by
  induction fuel with
  | zero => exact fun c => grammatical_fail _ _
  | succ fuel ih =>
    intro c
    rw [skipValueWithin]
    dsimp only
    repeat' split
    all_goals first
      | exact grammatical_ok _
      | exact grammatical_fail _ _
      | exact grammatical_readWord _ _
      | exact grammatical_skipNumber _
      | exact grammatical_skipStringFrom _ _ _
      | exact grammatical_skipItems ih _ _
      | exact grammatical_skipMembers ih _ _

end MergeNotes.Json
