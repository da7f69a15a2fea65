import Mathlib
import MergeNotes.MergeRequest
import MergeNotes.Proofs.Json.Formats
import MergeNotes.Proofs.Result
import MergeNotes.Report

/-! What leniency adds to decoding: to lists a lone item, and to some records their first field. -/

namespace MergeNotes.Json

variable {α β : Type} {format : Format α} {text : String} {value : Value} {a : α} {refusal : Error}

/-- A value that is no array. -/
def Value.IsLone : Value → Prop
  | .array _ => False
  | _ => True

theorem Value.isLone_or_array (value : Value) :
    value.IsLone ∨ ∃ items, value = .array items := by
  cases value with
  | array items => exact .inr ⟨items, rfl⟩
  | _ => exact .inl trivial

namespace Format

/-- What a format decodes needs no leniency. -/
theorem decodeLenient_of_decode (parsed : parse text = .ok value)
    (decoded : format.decode value = .ok a) : format.decodeLenient text = .ok a := by
  simp only [decodeLenient, parsed, bind, Except.bind, decoded]

/-- A lone value that is refused is tried as the only item of an array. -/
theorem decodeLenient_of_refused (parsed : parse text = .ok value) (lone : value.IsLone)
    (refused : format.decode value = .error refusal) :
    format.decodeLenient text = (format.decode (.array [value])).mapError fun _ => refusal := by
  cases value with
  | array items => exact lone.elim
  | _ =>
    simp only [decodeLenient, parsed, bind, Except.bind, refused, Option.map_some]
    generalize format.decode (.array [_]) = again
    cases again <;> rfl

/-- An array of anything is tried once. -/
theorem decodeLenient_array {item : Value} {items : List Value}
    (parsed : parse text = .ok (.array (item :: items))) :
    format.decodeLenient text = format.decode (.array (item :: items)) := by
  simp only [decodeLenient, parsed, bind, Except.bind, Option.map_none]
  cases format.decode (.array (item :: items)) <;> rfl

/-- A lone value is accepted as it stands, or else as the only item of an array. -/
theorem decodeLenient_eq_ok_iff (parsed : parse text = .ok value) (lone : value.IsLone) :
    format.decodeLenient text = .ok a ↔
      format.decode value = .ok a ∨
        (∃ refusal, format.decode value = .error refusal) ∧
          format.decode (.array [value]) = .ok a := by
  cases decoded : format.decode value with
  | ok other =>
    rw [decodeLenient_of_decode parsed decoded]
    simp
  | error refusal =>
    rw [decodeLenient_of_refused parsed lone decoded, mapError_eq_ok_iff]
    simp

/-- The items of an array are decoded one by one. -/
theorem mapM_eq_ok_iff {ε γ : Type} {f : β → Except ε γ} {items : List β} {founds : List γ} :
    items.mapM f = .ok founds ↔
      List.Forall₂ (fun item found => f item = .ok found) items founds := by
  refine ⟨fun mapped => ?_, mapM_of_forall₂⟩
  induction items generalizing founds with
  | nil =>
    cases mapped
    exact .nil
  | cons item items ih =>
    rw [List.mapM_cons] at mapped
    obtain ⟨first, decoded, mapped⟩ := exists_ok_of_bind mapped
    obtain ⟨others, later, same⟩ := exists_ok_of_bind mapped
    cases same
    exact .cons decoded (ih later)

/-- A lone value is no list. -/
theorem list_decode_lone (lone : value.IsLone) :
    format.list.decode value = wrongType value "a sequence" := by
  cases value with
  | array items => exact lone.elim
  | _ => rfl

/-- A list is accepted in one of two forms: an array whose items are all of the format, in which
nothing is decoded leniently, or one item alone. The error is always that of the value as a list. -/
theorem decodeLenient_list (parsed : parse text = .ok value) :
    (∀ found : List α, format.list.decodeLenient text = .ok found ↔
      (∃ items, value = .array items ∧
        List.Forall₂ (fun item a => format.decode item = .ok a) items found) ∨
      value.IsLone ∧ ∃ a, format.decode value = .ok a ∧ found = [a]) ∧
    ∀ refusal, format.list.decodeLenient text = .error refusal ↔
      format.list.decode value = .error refusal ∧
        (value.IsLone → ∃ reason, format.decode value = .error reason) := by
  rcases value.isLone_or_array with lone | ⟨items, rfl⟩
  · -- The list of one is that of what the item is decoded as, if it is.
    have single : format.list.decodeLenient text =
        ([value].mapM format.decode).mapError fun _ =>
          ⟨.content (.wrongType value.found "a sequence"), none, []⟩ :=
      decodeLenient_of_refused parsed lone (list_decode_lone lone)
    have noArray : ∀ items, value ≠ .array items := by
      intro items same
      exact (same ▸ lone : (Value.array items).IsLone)
    rw [list_decode_lone lone, single]
    cases decoded : format.decode value with
    | ok a =>
      have accepted : [value].mapM format.decode = .ok [a] := mapM_of_forall₂ (.cons decoded .nil)
      rw [accepted]
      simp [noArray, lone, Except.mapError, eq_comm]
    | error reason =>
      have refused : [value].mapM format.decode = .error reason := by
        rw [List.mapM_cons, decoded]
        rfl
      rw [refused]
      simp [noArray, Except.mapError, wrongType, mismatch]
  · -- An array is decoded once, empty or not.
    have once : format.list.decodeLenient text = items.mapM format.decode := by
      cases items with
      | nil => exact decodeLenient_of_decode parsed rfl
      | cons item items => exact decodeLenient_array parsed
    have whole : format.list.decode (.array items) = items.mapM format.decode := rfl
    rw [once, whole]
    refine ⟨fun found => ?_, fun refusal => ⟨fun failed => ⟨failed, False.elim⟩, And.left⟩⟩
    rw [mapM_eq_ok_iff]
    constructor
    · intro each
      exact .inl ⟨items, rfl, each⟩
    · intro taken
      obtain ⟨others, same, each⟩ | ⟨lone, _⟩ := taken
      · rwa [Value.array.inj same]
      · exact lone.elim

/-- A commit may have the form of an array or of an object in a list of commits, and an array that
is a commit by itself is no list of it. -/
theorem decodeLenient_list_commits :
    (parse "[[\"a\"], \x7b\"id\": \"b\"\x7d]" =
        .ok (.array [.array [.string "a"], .object [("id", .string "b")]]) ∧
      (list Commit.format).decodeLenient "[[\"a\"], \x7b\"id\": \"b\"\x7d]" = .ok [⟨"a"⟩, ⟨"b"⟩]) ∧
    parse "[\"a\"]" = .ok (.array [.string "a"]) ∧
      Commit.format.decode (.array [.string "a"]) = .ok ⟨"a"⟩ ∧
      (list Commit.format).decodeLenient "[\"a\"]" =
        .error ⟨.content (.wrongType (.string "a") "struct GitLabCommit"), none, []⟩ := by
  have both : parse "[[\"a\"], \x7b\"id\": \"b\"\x7d]" =
      .ok (.array [.array [.string "a"], .object [("id", .string "b")]]) := by cbv
  have single : parse "[\"a\"]" = .ok (.array [.string "a"]) := by cbv
  exact ⟨⟨both, ((decodeLenient_list both).1 _).2 (.inl ⟨_, rfl, .cons rfl (.cons rfl .nil)⟩)⟩,
    single, rfl, ((decodeLenient_list single).2 _).2 ⟨rfl, False.elim⟩⟩

/-- What leniency accepts of a text besides what the format decodes of its value. -/
def AlsoAccepts (format : Format α) (text : String) (value : Value) (also : α → Prop) : Prop :=
  ∀ a, format.decodeLenient text = .ok a ↔ format.decode value = .ok a ∨ also a

/-- Leniency adds nothing to what the format decodes of the value of a text. -/
def IsExact (format : Format α) (text : String) (value : Value) : Prop :=
  ∀ a, format.decodeLenient text = .ok a ↔ format.decode value = .ok a

end Format

/-- The values of fields that are all absent. -/
def Fields.absent? {σ γ : Type} : Fields σ γ → Option γ
  | none => some ()
  | field _ _ absent rest => absent.bind fun a => rest.absent?.map fun others => (a, others)

/-- Where no item is left, all further fields are absent. -/
theorem Fields.decodeItems_nil {σ γ : Type} (expected : String) (fields : Fields σ γ) (index : Nat)
    {values : γ} {left : List Value} :
    fields.decodeItems expected index [] = .ok (values, left) ↔
      fields.absent? = some values ∧ left = [] := by
  induction fields generalizing index with
  | none => simp [decodeItems, absent?, eq_comm]
  | field name format absent rest ih =>
    cases absent with
    | none => simp [decodeItems, absent?, mismatch]
    | some a =>
      -- This field is absent, and those behind it must be so too.
      obtain ⟨first, others⟩ := values
      rw [decodeItems, absent?, Option.bind_some, Option.map_eq_some_iff]
      dsimp only
      constructor
      · intro decoded
        obtain ⟨⟨found, more⟩, later, same⟩ := exists_ok_of_map decoded
        simp only [Prod.mk.injEq] at same
        obtain ⟨⟨rfl, rfl⟩, rfl⟩ := same
        obtain ⟨known, empty⟩ := (ih (index + 1)).1 later
        exact ⟨⟨_, known, rfl⟩, empty⟩
      · intro taken
        obtain ⟨⟨found, known, same⟩, rfl⟩ := taken
        rw [(ih (index + 1)).2 ⟨known, rfl⟩, ← same]
        rfl

namespace Format

/-- A format of single values: all formats but those of lists. -/
inductive IsSingle : {α : Type} → Format α → Prop
  | string : IsSingle .string
  | natural (name : String) (limit : Nat) : IsSingle (.natural name limit)
  | choice {α : Type} (options : List (String × α)) (nameOf : α → String) :
      IsSingle (.choice options nameOf)
  | record {α σ γ : Type} (name : String) (fields : Fields σ γ) (make : γ → α) (parts : α → γ) :
      IsSingle (.record name fields make parts)
  | dict {κ ν : Type} [Ord κ] [Std.TransOrd κ] [Std.LawfulEqOrd κ] (key : KeyFormat κ)
      (format : Format ν) : IsSingle (.dict key format)
  | transport {α β : Type} {format : Format α} (single : IsSingle format) (make : α → β)
      (parts : β → α) : IsSingle (format.transport make parts)
  | option {α : Type} {format : Format α} (single : IsSingle format) : IsSingle format.option

/-- A value is taken for the first field of a record whose other fields may all be absent. -/
inductive TakesAsFirst : {α : Type} → Format α → Value → α → Prop
  | record {α β σ γ : Type} {value : Value} (name field : String) {format : Format β}
      (absent : Option β) {rest : Fields σ γ} (make : β × γ → α) (parts : α → β × γ) {first : β}
      {others : γ} (decoded : format.decode value = .ok first)
      (left : rest.absent? = some others) :
      TakesAsFirst (.record name (.field field format absent rest) make parts) value
        (make (first, others))
  | transport {α β : Type} {format : Format α} {value : Value} {a : α} (make : α → β)
      (parts : β → α) (takes : TakesAsFirst format value a) :
      TakesAsFirst (format.transport make parts) value (make a)
  | option {α : Type} {format : Format α} {value : Value} {a : α}
      (takes : TakesAsFirst format value a) : TakesAsFirst format.option value (some a)

/-- A record is decoded from an array of one item if that is its first field and no other field
must be there. -/
theorem record_decode_singleton {σ γ : Type} (name field : String) {first : Format β}
    (absent : Option β) (rest : Fields σ γ) (make : β × γ → α) (parts : α → β × γ) :
    (record name (.field field first absent rest) make parts).decode (.array [value]) = .ok a ↔
      ∃ b others, first.decode value = .ok b ∧ rest.absent? = some others ∧
        make (b, others) = a := by
  simp only [record, Fields.decodeItems]
  cases decoded : first.decode value with
  | error refusal => simp
  | ok b =>
    simp only [Except.ok.injEq]
    -- Behind the first item there is none for the other fields.
    cases items : rest.decodeItems _ (0 + 1) [] with
    | error refusal =>
      have missing : rest.absent? = none := by
        cases known : rest.absent? with
        | none => rfl
        | some others =>
          rw [(rest.decodeItems_nil _ _).2 ⟨known, rfl⟩] at items
          cases items
      simp [missing, Except.map]
    | ok found =>
      obtain ⟨others, left⟩ := found
      obtain ⟨known, rfl⟩ := (rest.decodeItems_nil _ _).1 items
      simp [known, Except.map]

/-- What is taken for a first field is decoded as the only item of an array. -/
theorem TakesAsFirst.decode_singleton (takes : format.TakesAsFirst value a) :
    format.decode (.array [value]) = .ok a := by
  induction takes with
  | record name field absent make parts decoded left =>
    exact (record_decode_singleton ..).2 ⟨_, _, decoded, left, rfl⟩
  | @transport _ _ format _ _ make parts _ ih =>
    show (format.decode _).map make = _
    rw [ih]
    rfl
  | @option _ format _ _ _ ih =>
    show (format.decode _).map some = _
    rw [ih]
    rfl

/-- An array of one item is decoded as a single value only if the item is its first field. -/
theorem IsSingle.decode_singleton_iff (single : format.IsSingle) :
    format.decode (.array [value]) = .ok a ↔ format.TakesAsFirst value a := by
  refine ⟨fun decoded => ?_, TakesAsFirst.decode_singleton⟩
  induction single with
  | string => cases decoded
  | natural => cases decoded
  | choice => cases decoded
  | dict => cases decoded
  | record name fields make parts =>
    cases fields with
    | none => cases decoded
    | field field first absent rest =>
      obtain ⟨b, others, head, left, rfl⟩ := (record_decode_singleton ..).1 decoded
      exact .record name field absent make parts head left
  | transport _ make parts ih =>
    obtain ⟨part, inner, rfl⟩ := exists_ok_of_map decoded
    exact .transport make parts (ih inner)
  | option _ ih =>
    obtain ⟨part, inner, rfl⟩ := exists_ok_of_map decoded
    exact .option (ih inner)

/-- What leniency accepts where a value may be absent: what it accepts of the value, but `null`. -/
theorem AlsoAccepts.option {also : α → Prop} (parsed : parse text = .ok value)
    (lone : value.IsLone) (accepts : format.AlsoAccepts text value also) :
    format.option.AlsoAccepts text value fun found =>
      value ≠ .null ∧ ∃ a, also a ∧ found = some a := by
  intro found
  by_cases null : value = .null
  · -- An absent value is decoded as such, and no other is.
    subst null
    have absent : format.option.decode .null = .ok none := rfl
    rw [decodeLenient_of_decode parsed absent, absent]
    simp
  · have present : format.option.decode value = (format.decode value).map some := by
      cases value with
      | null => exact absurd rfl null
      | _ => rfl
    have again : format.option.decode (.array [value]) =
        (format.decode (.array [value])).map some := rfl
    have inner := accepts
    simp only [AlsoAccepts] at inner
    simp only [decodeLenient_eq_ok_iff parsed lone] at inner ⊢
    rw [present, again]
    cases decoded : format.decode value with
    | ok b =>
      -- Whatever else is accepted of the value is what it is decoded as.
      have same (a : α) (other : also a) : b = a := by
        simpa [decoded] using (inner a).2 (.inr other)
      constructor
      · intro taken
        obtain accepted | ⟨⟨_, refused⟩, _⟩ := taken
        · exact .inl accepted
        · cases refused
      · intro taken
        obtain accepted | ⟨_, a, other, rfl⟩ := taken
        · exact .inl accepted
        · exact .inl (congrArg (Except.ok <| some ·) (same a other))
    | error refusal =>
      -- What the value is refused as, the array of it is accepted as.
      have known (a : α) : format.decode (.array [value]) = .ok a ↔ also a := by
        simpa [decoded] using inner a
      constructor
      · intro taken
        obtain accepted | ⟨_, accepted⟩ := taken
        · cases accepted
        · obtain ⟨a, read, rfl⟩ := exists_ok_of_map accepted
          exact .inr ⟨null, a, (known a).1 read, rfl⟩
      · intro taken
        obtain accepted | ⟨_, a, other, rfl⟩ := taken
        · cases accepted
        · exact .inr ⟨⟨refusal, rfl⟩, by rw [(known a).2 other]; rfl⟩

/-- Nothing is accepted besides what is decoded, if no array of one item is. -/
theorem isExact_of_refused (parsed : parse text = .ok value) (lone : value.IsLone)
    (refused : ∀ a, format.decode (.array [value]) ≠ .ok a) : format.IsExact text value := by
  intro a
  rw [decodeLenient_eq_ok_iff parsed lone]
  exact or_iff_left fun again => refused a again.2

/-- A record with a second field that must be there is decoded exactly. -/
theorem isExact_record {σ γ : Type} (parsed : parse text = .ok value) (lone : value.IsLone)
    (name field : String) {first : Format β} (absent : Option β) {rest : Fields σ γ}
    (make : β × γ → α) (parts : α → β × γ) (needed : rest.absent? = none) :
    (record name (.field field first absent rest) make parts).IsExact text value := by
  apply isExact_of_refused parsed lone
  intro a decoded
  obtain ⟨_, others, _, left, _⟩ := (record_decode_singleton ..).1 decoded
  rw [needed] at left
  cases left

theorem string_decode_eq_ok_iff {found : String} :
    string.decode value = .ok found ↔ value = .string found := by
  cases value with
  | string text => simp [string]
  | _ => simp [string, wrongType, mismatch]

theorem natural_decode_eq_ok_iff {name : String} {limit n : Nat} :
    (natural name limit).decode value = .ok n ↔ n < limit ∧ value = .number (.natural n) := by
  cases value with
  | number number =>
    cases number with
    | natural other =>
      simp only [natural, fitNumber, Value.number.injEq, Number.natural.injEq]
      by_cases small : other < limit
      · simp only [if_pos small, Except.ok.injEq]
        constructor
        · intro same
          exact ⟨same ▸ small, same⟩
        · exact And.right
      · simp only [if_neg small]
        constructor
        · intro refused
          cases refused
        · intro taken
          obtain ⟨fits, same⟩ := taken
          exact absurd (same ▸ fits) small
    | _ => simp [natural, fitNumber, mismatch]
  | _ => simp [natural, wrongType, mismatch]

theorem u64_decode_eq_ok_iff {n : UInt64} :
    u64.decode value = .ok n ↔ value = .number (.natural n.toNat) := by
  constructor
  · intro decoded
    obtain ⟨m, read, rfl⟩ := exists_ok_of_map decoded
    obtain ⟨small, same⟩ := natural_decode_eq_ok_iff.1 read
    rw [same, UInt64.toNat_ofNat_of_lt' small]
  · intro same
    rw [same]
    exact (keeps_u64 0 n).decodes (.refl _)

end Format

end MergeNotes.Json

namespace MergeNotes

open Json (Format Value parse)

variable {text : String} {value : Value}

/-- A number below `2 ^ 64` alone is taken for the merge request with that number. -/
theorem MergeRequest.alsoAccepts (parsed : parse text = .ok value) (lone : value.IsLone) :
    MergeRequest.format.AlsoAccepts text value fun mergeRequest => ∃ iid : UInt64,
      value = .number (.natural iid.toNat) ∧ mergeRequest = ⟨iid, none, none, none⟩ := by
  intro a
  refine (Format.decodeLenient_eq_ok_iff parsed lone).trans (or_congr_right ?_)
  rw [MergeRequest.format, Format.record_decode_singleton]
  constructor
  · intro taken
    obtain ⟨_, iid, others, decoded, absent, made⟩ := taken
    -- Nothing but the number is there.
    cases absent
    exact ⟨iid, Format.u64_decode_eq_ok_iff.1 decoded, made.symm⟩
  · intro taken
    obtain ⟨iid, number, only⟩ := taken
    subst number only
    exact ⟨⟨_, rfl⟩, iid, _, Format.u64_decode_eq_ok_iff.2 rfl, rfl, rfl⟩

/-- Nothing alone, or a string, is taken for the commits of a diff as far as their base. -/
theorem DiffRefs.alsoAccepts (parsed : parse text = .ok value) (lone : value.IsLone) :
    DiffRefs.format.AlsoAccepts text value fun refs =>
      value = .null ∧ refs = ⟨none, none, none⟩ ∨
        ∃ base, value = .string base ∧ refs = ⟨some base, none, none⟩ := by
  intro a
  refine (Format.decodeLenient_eq_ok_iff parsed lone).trans (or_congr_right ?_)
  rw [DiffRefs.format, Format.record_decode_singleton]
  constructor
  · intro taken
    obtain ⟨_, base, others, decoded, absent, made⟩ := taken
    cases absent
    -- The base may be absent itself, and is a string otherwise.
    cases value with
    | null =>
      cases decoded
      exact .inl ⟨rfl, made.symm⟩
    | string text =>
      cases decoded
      exact .inr ⟨text, rfl, made.symm⟩
    | _ => cases decoded
  · intro taken
    obtain ⟨rfl, rfl⟩ | ⟨base, rfl, rfl⟩ := taken
    · exact ⟨⟨_, rfl⟩, none, _, rfl, rfl, rfl⟩
    · exact ⟨⟨_, rfl⟩, some base, _, rfl, rfl, rfl⟩

/-- A string alone is taken for the commit with that id. -/
theorem Commit.alsoAccepts (parsed : parse text = .ok value) (lone : value.IsLone) :
    Commit.format.AlsoAccepts text value fun commit => value = .string commit.id := by
  intro a
  refine (Format.decodeLenient_eq_ok_iff parsed lone).trans (or_congr_right ?_)
  rw [Commit.format, Format.record_decode_singleton]
  constructor
  · intro taken
    obtain ⟨_, id, others, decoded, absent, made⟩ := taken
    subst made
    exact Format.string_decode_eq_ok_iff.1 decoded
  · intro string
    subst string
    exact ⟨⟨_, rfl⟩, a.id, (), rfl, rfl, rfl⟩

/-- Of a lone value leniency accepts what a format of single values decodes, and besides it what
passes for the first field of a record that needs no other. Of the types in use, three are such
records, and for them and what may be absent it is said what passes. -/
theorem lenient_single_values (parsed : parse text = .ok value) (lone : value.IsLone) :
    (∀ (α : Type) (format : Format α), format.IsSingle → format.AlsoAccepts text value fun a =>
      (∃ refusal, format.decode value = .error refusal) ∧ format.TakesAsFirst value a) ∧
    (Format.string.IsExact text value ∧ Format.u32.IsExact text value ∧
      Gate.format.IsExact text value ∧ Evaluation.format.IsExact text value ∧
      IssueStatus.format.IsExact text value ∧ Condition.format.IsExact text value ∧
      Issue.format.IsExact text value ∧ Report.format.IsExact text value) ∧
    MergeRequest.format.AlsoAccepts text value (fun mergeRequest => ∃ iid : UInt64,
      value = .number (.natural iid.toNat) ∧ mergeRequest = ⟨iid, none, none, none⟩) ∧
    DiffRefs.format.AlsoAccepts text value (fun refs =>
      value = .null ∧ refs = ⟨none, none, none⟩ ∨
        ∃ base, value = .string base ∧ refs = ⟨some base, none, none⟩) ∧
    Commit.format.AlsoAccepts text value (fun commit => value = .string commit.id) ∧
    ∀ (α : Type) (format : Format α) (also : α → Prop), format.AlsoAccepts text value also →
      format.option.AlsoAccepts text value fun found =>
        value ≠ .null ∧ ∃ a, also a ∧ found = some a := by
  refine ⟨?_, ?_, MergeRequest.alsoAccepts parsed lone, DiffRefs.alsoAccepts parsed lone,
    Commit.alsoAccepts parsed lone, fun _ _ _ accepts => accepts.option parsed lone⟩
  · intro α format single a
    rw [Format.decodeLenient_eq_ok_iff parsed lone, single.decode_singleton_iff]
  · -- None of these is decoded from an array of one item: no array is a string, a number or a
    -- constant, and the records have two fields at least that must be there.
    have refusing {α : Type} {format : Format α} {refusal : Json.Error}
        (refused : format.decode (.array [value]) = .error refusal) :
        format.IsExact text value := by
      apply Format.isExact_of_refused parsed lone
      intro a decoded
      rw [refused] at decoded
      cases decoded
    exact ⟨refusing rfl, refusing rfl, refusing rfl, refusing rfl, refusing rfl,
      Format.isExact_record parsed lone _ _ _ _ _ rfl,
      Format.isExact_record parsed lone _ _ _ _ _ rfl,
      Format.isExact_record parsed lone _ _ _ _ _ rfl⟩

/-- The number 7 alone is taken for a merge request, present or not, but for no condition. -/
theorem lenient_single_values_seven :
    (parse "7" = .ok (.number (.natural 7)) ∧ Value.IsLone (.number (.natural 7))) ∧
    (MergeRequest.format.IsSingle ∧
      MergeRequest.format.decodeLenient "7" = .ok ⟨7, none, none, none⟩) ∧
    MergeRequest.format.option.decodeLenient "7" = .ok (some ⟨7, none, none, none⟩) ∧
    ∀ condition, Condition.format.decodeLenient "7" ≠ .ok condition := by
  have parsed : parse "7" = .ok (.number (.natural 7)) := by cbv
  have single : MergeRequest.format.IsSingle := .record _ _ _ _
  have takes : MergeRequest.format.TakesAsFirst (.number (.natural 7)) ⟨7, none, none, none⟩ :=
    single.decode_singleton_iff.1 rfl
  obtain ⟨general, ⟨_, _, _, _, _, conditions, _⟩, mergeRequests, _, _, options⟩ :=
    lenient_single_values parsed trivial
  refine ⟨⟨parsed, trivial⟩, ⟨single, ?_⟩, ?_, fun condition accepted => ?_⟩
  · exact (general _ _ single _).2 (.inr ⟨⟨_, rfl⟩, takes⟩)
  · have present : Value.number (.natural 7) ≠ .null := by simp
    exact (options _ _ _ mergeRequests _).2 (.inr ⟨present, _, ⟨7, rfl, rfl⟩, rfl⟩)
  · cases (conditions _).1 accepted

/-- Single values are not always decoded exactly: a lone number makes a merge request. -/
theorem number_taken_for_mergeRequest :
    ¬ ∀ (α : Type) (format : Format α) (text : String) (value : Value), format.IsSingle →
      parse text = .ok value → value.IsLone → format.IsExact text value := by
  intro exact
  have single : MergeRequest.format.IsSingle := .record _ _ _ _
  have parsed : parse "7" = .ok (.number (.natural 7)) := by cbv
  have accepted := (MergeRequest.alsoAccepts parsed trivial _).2 (.inr ⟨7, rfl, rfl⟩)
  cases (exact _ _ _ _ single parsed trivial _).1 accepted

end MergeNotes
