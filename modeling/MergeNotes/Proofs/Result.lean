/-! Results that may be failures, or absent. -/

namespace MergeNotes

variable {ε α β : Type}

/-- A chain of two results is a value only if both are. -/
theorem exists_ok_of_bind {first : Except ε α} {next : α → Except ε β} {value : β}
    (ok : (first >>= next) = .ok value) :
    ∃ between, first = .ok between ∧ next between = .ok value := by
  cases first with
  | error failure => cases ok
  | ok between => exact ⟨between, rfl, ok⟩

/-- What becomes of a result is a value only if the result is. -/
theorem exists_ok_of_map {result : Except ε α} {make : α → β} {value : β}
    (ok : result.map make = .ok value) : ∃ part, result = .ok part ∧ make part = value := by
  cases result with
  | error failure => cases ok
  | ok part => exact ⟨part, rfl, Except.ok.inj ok⟩

/-- What is made of values leaves the failures as they are. -/
theorem error_of_map {result : Except ε α} {make : α → β} {failure : ε}
    (failed : result.map make = .error failure) : result = .error failure := by
  cases result with
  | error reason => exact congrArg _ (Except.error.inj failed)
  | ok part => cases failed

/-- Whatever is made of failures, the values stay what they are. -/
theorem mapError_eq_ok_iff {make : ε → β} {result : Except ε α} {value : α} :
    result.mapError make = .ok value ↔ result = .ok value := by
  cases result with
  | error failure => exact ⟨nofun, nofun⟩
  | ok other => exact ⟨fun same => congrArg _ (Except.ok.inj same),
      fun same => congrArg _ (Except.ok.inj same)⟩

/-- What is made of failures is a failure only where there was one. -/
theorem mapError_eq_error_iff {make : ε → β} {result : Except ε α} {failure : β} :
    result.mapError make = .error failure ↔ ∃ reason, result = .error reason ∧
      make reason = failure := by
  cases result with
  | error reason =>
    constructor
    · intro same
      exact ⟨reason, rfl, Except.error.inj same⟩
    · rintro ⟨other, same, rfl⟩
      rw [Except.error.inj same]
      rfl
  | ok value => exact ⟨nofun, nofun⟩

/-- What can be told of a value can be told of a result that is one. -/
theorem exists_ok_of_toOption {result : Except ε α} {tell : α → β} {value : β}
    (told : result.toOption.map tell = some value) :
    ∃ part, result = .ok part ∧ tell part = value := by
  cases result with
  | error failure => cases told
  | ok part => exact ⟨part, rfl, Option.some.inj told⟩

/-- What holds of each result holds of all results of a row. -/
theorem forall_of_mapM_eq_some {f : α → Option β} {property : β → Prop}
    (each : ∀ item result, f item = some result → property result) {items : List α} :
    ∀ {results : List β}, items.mapM f = some results → ∀ result ∈ results, property result := by
  induction items with
  | nil =>
    intro results same
    simp only [List.mapM_nil, Option.pure_def, Option.some.injEq] at same
    simp [← same]
  | cons item items ih =>
    intro results same
    simp only [List.mapM_cons, Option.pure_def, Option.bind_eq_bind, Option.bind_eq_some_iff,
      Option.some.injEq] at same
    -- The first result comes of the first item, and the others of the others.
    obtain ⟨first, found, rest, others, rfl⟩ := same
    exact List.forall_mem_cons.2 ⟨each item first found, ih others⟩

/-- Working through a list fails where one item fails. -/
theorem exists_error_of_mapM {ε α β : Type} {f : α → Except ε β} {items : List α} {failure : ε}
    (failed : items.mapM f = .error failure) : ∃ item ∈ items, f item = .error failure := by
  induction items with
  | nil => simp [pure, Except.pure] at failed
  | cons item items ih =>
    rw [List.mapM_cons] at failed
    cases first : f item with
    | error reason =>
      rw [first] at failed
      -- The first item fails, and no other is looked at.
      change Except.error reason = Except.error failure at failed
      exact ⟨item, List.mem_cons_self, first.trans (congrArg _ (Except.error.inj failed))⟩
    | ok value =>
      rw [first] at failed
      cases rest : items.mapM f with
      | error reason =>
        rw [rest] at failed
        change Except.error reason = Except.error failure at failed
        -- The first item is well, so that it is a later one.
        obtain ⟨other, member, same⟩ := ih (rest.trans (congrArg _ (Except.error.inj failed)))
        exact ⟨other, List.mem_cons_of_mem _ member, same⟩
      | ok values =>
        rw [rest] at failed
        change Except.ok (value :: values) = Except.error failure at failed
        simp at failed

end MergeNotes
