import Mathlib.Data.List.Nodup
import Mathlib.Data.List.Perm.Basic
import MergeNotes.Dict

/-! Finite maps put together from their entries, whatever the order of these. -/

namespace MergeNotes

variable {κ ν : Type} [Ord κ] [Std.LawfulEqOrd κ]

/-- A new key makes one entry more. -/
theorem perm_insertEntry {key : κ} (value : ν) {entries : List (κ × ν)}
    (fresh : key ∉ entries.map (·.1)) :
    (insertEntry key value entries).Perm ((key, value) :: entries) := by
  induction entries with
  | nil => exact .refl _
  | cons head entries ih =>
    simp only [List.map_cons, List.mem_cons, not_or] at fresh
    rw [insertEntry]
    split
    · exact .refl _
    · rename_i same
      exact absurd (Std.LawfulEqCmp.eq_of_compare same) fresh.1
    · exact ((ih fresh.2).cons head).trans (.swap _ _ _)

/-- Where no key stands twice, all entries are kept. -/
theorem perm_foldl_insertEntry {new entries : List (κ × ν)}
    (distinct : ((new ++ entries).map (·.1)).Nodup) :
    (new.foldl (fun sorted entry => insertEntry entry.1 entry.2 sorted) entries).Perm
      (new ++ entries) := by
  induction new generalizing entries with
  | nil => exact .refl _
  | cons entry new ih =>
    -- The entry moves behind the others, where it is inserted.
    have moved : (new ++ (entry.1, entry.2) :: entries).Perm (entry :: new ++ entries) :=
      List.perm_middle
    have fresh : entry.1 ∉ entries.map (·.1) := by
      intro member
      rw [List.cons_append, List.map_cons, List.nodup_cons, List.map_append] at distinct
      exact distinct.1 (List.mem_append_right _ member)
    have inserted := ((perm_insertEntry entry.2 fresh).append_left new).trans moved
    exact (ih ((inserted.map _).nodup_iff.2 distinct)).trans inserted

/-- In increasing order no key stands twice. -/
theorem Ascending.nodup {entries : List (κ × ν)} (ascending : Ascending entries) :
    (entries.map (·.1)).Nodup := by
  refine List.pairwise_map.2 (ascending.imp fun {first second} before same => ?_)
  rw [same, @Std.ReflCmp.compare_self κ compare] at before
  cases before

namespace Dict

omit [Std.LawfulEqOrd κ] in
/-- A map is known by its entries. -/
theorem eq_of_entries {dict other : Dict κ ν} (same : dict.entries = other.entries) :
    dict = other := by
  cases dict
  cases other
  congr

/-- A map holds its entries. -/
theorem get?_eq_some_iff {dict : Dict κ ν} {key : κ} {value : ν} :
    dict.get? key = some value ↔ (key, value) ∈ dict.entries := by
  rw [get?, Option.map_eq_some_iff]
  constructor
  · rintro ⟨entry, found, rfl⟩
    have known := List.find?_some found
    have same : entry.1 = key := Std.LawfulEqCmp.eq_of_compare (eq_of_beq known)
    exact same ▸ List.mem_of_find?_eq_some found
  · intro member
    cases found : dict.entries.find? fun entry => compare entry.1 key == .eq with
    | none => simpa using List.find?_eq_none.1 found _ member
    | some entry =>
      -- No other entry has the key.
      have known := List.find?_some found
      have same : entry.1 = key := Std.LawfulEqCmp.eq_of_compare (eq_of_beq known)
      have only := List.inj_on_of_nodup_map dict.ascending.nodup (List.mem_of_find?_eq_some found)
        member same
      exact ⟨entry, rfl, congrArg Prod.snd only⟩

variable [Std.TransOrd κ]

theorem entries_ofList (entries : List (κ × ν)) :
    (ofList entries).entries =
      entries.foldl (fun sorted entry => insertEntry entry.1 entry.2 sorted) [] := by
  have general : ∀ dict : Dict κ ν,
      (entries.foldl (fun dict entry => dict.insert entry.1 entry.2) dict).entries =
        entries.foldl (fun sorted entry => insertEntry entry.1 entry.2 sorted) dict.entries := by
    induction entries with
    | nil => exact fun _ => rfl
    | cons entry entries ih => exact fun dict => ih (dict.insert entry.1 entry.2)
  exact general empty

/-- A map is put together from its entries in any order. -/
theorem ofList_of_perm {dict : Dict κ ν} {entries : List (κ × ν)}
    (order : entries.Perm dict.entries) : ofList entries = dict := by
  have distinct : ((entries ++ []).map Prod.fst).Nodup := by
    rw [List.append_nil]
    exact (order.map _).nodup_iff.2 dict.ascending.nodup
  have kept := perm_foldl_insertEntry distinct
  rw [← entries_ofList, List.append_nil] at kept
  -- Two maps with the same entries hold them in the same order.
  refine eq_of_entries ((kept.trans order).eq_of_pairwise ?_ (ofList entries).ascending
    dict.ascending)
  intro first second _ _ before after
  rw [@Std.OrientedCmp.eq_swap κ compare, before] at after
  cases after

/-- A map with an entry set holds that entry. -/
theorem get?_insert_self (dict : Dict κ ν) (key : κ) (value : ν) :
    (dict.insert key value).get? key = some value := by
  have found : (insertEntry key value dict.entries).find?
      (fun entry => compare entry.1 key == .eq) = some (key, value) := by
    induction dict.entries with
    | nil => simp [insertEntry]
    | cons head entries ih =>
      rw [insertEntry]
      split
      · simp
      · simp
      · -- Behind the first the entry is found among the others.
        rename_i later
        have other : compare head.1 key = .lt := Std.OrientedCmp.lt_of_gt later
        rw [List.find?_cons_of_neg (by simp [other]), ih]
  rw [get?, insert, found]
  rfl

/-- Under every other key it holds what it held before. -/
theorem get?_insert_of_ne (dict : Dict κ ν) {key other : κ} (value : ν) (differ : other ≠ key) :
    (dict.insert key value).get? other = dict.get? other := by
  have apart : ∀ {k : κ}, k = key → (compare k other == .eq) = false := by
    intro k same
    subst same
    refine beq_false_of_ne fun same => differ (Std.LawfulEqCmp.eq_of_compare same).symm
  have found : (insertEntry key value dict.entries).find?
      (fun entry => compare entry.1 other == .eq) =
        dict.entries.find? fun entry => compare entry.1 other == .eq := by
    induction dict.entries with
    | nil => simp [insertEntry, apart rfl]
    | cons head entries ih =>
      rw [insertEntry]
      split
      · rw [List.find?_cons_of_neg (by simp [apart rfl])]
      · rename_i same
        have same : head.1 = key := (Std.LawfulEqCmp.eq_of_compare same).symm
        rw [List.find?_cons_of_neg (by simp [apart rfl]),
          List.find?_cons_of_neg (by simp [apart same])]
      · rw [List.find?_cons, List.find?_cons, ih]
  rw [get?, get?, insert, found]

/-- Two maps are the same if they hold the same under every key. -/
theorem ext_get? {dict other : Dict κ ν} (same : ∀ key, dict.get? key = other.get? key) :
    dict = other := by
  have members : ∀ entry, entry ∈ dict.entries ↔ entry ∈ other.entries := by
    intro entry
    obtain ⟨key, value⟩ := entry
    rw [← get?_eq_some_iff, ← get?_eq_some_iff, same]
  have order : dict.entries.Perm other.entries :=
    (List.perm_ext_iff_of_nodup (List.Nodup.of_map _ dict.ascending.nodup)
      (List.Nodup.of_map _ other.ascending.nodup)).2 members
  rw [← ofList_of_perm order, ofList_of_perm (.refl dict.entries)]

/-- An entry that is set twice is that of the second time. -/
theorem insert_insert_self (dict : Dict κ ν) (key : κ) (value last : ν) :
    (dict.insert key value).insert key last = dict.insert key last := by
  refine ext_get? fun other => ?_
  by_cases same : other = key
  · rw [same, get?_insert_self, get?_insert_self]
  · rw [get?_insert_of_ne _ _ same, get?_insert_of_ne _ _ same, get?_insert_of_ne _ _ same]

/-- Entries with different keys are set in any order. -/
theorem insert_insert_comm (dict : Dict κ ν) {key other : κ} (differ : key ≠ other)
    (value held : ν) :
    (dict.insert key value).insert other held = (dict.insert other held).insert key value := by
  refine ext_get? fun wanted => ?_
  by_cases first : wanted = key
  · rw [first, get?_insert_of_ne _ _ differ, get?_insert_self, get?_insert_self]
  · rw [get?_insert_of_ne _ _ first]
    by_cases second : wanted = other
    · rw [second, get?_insert_self, get?_insert_self]
    · rw [get?_insert_of_ne _ _ second, get?_insert_of_ne _ _ second, get?_insert_of_ne _ _ first]

/-- The map with all entries set, one after the other. -/
def insertAll (dict : Dict κ ν) (entries : List (κ × ν)) : Dict κ ν :=
  entries.foldl (fun dict entry => dict.insert entry.1 entry.2) dict

/-- An entry with a new key may as well be set first. -/
theorem insertAll_insert (dict : Dict κ ν) {key : κ} (value : ν) {entries : List (κ × ν)}
    (fresh : key ∉ entries.map (·.1)) :
    (dict.insert key value).insertAll entries = (dict.insertAll entries).insert key value := by
  induction entries generalizing dict with
  | nil => rfl
  | cons head entries ih =>
    simp only [List.map_cons, List.mem_cons, not_or] at fresh
    show ((dict.insert key value).insert head.1 head.2).insertAll entries = _
    rw [insert_insert_comm _ fresh.1, ih _ fresh.2]
    rfl

end Dict

end MergeNotes
