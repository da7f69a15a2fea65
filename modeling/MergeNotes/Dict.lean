/-! Finite maps as lists of entries in strictly increasing order of their keys. -/

namespace MergeNotes

/-- The entries with one more: it takes its place by key, or that of the entry with its key. -/
def insertEntry {κ ν : Type} [Ord κ] (key : κ) (value : ν) : List (κ × ν) → List (κ × ν)
  | [] => [(key, value)]
  | (k, v) :: entries =>
    match compare key k with
    | .lt => (key, value) :: (k, v) :: entries
    | .eq => (key, value) :: entries
    | .gt => (k, v) :: insertEntry key value entries

/-- Every key comes before all later keys. -/
def Ascending {κ ν : Type} [Ord κ] (entries : List (κ × ν)) : Prop :=
  entries.Pairwise fun earlier later => compare earlier.1 later.1 = .lt

/-- The keys after an insertion are the new key and those there were. -/
theorem mem_insertEntry_key {κ ν : Type} [Ord κ] [Std.LawfulEqOrd κ] {key : κ} {value : ν}
    {entries : List (κ × ν)} {entry : κ × ν} (member : entry ∈ insertEntry key value entries) :
    entry.1 = key ∨ ∃ old ∈ entries, old.1 = entry.1 := by
  induction entries with
  | nil => simp [insertEntry] at member; simp [member]
  | cons head entries ih =>
    simp only [insertEntry] at member
    split at member
    · rcases List.mem_cons.1 member with rfl | member
      · exact .inl rfl
      · exact .inr ⟨entry, member, rfl⟩
    · rcases List.mem_cons.1 member with rfl | member
      · exact .inl rfl
      · exact .inr ⟨entry, List.mem_cons_of_mem _ member, rfl⟩
    · rcases List.mem_cons.1 member with rfl | member
      · exact .inr ⟨_, List.mem_cons_self, rfl⟩
      · rcases ih member with same | ⟨old, present, same⟩
        · exact .inl same
        · exact .inr ⟨old, List.mem_cons_of_mem _ present, same⟩

/-- An insertion keeps the order. -/
theorem ascending_insertEntry {κ ν : Type} [Ord κ] [Std.TransOrd κ] [Std.LawfulEqOrd κ]
    {key : κ} {value : ν} {entries : List (κ × ν)} (ascending : Ascending entries) :
    Ascending (insertEntry key value entries) := by
  induction entries with
  | nil => simp [insertEntry, Ascending]
  | cons head entries ih =>
    obtain ⟨first, rest⟩ := List.pairwise_cons.1 ascending
    simp only [insertEntry]
    split
    · rename_i before
      refine List.pairwise_cons.2 ⟨fun entry member => ?_, ascending⟩
      rcases List.mem_cons.1 member with rfl | member
      · exact before
      · exact Std.TransCmp.lt_trans before (first entry member)
    · rename_i same
      have same : key = head.1 := Std.LawfulEqCmp.eq_of_compare same
      exact List.pairwise_cons.2 ⟨fun entry member => same ▸ first entry member, rest⟩
    · rename_i later
      have later : compare head.1 key = .lt := Std.OrientedCmp.lt_of_gt later
      refine List.pairwise_cons.2 ⟨fun entry member => ?_, ih rest⟩
      rcases mem_insertEntry_key member with same | ⟨old, present, same⟩
      · exact same ▸ later
      · exact same ▸ first old present

/-- A finite map. -/
structure Dict (κ ν : Type) [Ord κ] where
  entries : List (κ × ν)
  ascending : Ascending entries

namespace Dict

variable {κ ν : Type} [Ord κ]

/-- The map without entries. -/
def empty : Dict κ ν :=
  ⟨[], List.Pairwise.nil⟩

/-- The value of a key. -/
def get? (dict : Dict κ ν) (key : κ) : Option ν :=
  (dict.entries.find? fun entry => compare entry.1 key == .eq).map (·.2)

variable [Std.TransOrd κ] [Std.LawfulEqOrd κ]

/-- The map with one entry set. -/
def insert (dict : Dict κ ν) (key : κ) (value : ν) : Dict κ ν :=
  ⟨insertEntry key value dict.entries, ascending_insertEntry dict.ascending⟩

/-- The map with all entries set, of several with one key the last. -/
def ofList (entries : List (κ × ν)) : Dict κ ν :=
  entries.foldl (fun dict entry => dict.insert entry.1 entry.2) empty

end Dict

end MergeNotes
