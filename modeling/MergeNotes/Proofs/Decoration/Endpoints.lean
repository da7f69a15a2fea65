import MergeNotes.Endpoints
import MergeNotes.Proofs.Url.Dots
import MergeNotes.Proofs.Url.Siblings

/-! The addresses under the root of an API as its text with names behind it. -/

namespace MergeNotes

open Url (isTailChar)

variable {names : List String}

/-- Names as a path, each with a slash before it. -/
def pathBelow (names : List String) : List Char :=
  (names.map fun name => (Percent.component name).toList).flatMap ('/' :: ·)

/-- The addresses are the text of the root with names behind it. -/
theorem Endpoints.under_eq (api project mergeRequestId revision : String) :
    let text (names : List String) := String.ofList (api.toList ++ pathBelow names)
    Endpoints.under api project mergeRequestId revision =
      { status := text ["projects", project, "statuses", revision]
        mergeRequest := text ["projects", project, "merge_requests", mergeRequestId]
        commits := text ["projects", project, "merge_requests", mergeRequestId, "commits"]
        discussions :=
          text ["projects", project, "merge_requests", mergeRequestId, "discussions"] } := by
  -- The fixed names are written as they are; only the others may need escapes.
  have plain : ∀ name ∈ ["projects", "statuses", "merge_requests", "commits", "discussions"],
      Percent.component name = name := by decide
  simp only [List.forall_mem_cons] at plain
  obtain ⟨projects, statuses, requests, commits, discussions, _⟩ := plain
  simp only [Endpoints.under, pathBelow, List.map_cons, List.map_nil, List.flatMap_cons,
    List.flatMap_nil, projects, statuses, requests, commits, discussions, Endpoints.mk.injEq]
  refine ⟨?_, ?_, ?_, ?_⟩ <;> apply String.toList_inj.1 <;> simp

theorem isTailChar_of_mem_component {name : String} {c : Char}
    (member : c ∈ (Percent.component name).toList) : isTailChar c = true := by
  rw [Percent.component, String.toList_ofList] at member
  -- A character that is not kept becomes an escape, whose characters are those of a tail too.
  rcases Percent.mem_encode member with ⟨_, known⟩ | escape
  · simp [isTailChar, known]
  · exact Percent.forall_escape (by decide) escape

/-- A path of names is a slash and a tail. -/
theorem exists_tail (present : names ≠ []) :
    ∃ tail, pathBelow names = '/' :: tail ∧ ∀ c ∈ pathBelow names, isTailChar c = true := by
  cases names with
  | nil => exact absurd rfl present
  | cons name names =>
    refine ⟨_, rfl, fun c member => ?_⟩
    obtain ⟨segment, known, inside⟩ := List.mem_flatMap.1 member
    obtain ⟨name, _, rfl⟩ := List.mem_map.1 known
    -- A slash, or a character of the name behind it.
    rcases List.mem_cons.1 inside with rfl | inside
    · decide
    · exact isTailChar_of_mem_component inside

theorem pathBelow_concat (names : List String) (name : String) :
    pathBelow (names ++ [name]) = pathBelow names ++ '/' :: (Percent.component name).toList := by
  simp [pathBelow]

/-- Below the root of an API all addresses are read alike, and none is longer than one that has a
name more. -/
theorem exists_sibling_below {api : String} {base url : Url} {others : List String}
    (root : Url.parse api = .ok base)
    (read : Url.parse (String.ofList (api.toList ++ pathBelow names)) = .ok url)
    (web : url.isWeb = true) (present : names ≠ []) (present' : others ≠ []) :
    ∃ sibling, Url.parse (String.ofList (api.toList ++ pathBelow others)) = .ok sibling ∧
      sibling.scheme = url.scheme ∧ sibling.authority = url.authority ∧
      ∀ name, name ≠ "." ∧ name ≠ ".." → names = others ++ [name] →
        sibling.text.toList.length ≤ url.text.toList.length := by
  obtain ⟨tail, slash, plain⟩ := exists_tail present
  obtain ⟨other, slash', plain'⟩ := exists_tail present'
  rw [slash] at read plain
  rw [slash'] at plain' ⊢
  obtain ⟨sibling, found, scheme, authority, shorter⟩ := Url.exists_sibling root
    (List.forall_mem_cons.1 plain).2 read web (List.forall_mem_cons.1 plain').2
  refine ⟨sibling, found, scheme, authority, fun name fine same => ?_⟩
  -- A name that is no dots is a segment, by which the longer path is longer.
  refine shorter (Percent.component name).toList (fun kind => Url.isSegment_component_iff.2 fine) ?_
  rw [same, pathBelow_concat, slash', List.cons_append, List.cons.injEq] at slash
  exact slash.2.symm

/-- The addresses of a report stand under the root of the API that it names, of which only the
slashes at the end are left out. -/
theorem Endpoints.exists_apiUrl_of_ofReport {report : Report} {endpoints : Endpoints}
    (found : Endpoints.ofReport report = .ok endpoints) :
    ∃ apiUrl base project, report.properties.get? apiProperty = some apiUrl ∧
      Url.parse (withoutTrailingSlashes apiUrl) = .ok base ∧
      endpoints = Endpoints.under (withoutTrailingSlashes apiUrl) project report.mergeRequestId
        report.commit := by
  unfold Endpoints.ofReport at found
  obtain ⟨apiUrl, named, found⟩ := exists_ok_of_bind found
  obtain ⟨project, _, found⟩ := exists_ok_of_bind found
  unfold Endpoints.resolve at found
  dsimp only at found
  have given : report.properties.get? apiProperty = some apiUrl := by
    unfold Endpoints.required at named
    split at named
    · rename_i value known
      rw [known, Except.ok.inj named]
    · cases named
  cases read : Url.parse (withoutTrailingSlashes apiUrl) with
  -- The root is read before any address is put together.
  | error reason => simp [read] at found
  | ok base =>
    rw [read, Except.ok.injEq] at found
    exact ⟨apiUrl, base, project, given, read, found.symm⟩

end MergeNotes
