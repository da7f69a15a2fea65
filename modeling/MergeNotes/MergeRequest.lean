import MergeNotes.Json.Record

/-! The merge request, the commits in it, and the comments that are posted to it. -/

namespace MergeNotes

open Json (Format)

/-- The three commits to which a comment on a line is bound; a fresh merge request may lack some. -/
structure DiffRefs where
  base : Option String
  start : Option String
  head : Option String
  deriving DecidableEq, Repr

/-- The commits of a diff in JSON. -/
def DiffRefs.format : Format DiffRefs :=
  .record "DiffRefs"
    (.field "base_sha" (.option .string) (some none) <|
      .field "start_sha" (.option .string) (some none) <|
      .field "head_sha" (.option .string) (some none) .none)
    (fun (base, start, head, ()) => ⟨base, start, head⟩)
    (fun r => (r.base, r.start, r.head, ()))

/-- What is known of a merge request. -/
structure MergeRequest where
  /-- The number of the merge request inside its project. -/
  iid : UInt64
  title : Option String
  webUrl : Option String
  diffRefs : Option DiffRefs
  deriving DecidableEq, Repr

/-- The merge request in JSON. -/
def MergeRequest.format : Format MergeRequest :=
  .record "MergeRequestRef"
    (.field "iid" .u64 none <|
      .field "title" (.option .string) (some none) <|
      .field "web_url" (.option .string) (some none) <|
      .field "diff_refs" (.option DiffRefs.format) (some none) .none)
    (fun (iid, title, webUrl, diffRefs, ()) => ⟨iid, title, webUrl, diffRefs⟩)
    (fun m => (m.iid, m.title, m.webUrl, m.diffRefs, ()))

/-- A commit of a merge request, of which only the id is used. -/
structure Commit where
  id : String
  deriving DecidableEq, Repr

/-- The commit in JSON. -/
def Commit.format : Format Commit :=
  .record "GitLabCommit" (.field "id" .string none .none) (fun (id, ()) => ⟨id⟩)
    (fun c => (c.id, ()))

/-- The distinct commits of a merge request. -/
structure CommitSet where
  ids : List String
  distinct : ids.Nodup

namespace CommitSet

/-- The distinct ids of a list. -/
def ofList (ids : List String) : CommitSet :=
  ⟨ids.foldr (fun id distinct => if id ∈ distinct then distinct else id :: distinct) [], by
    induction ids with
    | nil => exact List.nodup_nil
    | cons id ids ih =>
      simp only [List.foldr_cons]
      split
      · exact ih
      · rename_i fresh
        exact List.nodup_cons.2 ⟨fresh, ih⟩⟩

/-- Whether a commit is in the set. -/
def contains (commits : CommitSet) (id : String) : Bool :=
  commits.ids.contains id

/-- How many commits there are. -/
def size (commits : CommitSet) : Nat :=
  commits.ids.length

end CommitSet

/-- The fields of a form, in the order they are sent. -/
structure Comment where
  fields : List (String × String)
  deriving DecidableEq, Repr

namespace Comment

/-- The value of the first field with a name. -/
def get? (comment : Comment) (name : String) : Option String :=
  comment.fields.lookup name

/-- A comment on the merge request as a whole. -/
def summary (body : String) : Comment :=
  ⟨[("body", body)]⟩

/-- A comment on a line of the new version, which takes all three commits of the diff; without one
of them the result is the name of the first that is missing. -/
def inline (body : String) (refs : DiffRefs) (path : String) (line : UInt32) :
    Except String Comment := do
  let base ← required "base_sha" refs.base
  let start ← required "start_sha" refs.start
  let head ← required "head_sha" refs.head
  .ok ⟨[("body", body), ("position[base_sha]", base), ("position[start_sha]", start),
    ("position[head_sha]", head), ("position[new_path]", path),
    ("position[new_line]", decimal line.toNat), ("position[position_type]", "text")]⟩
where
  /-- A commit that must be there. -/
  required (name : String) : Option String → Except String String
    | some sha => .ok sha
    | none => .error name

end Comment

/-- The commits of the diff, all missing where the merge request says nothing of them. -/
def MergeRequest.refs (mergeRequest : MergeRequest) : DiffRefs :=
  mergeRequest.diffRefs.getD ⟨none, none, none⟩

end MergeNotes
