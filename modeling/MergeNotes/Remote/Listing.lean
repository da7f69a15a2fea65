import MergeNotes.Remote.Exchange

/-! Resources read from the server: one at a time, or listings page by page. -/

namespace MergeNotes

open Json (Format)

variable {α : Type}

/-- Decodes a body. -/
def decodeBody (format : Format α) (body : String) : Run α :=
  match format.decodeLenient body with
  | .ok value => pure value
  | .error error => Run.failRemote (.undecodable error)

/-- Reads one resource. -/
def fetchOne (format : Format α) (token : Token) (url : String) : Run α := do
  let answer ← exchange token .get url none
  requireStatus url 200 answer.status answer.body
  -- The status is looked at first, so that the body of a refusal is not decoded.
  note (.resourceReceived url)
  decodeBody format answer.body

/-- A part of a listing, and the address of the next part. -/
structure Page (α : Type) where
  items : List α
  next : Option String
  deriving Repr

/-- Reads one page. -/
def fetchPage (format : Format α) (token : Token) (url : String) : Run (Page α) := do
  let answer ← exchange token .get url none
  requireStatus url 200 answer.status answer.body
  let items ← decodeBody format.list answer.body
  pure ⟨items, answer.next?⟩

/-- Reads the pages from an address on that was not visited. After as many rounds as there are
replies no further page can be read, so the rounds never run out. -/
def fetchPages (format : Format α) (token : Token) (visited : List String) :
    Nat → String → Run (List α)
  | rounds, url => do
    -- A link back would be followed for ever.
    if url ∈ visited then
      note (.linkRepeated url)
      Run.failRemote (.paginationLoop url)
    let page ← fetchPage format token url
    note (.pageReceived url page.items.length)
    match rounds with
    | 0 => pure page.items
    | rounds + 1 =>
      match page.next with
      | none => pure page.items
      | some next =>
        note .pageFollows
        -- The address of this page counts as visited for all that follow.
        let more ← fetchPages format token (url :: visited) rounds next
        pure (page.items ++ more)

/-- Reads a listing to its end. A link to an address that was read before is refused. -/
def fetchAll (format : Format α) (token : Token) (url : String) : Run (List α) := do
  let line ← get
  fetchPages format token [] line.replies.length url

/-- The ids of all commits of a merge request. -/
def fetchCommits (token : Token) (url : String) : Run (List String) := do
  let commits ← fetchAll Commit.format token url
  note (.commitsReceived commits.length)
  pure (commits.map (·.id))

/-- The merge request itself. -/
def fetchMergeRequest (token : Token) (url : String) : Run MergeRequest := do
  let mergeRequest ← fetchOne MergeRequest.format token url
  note (.mergeRequestReceived mergeRequest.iid)
  pure mergeRequest

end MergeNotes
