import MergeNotes.Text.Blank
import MergeNotes.Text.Search

/-! Link headers: entries of a URL in angle brackets and the name of its relation. -/

namespace MergeNotes.LinkHeader

/-- An entry of a link header. -/
structure Entry where
  url : List Char
  relation : List Char
  deriving DecidableEq, Repr

/-- The text up to a closing mark, which must not be empty, and what follows the mark. -/
def upTo? (mark : Char) (text : List Char) : Option (List Char × List Char) :=
  match text.span (· != mark) with
  | ([], _) | (_, []) => none
  | (before, _ :: rest) => some (before, rest)

/-- An entry read behind its opening bracket, and what follows it. -/
def entry? (text : List Char) : Option (Entry × List Char) := do
  let (url, rest) ← upTo? '>' text
  let rest ← after? [';'] rest
  let rest ← after? "rel=\"".toList (rest.dropWhile isBlank)
  let (relation, rest) ← upTo? '"' rest
  some (⟨url, relation⟩, rest)

/-- The entries in order, none inside another; the fuel exceeds the number of characters. -/
def entriesWithin : Nat → List Char → List Entry
  | 0, _ => []
  | _ + 1, [] => []
  | fuel + 1, c :: text =>
    if c = '<' then
      match entry? text with
      | some (entry, rest) => entry :: entriesWithin fuel rest
      -- A bracket that begins no entry is passed over, and an entry may begin behind it.
      | none => entriesWithin fuel text
    else entriesWithin fuel text

/-- The entries of a header in order. -/
def entries (header : String) : List Entry :=
  entriesWithin (header.toList.length + 1) header.toList

/-- The URL of the first entry whose relation is exactly `next`. -/
def next? (header : String) : Option String :=
  ((entries header).find? (·.relation == "next".toList)).map fun entry => String.ofList entry.url

end MergeNotes.LinkHeader
