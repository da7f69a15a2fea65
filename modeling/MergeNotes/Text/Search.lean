/-! Finding one run of characters inside another. -/

namespace MergeNotes

/-- What follows `start` in a text that begins with it. -/
def after? : List Char → List Char → Option (List Char)
  | [], text => some text
  | _ :: _, [] => none
  | s :: start, c :: text => if s = c then after? start text else none

/-- The text before and after the first occurrence of `separator`. -/
def splitOnce? (separator : List Char) : List Char → Option (List Char × List Char)
  | [] => (after? separator []).map ([], ·)
  | c :: text =>
    match after? separator (c :: text) with
    | some rest => some ([], rest)
    | none => (splitOnce? separator text).map fun (before, rest) => (c :: before, rest)

/-- Whether the characters of `part` stand somewhere in a row. -/
def holds (part : List Char) : List Char → Bool
  | [] => part.isEmpty
  | c :: text => (after? part (c :: text)).isSome || holds part text

/-- Whether `text` holds `part`. -/
def mentions (text part : String) : Bool :=
  holds part.toList text.toList

/-- The pieces between the characters that satisfy the test, of which there is at least one. -/
def splitAtEach (test : Char → Bool) : List Char → List (List Char)
  | [] => [[]]
  | c :: text =>
    if test c then [] :: splitAtEach test text
    else
      match splitAtEach test text with
      | [] => [[c]]
      | piece :: pieces => (c :: piece) :: pieces

end MergeNotes
