/-! Blank characters, as Unicode counts them, and text trimmed of them. -/

namespace MergeNotes

/-- The characters with Unicode's `White_Space` property. -/
def isBlank (c : Char) : Bool :=
  -- The property has twenty-five members, in ten runs of code points.
  (0x09 ≤ c.toNat && c.toNat ≤ 0x0D) || c.toNat == 0x20 || c.toNat == 0x85 || c.toNat == 0xA0 ||
    c.toNat == 0x1680 || (0x2000 ≤ c.toNat && c.toNat ≤ 0x200A) || c.toNat == 0x2028 ||
    c.toNat == 0x2029 || c.toNat == 0x202F || c.toNat == 0x205F || c.toNat == 0x3000

/-- The list without the items at its end that satisfy the test. -/
def dropWhileEnd {α : Type} (test : α → Bool) (items : List α) : List α :=
  (items.reverse.dropWhile test).reverse

/-- The characters without the blanks at either end. -/
def trimBlanks (text : List Char) : List Char :=
  dropWhileEnd isBlank (text.dropWhile isBlank)

/-- Text without the blanks at either end. -/
def trimmed (text : String) : String :=
  String.ofList (trimBlanks text.toList)

/-- Text that holds nothing but blanks, which includes the empty text. -/
def isBlankText (text : String) : Bool :=
  text.toList.all isBlank

/-- Text without the slashes at its end. -/
def withoutTrailingSlashes (text : String) : String :=
  String.ofList (dropWhileEnd (· == '/') text.toList)

end MergeNotes
