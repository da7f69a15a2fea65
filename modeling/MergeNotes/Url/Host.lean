import MergeNotes.Percent
import MergeNotes.Text.Decimal
import MergeNotes.Text.Search
import MergeNotes.Url.Punycode

/-! The hosts of URLs: domains and numeric addresses. -/

namespace MergeNotes.Url

/-- Why a text is no URL. -/
inductive Error where
  | emptyHost
  | invalidDomain
  | invalidPort
  | invalidIpv4
  | invalidIpv6
  | invalidHostCharacter
  | noScheme
  deriving DecidableEq, Repr

/-- The words for it. -/
def Error.message : Error → String
  | .emptyHost => "empty host"
  | .invalidDomain => "invalid international domain name"
  | .invalidPort => "invalid port number"
  | .invalidIpv4 => "invalid IPv4 address"
  | .invalidIpv6 => "invalid IPv6 address"
  | .invalidHostCharacter => "invalid domain character"
  | .noScheme => "relative URL without a base"

/-- The host of a URL. -/
inductive Host where
  | empty
  /-- A domain, or for a scheme of one's own any name. -/
  | name (text : List Char)
  | ipv4 (address : Nat)
  /-- The eight pieces of 16 bits. -/
  | ipv6 (pieces : List Nat)
  deriving DecidableEq, Repr

/-- The first longest run of at least two zero pieces, as its start and length. -/
def longestZeros (pieces : List Nat) : Nat × Nat :=
  let runAt (start : Nat) : Nat := ((pieces.drop start).takeWhile (· == 0)).length
  (List.range pieces.length).foldl
    (fun best start => if max best.2 1 < runAt start then (start, runAt start) else best) (0, 0)

/-- Pieces in hexadecimal with colons between. -/
def joinPieces (pieces : List Nat) : List Char :=
  [':'].intercalate (pieces.map (Nat.toDigits 16))

/-- A host in a URL. -/
def Host.text : Host → List Char
  | .empty => []
  | .name text => text
  | .ipv4 address =>
    ['.'].intercalate ([address / 0x1000000, address / 0x10000 % 256, address / 0x100 % 256,
      address % 256].map decimalDigits)
  | .ipv6 pieces =>
    let (start, length) := longestZeros pieces
    let inner :=
      if length = 0 then joinPieces pieces
      else joinPieces (pieces.take start) ++ [':', ':'] ++ joinPieces (pieces.drop (start + length))
    '[' :: inner ++ [']']

/-- The value of digits in some base, if all of them are digits of it. -/
def valueIn? (base : Nat) (digits : List Char) : Option Nat :=
  digits.foldlM (fun total c => do
    let digit ← hexValue? c
    if digit < base then some (total * base + digit) else none) 0

/-- A part of a numeric address: hexadecimal behind `0x`, octal behind `0`, else decimal. -/
def ipv4Part? : List Char → Option Nat
  | [] => none
  | '0' :: 'x' :: digits => valueIn? 16 digits
  | '0' :: 'X' :: digits => valueIn? 16 digits
  -- A zero alone is decimal, which is the same.
  | '0' :: digit :: digits => valueIn? 8 (digit :: digits)
  | digits => valueIn? 10 digits

/-- The parts of a domain; an empty part behind the last dot is none. -/
def domainParts (domain : List Char) : List (List Char) :=
  let parts := splitAtEach (· == '.') domain
  if parts.length ≠ 1 ∧ parts.getLast? = some [] then parts.dropLast else parts

/-- Whether a domain must be a numeric address because its last part is a number. -/
def endsInNumber (domain : List Char) : Bool :=
  match (domainParts domain).getLast? with
  | none => false
  | some last => (!last.isEmpty && last.all Char.isDigit) || (ipv4Part? last).isSome

/-- The address of up to four parts, of which the last fills all the bytes that are left. -/
def parseIpv4 (domain : List Char) : Except Error Nat :=
  let parts := domainParts domain
  match parts.mapM ipv4Part? with
  | none => .error .invalidIpv4
  | some numbers =>
    let leading := numbers.dropLast
    let last := numbers.getLastD 0
    -- The last part may take up the bytes of those that are missing.
    if 4 < numbers.length ∨ Nat.pow 256 (4 - leading.length) ≤ last ∨ leading.any (255 < ·) then
      .error .invalidIpv4
    else
      let start := leading.foldl (fun total part => total * 256 + part) 0
      .ok (start * Nat.pow 256 (4 - leading.length) + last)

/-- The four decimal numbers at the end of an address of 128 bits. -/
def ipv4Tail? (text : List Char) : Option (List Nat) := do
  let numbers ← (splitAtEach (· == '.') text).mapM fun part =>
    match part with
    | [] => none
    -- Leading zeros would be taken for octal elsewhere, and are refused here.
    | '0' :: _ :: _ => none
    | part => (valueIn? 10 part).filter (· < 256)
  match numbers with
  | [a, b, c, d] => some [a * 256 + b, c * 256 + d]
  | _ => none

/-- Reads pieces behind those already read; `gap` is where zeros are left out. The fuel exceeds
the number of characters. -/
def readPieces : Nat → List Nat → Option Nat → List Char → Option (List Nat × Option Nat)
  | 0, _, _, _ => none
  | _ + 1, pieces, gap, [] => some (pieces, gap)
  | fuel + 1, pieces, gap, c :: text =>
    if pieces.length = 8 then none
    else if c = ':' then
      -- Zeros may be left out once only.
      if gap.isSome then none
      else readPieces fuel (pieces ++ [0]) (some (pieces.length + 1)) text
    else
      -- A piece has up to four digits.
      let digits := ((c :: text).take 4).takeWhile fun c => (hexValue? c).isSome
      let value := (valueIn? 16 digits).getD 0
      match (c :: text).drop digits.length with
      | [] => some (pieces ++ [value], gap)
      | '.' :: _ =>
        -- Four decimal numbers take the place of two pieces.
        if digits.isEmpty ∨ 6 < pieces.length then none
        else (ipv4Tail? (c :: text)).map fun tail => (pieces ++ tail, gap)
      | [':'] => none
      | ':' :: rest => readPieces fuel (pieces ++ [value]) gap rest
      | _ => none

/-- The pieces that are written in an address of 128 bits, and where zeros are left out. -/
def ipv6Pieces? (text : List Char) : Option (List Nat × Option Nat) :=
  match text with
  -- A gap at the front stands for the first piece as well.
  | ':' :: ':' :: rest => readPieces (rest.length + 1) [0] (some 1) rest
  | ':' :: _ => none
  | [] | [_] => none
  | text => readPieces (text.length + 1) [] none text

/-- The eight pieces of an address of 128 bits. -/
def parseIpv6 (text : List Char) : Except Error (List Nat) :=
  match ipv6Pieces? text with
  | none => .error .invalidIpv6
  | some (pieces, none) => if pieces.length = 8 then .ok pieces else .error .invalidIpv6
  | some (pieces, some gap) =>
    .ok (pieces.take gap ++ List.replicate (8 - pieces.length) 0 ++ pieces.drop gap)

/-- The characters that no host may hold. -/
def isForbiddenInHost (c : Char) : Bool :=
  "\x00\t\n\r #/:<>?@[\\]^|".toList.contains c

/-- The characters that no domain may hold: besides those the controls, the percent sign and all
beyond ASCII, so names in other scripts are accepted in their ASCII form only. -/
def isForbiddenInDomain (c : Char) : Bool :=
  isForbiddenInHost c || c.toNat ≤ 0x20 || c == '%' || 0x7F ≤ c.toNat

/-- Controls and all beyond ASCII are written out in any name. -/
def escapeControls (text : List Char) : List Char :=
  Percent.encode (fun c => 0x20 ≤ c.toNat && c.toNat < 0x7F) text

/-- An address between brackets. -/
def parseBracketed (inner : List Char) : Except Error Host :=
  if inner.getLast? = some ']' then (parseIpv6 inner.dropLast).map .ipv6 else .error .invalidIpv6

/-- A host in a URL of a well-known scheme. -/
def parseDomain (text : List Char) : Except Error Host :=
  match text with
  | '[' :: inner => parseBracketed inner
  | text =>
    match Utf8.decode? (Percent.decode (Utf8.encode text)) with
    | none => .error .invalidDomain
    | some decoded =>
      let domain := decoded.map Char.toLower
      if domain.any isForbiddenInDomain then .error .invalidDomain
      else if !(splitAtEach (· == '.') domain).all Punycode.isLabel then .error .invalidDomain
      else if domain.isEmpty then .error .emptyHost
      else if endsInNumber domain then (parseIpv4 domain).map .ipv4
      else .ok (.name domain)

/-- A host in a URL of any other scheme. -/
def parseName (text : List Char) : Except Error Host :=
  match text with
  | [] => .ok .empty
  | '[' :: inner => parseBracketed inner
  | text =>
    if text.any isForbiddenInHost then .error .invalidHostCharacter
    else .ok (.name (escapeControls text))

end MergeNotes.Url
