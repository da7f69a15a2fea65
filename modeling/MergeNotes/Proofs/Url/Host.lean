import MergeNotes.Proofs.Text.Plain
import MergeNotes.Proofs.Url.Ipv6
import MergeNotes.Url.Parse

/-! Hosts that were read: their text is plain, and is read again as the same host. -/

namespace MergeNotes.Url

/-- The characters that an authority is written in. -/
def isAuthorityChar (c : Char) : Bool :=
  isGraphic c && !"/\\?#".toList.contains c

/-- The characters that a host is written in. -/
def isHostChar (c : Char) : Bool :=
  isAuthorityChar c && c != '@'

/-- A host as it comes of reading a text. -/
structure Host.IsRead (host : Host) : Prop where
  again : parseDomain host.text = .ok host
  present : host.text ≠ []
  plain : ∀ c ∈ host.text, isHostChar c = true
  /-- Nothing in the text looks like the end of it. -/
  whole : ∀ rest : List Char, (∀ c ∈ rest.head?, c = ':') →
    splitHost false (host.text ++ rest) = (host.text, rest)

/-- Text in which nothing begins a port is a host up to the port behind it. -/
theorem splitHost_of_plain {name rest : List Char}
    (plain : ∀ c ∈ name, c ≠ ':' ∧ c ≠ '[') (port : ∀ c ∈ rest.head?, c = ':') :
    splitHost false (name ++ rest) = (name, rest) := by
  induction name with
  | nil =>
    cases rest with
    | nil => rfl
    | cons c rest =>
      rw [List.nil_append, splitHost, if_pos ⟨port c rfl, rfl⟩]
  | cons c name ih =>
    obtain ⟨first, others⟩ := List.forall_mem_cons.1 plain
    -- No bracket is opened, and closing one that is not open changes nothing.
    have outside : (if c = '[' then true else if c = ']' then false else false) = false := by
      rw [if_neg first.2]
      split <;> rfl
    rw [List.cons_append, splitHost, if_neg (fun colon => first.1 colon.1)]
    dsimp only
    rw [outside, ih others]

/-- Between brackets colons are part of the host. -/
theorem splitHost_bracketed {inner rest : List Char} (inside : ∀ c ∈ inner, c ≠ ']')
    (port : ∀ c ∈ rest.head?, c = ':') :
    splitHost true (inner ++ ']' :: rest) = (inner ++ [']'], rest) := by
  induction inner with
  | nil =>
    -- The bracket is closed here, so the colon behind it begins the port.
    have behind := @splitHost_of_plain [] rest (by simp) port
    rw [List.nil_append] at behind
    rw [List.nil_append, splitHost, if_neg (by simp)]
    dsimp only
    rw [if_neg (by decide), if_pos rfl, behind]
    rfl
  | cons c inner ih =>
    obtain ⟨first, others⟩ := List.forall_mem_cons.1 inside
    -- A further opening bracket does not change that one is open.
    have still : (if c = '[' then true else true) = true := by
      split
      · rfl
      · rfl
    rw [List.cons_append, splitHost, if_neg (by simp)]
    dsimp only
    rw [if_neg first, still, ih others]
    rfl

/-! Domains. -/

/-- What a domain may hold is plain, and begins neither a port nor an escape. -/
theorem plain_of_isForbiddenInDomain {c : Char} (allowed : isForbiddenInDomain c = false) :
    isHostChar c = true ∧ c ≠ ':' ∧ c ≠ '[' ∧ c ≠ '%' := by
  -- What is not ASCII is forbidden, so that a look at the 128 others is enough.
  have ascii : c.toNat < 128 := by
    simp only [isForbiddenInDomain, Bool.or_eq_false_iff, decide_eq_false_iff_not] at allowed
    omega
  revert allowed
  exact @forall_ascii (fun c => isForbiddenInDomain c = false →
    isHostChar c = true ∧ c ≠ ':' ∧ c ≠ '[' ∧ c ≠ '%') (by decide +kernel) c ascii

theorem ascii_of_isHostChar {c : Char} (plain : isHostChar c = true) : c.toNat < 0x80 := by
  simp only [isHostChar, isAuthorityChar, Bool.and_eq_true, isGraphic_iff] at plain
  omega

/-- A plain text in lower case is taken for itself by the reader of domains. -/
theorem parseDomain_of_plain {domain : List Char}
    (plain : ∀ c ∈ domain, isForbiddenInDomain c = false ∧ c.toLower = c)
    (labels : (splitAtEach (· == '.') domain).all Punycode.isLabel = true) (present : domain ≠ []) :
    parseDomain domain =
      if endsInNumber domain then (parseIpv4 domain).map .ipv4 else .ok (.name domain) := by
  have chars := fun c member => plain_of_isForbiddenInDomain (plain c member).1
  have lower : domain.map Char.toLower = domain := by
    rw [List.map_congr_left fun c member => (plain c member).2, List.map_id']
  have ascii := fun c member => ascii_of_isHostChar (chars c member).1
  -- There is no escape to decode, and what is ASCII is its own UTF-8.
  have read : Utf8.decode? (Percent.decode (Utf8.encode domain)) = some domain := by
    rw [Percent.decode_encode_plain fun c member => ⟨ascii c member, (chars c member).2.2.2⟩,
      Utf8.decode?_encode]
  -- The checks come in the reader's order: allowed characters, labels, something left.
  have allowed : domain.any isForbiddenInDomain = false := by
    rw [List.any_eq_false]
    exact fun c member => by simp [(plain c member).1]
  have visible : domain.isEmpty = false := by simpa using present
  unfold parseDomain
  split
  · exact absurd rfl (chars '[' List.mem_cons_self).2.2.1
  · rw [read]
    simp only [lower, allowed, labels, visible, Bool.not_true, Bool.false_eq_true, if_false]

theorem Host.isRead_name {domain : List Char}
    (plain : ∀ c ∈ domain, isForbiddenInDomain c = false ∧ c.toLower = c)
    (labels : (splitAtEach (· == '.') domain).all Punycode.isLabel = true) (present : domain ≠ [])
    (named : endsInNumber domain = false) : (Host.name domain).IsRead where
  again := by
    rw [Host.text, parseDomain_of_plain plain labels present, named]
    rfl
  present := present
  plain := fun c member => (plain_of_isForbiddenInDomain (plain c member).1).1
  whole := fun rest port => splitHost_of_plain (fun c member =>
    have known := plain_of_isForbiddenInDomain (plain c member).1
    ⟨known.2.1, known.2.2.1⟩) port

/-! Addresses of 32 bits. -/

/-- Four numbers with dots between them. -/
def dotted (a b c d : Nat) : List Char :=
  decimalDigits a ++ '.' :: (decimalDigits b ++ '.' :: (decimalDigits c ++ '.' :: decimalDigits d))

theorem Host.text_ipv4 (address : Nat) :
    (Host.ipv4 address).text = dotted (address / 0x1000000) (address / 0x10000 % 256)
      (address / 0x100 % 256) (address % 256) := by
  simp [Host.text, dotted, List.intercalate_cons_cons]

theorem plain_of_isDigit {c : Char} (digit : c.isDigit = true) :
    isForbiddenInDomain c = false ∧ c.toLower = c ∧ c ≠ '.' ∧ c ≠ 'x' := by
  have ascii : c.toNat < 128 := by
    simp only [Char.isDigit, Bool.and_eq_true, decide_eq_true_eq, ge_iff_le,
      UInt32.le_iff_toNat_le] at digit
    -- The digits are those from 0 to 9, far below the end of ASCII.
    have last : '9'.val.toNat = 57 := rfl
    change c.val.toNat < 128
    omega
  revert digit
  exact @forall_ascii (fun c => c.isDigit = true →
    isForbiddenInDomain c = false ∧ c.toLower = c ∧ c ≠ '.' ∧ c ≠ 'x') (by decide +kernel) c ascii

theorem splitAtEach_dotted (a b c d : Nat) :
    splitAtEach (· == '.') (dotted a b c d) =
      [decimalDigits a, decimalDigits b, decimalDigits c, decimalDigits d] := by
  -- A row of digits has no dot in it, so that it is one piece.
  have whole : ∀ n, splitAtEach (· == '.') (decimalDigits n) = [decimalDigits n] := fun n =>
    splitAtEach_of_none fun c member => by
      simpa using (plain_of_isDigit (isDigit_of_mem_decimalDigits member)).2.2.1
  rw [dotted, splitAtEach_append _ _ rfl, splitAtEach_append _ _ rfl, splitAtEach_append _ _ rfl,
    whole, whole, whole, whole]
  rfl

theorem mem_dotted {a b c d : Nat} {char : Char} (member : char ∈ dotted a b c d) :
    char.isDigit = true ∨ char = '.' := by
  simp only [dotted, List.mem_append, List.mem_cons] at member
  rcases member with m | rfl | m | rfl | m | rfl | m
  all_goals first | exact .inr rfl | exact .inl (isDigit_of_mem_decimalDigits m)

/-- A row of digits is no label in ASCII form. -/
theorem isLabel_decimalDigits (n : Nat) : Punycode.isLabel (decimalDigits n) = true := by
  cases written : decimalDigits n with
  | nil => exact absurd written (decimalDigits_ne_nil n)
  | cons c digits =>
    have digit : c.isDigit = true :=
      @isDigit_of_mem_decimalDigits n c (by rw [written]; exact List.mem_cons_self)
    -- Such a label would begin with an x, which is no digit.
    have other : ¬ 'x' = c := fun same => (plain_of_isDigit digit).2.2.2 same.symm
    rw [Punycode.isLabel, show "xn--".toList = ['x', 'n', '-', '-'] from rfl, after?, if_neg other]
    rfl

theorem domainParts_dotted (a b c d : Nat) :
    domainParts (dotted a b c d) =
      [decimalDigits a, decimalDigits b, decimalDigits c, decimalDigits d] := by
  unfold domainParts
  rw [splitAtEach_dotted]
  -- An empty last part would be dropped, but a number has a digit at least.
  refine if_neg fun empty => ?_
  have last := empty.2
  simp [decimalDigits_ne_nil] at last

/-- What ends in digits is taken for a number. -/
theorem endsInNumber_dotted (a b c d : Nat) : endsInNumber (dotted a b c d) = true := by
  -- Only the last part is looked at.
  have digits : (decimalDigits d).all Char.isDigit = true :=
    List.all_eq_true.2 fun c => isDigit_of_mem_decimalDigits
  have present : (decimalDigits d).isEmpty = false := by simpa using decimalDigits_ne_nil d
  rw [endsInNumber, domainParts_dotted]
  simp [digits, present]

theorem ipv4Part?_decimalDigits {n : Nat} (small : n < 256) :
    ipv4Part? (decimalDigits n) = some n := by
  revert n
  decide +kernel

theorem parseIpv4_dotted {a b c d : Nat} (first : a < 256) (second : b < 256) (third : c < 256)
    (fourth : d < 256) :
    parseIpv4 (dotted a b c d) = .ok (((a * 256 + b) * 256 + c) * 256 + d) := by
  unfold parseIpv4
  rw [domainParts_dotted]
  simp only [List.mapM_cons, List.mapM_nil, ipv4Part?_decimalDigits first,
    ipv4Part?_decimalDigits second, ipv4Part?_decimalDigits third, ipv4Part?_decimalDigits fourth]
  dsimp
  rw [if_neg]
  · simp
  · simp
    omega

/-- What the leading parts come to has as many bytes as there are of them. -/
theorem foldl_bytes_lt {parts : List Nat} : ∀ {total places : Nat}, total < Nat.pow 256 places →
    (∀ part ∈ parts, part ≤ 255) →
    parts.foldl (fun total part => total * 256 + part) total <
      Nat.pow 256 (places + parts.length) := by
  induction parts with
  | nil => exact fun below _ => below
  | cons part parts ih =>
    intro total places below small
    obtain ⟨first, rest⟩ := List.forall_mem_cons.1 small
    -- One part more is one byte more.
    have next : total * 256 + part < Nat.pow 256 (places + 1) := by
      rw [Nat.pow_eq] at below ⊢
      rw [Nat.pow_succ]
      omega
    have whole := ih next rest
    rwa [List.foldl_cons, List.length_cons, Nat.add_comm parts.length 1, ← Nat.add_assoc]

/-- An address that is read has 32 bits. -/
theorem parseIpv4_lt {domain : List Char} {address : Nat} (read : parseIpv4 domain = .ok address) :
    address < UInt32.size := by
  unfold parseIpv4 at read
  dsimp only at read
  split at read
  · simp at read
  · rename_i numbers _
    split at read
    · simp at read
    · rename_i fits
      simp only [not_or, Nat.not_lt, Nat.not_le, List.any_eq_true, decide_eq_true_eq, not_exists,
        not_and] at fits
      obtain ⟨four, last, bytes⟩ := fits
      rw [Except.ok.injEq] at read
      -- With the last part behind them they make four bytes, never more.
      have start := @foldl_bytes_lt numbers.dropLast 0 0 Nat.one_pos bytes
      have few : numbers.dropLast.length ≤ 4 := by
        rw [List.length_dropLast]
        omega
      rw [Nat.zero_add, Nat.pow_eq] at start
      rw [← read]
      have last : numbers.getLastD 0 < 256 ^ (4 - numbers.dropLast.length) := last
      change _ * 256 ^ (4 - numbers.dropLast.length) + _ < _
      generalize numbers.dropLast.foldl (fun total part => total * 256 + part) 0 = front at start ⊢
      generalize numbers.getLastD 0 = back at last ⊢
      generalize numbers.dropLast.length = count at start few last ⊢
      calc front * 256 ^ (4 - count) + back
        _ < front * 256 ^ (4 - count) + 256 ^ (4 - count) := by omega
        _ = (front + 1) * 256 ^ (4 - count) := by rw [Nat.add_mul, Nat.one_mul]
        _ ≤ 256 ^ count * 256 ^ (4 - count) := Nat.mul_le_mul_right _ start
        _ = 256 ^ 4 := by
          rw [← Nat.pow_add, Nat.add_sub_cancel' few]
        _ = UInt32.size := by decide

theorem Host.isRead_ipv4 {address : Nat} (small : address < UInt32.size) :
    (Host.ipv4 address).IsRead := by
  unfold UInt32.size at small
  have text := Host.text_ipv4 address
  have plain : ∀ c ∈ (Host.ipv4 address).text, isForbiddenInDomain c = false ∧ c.toLower = c := by
    intro c member
    rw [text] at member
    rcases mem_dotted member with digit | rfl
    · exact ⟨(plain_of_isDigit digit).1, (plain_of_isDigit digit).2.1⟩
    · decide
  -- The text has no colon and no bracket, so that it ends where the port begins.
  have chars := fun c member => plain_of_isForbiddenInDomain (plain c member).1
  have present : (Host.ipv4 address).text ≠ [] := by simp [text, dotted]
  refine ⟨?_, present, fun c member => (chars c member).1, fun rest port =>
    splitHost_of_plain (fun c member => ⟨(chars c member).2.1, (chars c member).2.2.1⟩) port⟩
  have labels : (splitAtEach (· == '.') (Host.ipv4 address).text).all Punycode.isLabel = true := by
    rw [text, splitAtEach_dotted]
    simp [isLabel_decimalDigits]
  rw [parseDomain_of_plain plain labels present, text, endsInNumber_dotted, if_pos rfl,
    parseIpv4_dotted (by omega) (by omega) (by omega) (by omega)]
  -- The four bytes are those of the address.
  have whole : ((address / 0x1000000 * 256 + address / 0x10000 % 256) * 256 +
      address / 0x100 % 256) * 256 + address % 256 = address := by omega
  rw [whole]
  rfl

/-! Addresses of 128 bits. -/

theorem Host.text_ipv6 (pieces : List Nat) :
    (Host.ipv6 pieces).text = '[' :: ipv6Inner pieces ++ [']'] :=
  rfl

/-- Pieces are written in colons and hexadecimal digits. -/
theorem mem_joinPieces {c : Char} : ∀ {pieces : List Nat}, c ∈ joinPieces pieces →
    c = ':' ∨ ∃ digit < 16, c = Nat.digitChar digit
  | [], member => by simp [joinPieces] at member
  | [piece], member => by
    rw [joinPieces_singleton] at member
    exact .inr (exists_digit_of_mem_toDigits (by omega) member)
  | piece :: next :: more, member => by
    rw [joinPieces_cons_cons, List.mem_append, List.mem_cons] at member
    rcases member with early | rfl | late
    · -- The first piece, its colon, or what follows it.
      exact .inr (exists_digit_of_mem_toDigits (by omega) early)
    · exact .inl rfl
    · exact mem_joinPieces late

theorem mem_ipv6Inner {pieces : List Nat} {c : Char} (member : c ∈ ipv6Inner pieces) :
    c = ':' ∨ ∃ digit < 16, c = Nat.digitChar digit := by
  unfold ipv6Inner at member
  dsimp only at member
  split at member
  · exact mem_joinPieces member
  · rw [List.mem_append, List.mem_append] at member
    rcases member with (early | colons) | late
    · exact mem_joinPieces early
    · exact .inl (by simpa using colons)
    · exact mem_joinPieces late

theorem plain_of_mem_ipv6Inner {pieces : List Nat} {c : Char} (member : c ∈ ipv6Inner pieces) :
    isHostChar c = true ∧ c ≠ ']' := by
  -- The colon and the sixteen digits are checked one by one.
  have digits : ∀ digit < 16, isHostChar (Nat.digitChar digit) = true ∧
      Nat.digitChar digit ≠ ']' := by decide
  rcases mem_ipv6Inner member with rfl | ⟨digit, small, rfl⟩
  · decide
  · exact digits digit small

theorem Host.isRead_ipv6 {pieces : List Nat} (eight : pieces.length = 8)
    (small : ∀ piece ∈ pieces, piece < 65536) : (Host.ipv6 pieces).IsRead where
  again := by
    rw [Host.text_ipv6, List.cons_append, parseDomain, parseBracketed, if_pos (by simp),
      List.dropLast_concat, parseIpv6_inner eight small]
    rfl
  present := by
    rw [Host.text_ipv6]
    simp
  plain := by
    intro c member
    rw [Host.text_ipv6, List.cons_append, List.mem_cons, List.mem_append, List.mem_singleton]
      at member
    rcases member with rfl | inside | rfl
    · decide
    · exact (plain_of_mem_ipv6Inner inside).1
    · decide
  whole := by
    intro rest port
    -- The first character opens the bracket that the last one closes.
    have inner := splitHost_bracketed (fun c member => (@plain_of_mem_ipv6Inner pieces c member).2)
      port
    rw [Host.text_ipv6, List.append_assoc, List.cons_append, List.singleton_append, splitHost,
      if_neg (by simp)]
    dsimp only
    rw [if_pos rfl, inner]
    rfl

/-- Whatever host is read of a domain, its text is read as that host again. -/
theorem Host.isRead_of_parseDomain {text : List Char} {host : Host}
    (read : parseDomain text = .ok host) : host.IsRead := by
  unfold parseDomain at read
  split at read
  · rename_i inner
    unfold parseBracketed at read
    split at read
    · cases pieces : parseIpv6 inner.dropLast with
      | error => simp [pieces, Except.map] at read
      | ok found =>
        simp only [pieces, Except.map, Except.ok.injEq] at read
        -- In brackets there are eight pieces, whatever way they were written.
        obtain ⟨eight, small⟩ := parseIpv6_spec pieces
        exact read ▸ Host.isRead_ipv6 eight small
    · simp at read
  · split at read
    · simp at read
    · rename_i decoded _
      dsimp only at read
      split at read
      · simp at read
      · rename_i allowed
        split at read
        · simp at read
        · rename_i labels
          split at read
          · simp at read
          · rename_i visible
            split at read
            · cases address : parseIpv4 (decoded.map Char.toLower) with
              | error => simp [address, Except.map] at read
              | ok found =>
                simp only [address, Except.map, Except.ok.injEq] at read
                -- A name that ends in a number is an address or no host.
                exact read ▸ Host.isRead_ipv4 (parseIpv4_lt address)
            · rename_i named
              rw [Except.ok.injEq] at read
              -- The name is the decoded text in lower case, and passed every check in that form.
              refine read ▸ Host.isRead_name (fun c member => ⟨?_, ?_⟩) (by simpa using labels)
                (by simpa using visible) (by simpa using named)
              · by_contra forbidden
                exact allowed (List.any_eq_true.2 ⟨c, member, by simpa using forbidden⟩)
              · obtain ⟨source, _, rfl⟩ := List.mem_map.1 member
                exact toLower_toLower source

/-! What stands behind a domain spoils it. -/

/-- A domain outside brackets holds no control and no space. -/
theorem visible_of_parseDomain {text : List Char} {host : Host} (read : parseDomain text = .ok host)
    (unbracketed : ∀ inner, text ≠ '[' :: inner) : ∀ c ∈ text, 0x20 < c.toNat := by
  intro c member
  by_contra low
  have low : c.toNat ≤ 0x20 := Nat.le_of_not_lt low
  -- The byte of such a character survives the decoding, and then it is forbidden.
  have byte : c.toNat.toUInt8.toNat = c.toNat := Utf8.toNat_toUInt8 (by omega)
  have ascii : c.toNat.toUInt8 < 0x80 := by
    rw [UInt8.lt_iff_toNat_lt, byte]
    exact Nat.lt_of_le_of_lt low (by decide)
  -- It is not the sign that begins an escape ...
  have plain : c.toNat.toUInt8 ≠ 0x25 := by
    intro same
    have code := congrArg UInt8.toNat same
    rw [byte] at code
    have percent : (0x25 : UInt8).toNat = 0x25 := rfl
    omega
  -- ... and no digit of one.
  have apart : Ascii.hexDigit? c.toNat.toUInt8 = none := by
    have zero : (0x30 : UInt8).toNat = 0x30 := rfl
    have lower : (0x61 : UInt8).toNat = 0x61 := rfl
    have upper : (0x41 : UInt8).toNat = 0x41 := rfl
    simp only [Ascii.hexDigit?, UInt8.le_iff_toNat_le, byte]
    rw [if_neg (by omega), if_neg (by omega), if_neg (by omega)]
  have inside : c.toNat.toUInt8 ∈ Utf8.encode text :=
    List.mem_flatMap.2 ⟨c, member, by
      rw [Utf8.encodeChar_of_ascii (by omega)]
      exact List.mem_singleton_self _⟩
  unfold parseDomain at read
  split at read
  · rename_i inner
    exact unbracketed inner rfl
  · split at read
    · simp at read
    · rename_i decoded found
      have kept := Utf8.mem_of_decode? ascii found (Percent.mem_decode plain apart inside)
      rw [byte, Char.ofNat_toNat] at kept
      have forbidden : (decoded.map Char.toLower).any isForbiddenInDomain = true := by
        refine List.any_eq_true.2 ⟨c.toLower, List.mem_map_of_mem kept, ?_⟩
        -- Lower case leaves it as it is, since the capitals are above it.
        have lower : c.toLower = c := by
          refine toLower_of_not_upper fun upper => ?_
          have first : 'A'.val.toNat = 65 := rfl
          have bound := upper.1
          simp only [ge_iff_le, UInt32.le_iff_toNat_le] at bound
          change c.val.toNat ≤ 0x20 at low
          omega
        simp [isForbiddenInDomain, lower, low]
      simp [forbidden] at read

end MergeNotes.Url
