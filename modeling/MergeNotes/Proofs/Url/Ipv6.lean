import MergeNotes.Proofs.Result
import MergeNotes.Proofs.Text.Split
import MergeNotes.Proofs.Url.Numeral

/-! Addresses of 128 bits: what is read can be written, and is read again as it was. -/

namespace MergeNotes.Url

theorem hexValue?_of_mem_toDigits {n : Nat} {c : Char} (member : c ∈ Nat.toDigits 16 n) :
    (hexValue? c).isSome = true := by
  obtain ⟨digit, small, rfl⟩ := exists_digit_of_mem_toDigits (by omega) member
  rw [hexValue?_digitChar small, Option.isSome_some]

/-- A piece does not begin with a colon. -/
theorem toDigits_piece_eq_cons (piece : Nat) :
    ∃ c text, Nat.toDigits 16 piece = c :: text ∧ c ≠ ':' := by
  cases written : Nat.toDigits 16 piece with
  | nil => exact absurd written Nat.toDigits_ne_nil
  | cons c text =>
    refine ⟨c, text, rfl, ?_⟩
    rintro rfl
    -- A colon is no digit.
    have digit := @hexValue?_of_mem_toDigits piece ':' (by rw [written]; exact List.mem_cons_self)
    revert digit
    decide

/-- The first four characters hold all digits of a piece, and none of what follows it. -/
theorem leadingDigits_piece {piece : Nat} (small : piece < 65536) {rest : List Char}
    (stop : ∀ c ∈ rest.head?, hexValue? c = none) :
    ((Nat.toDigits 16 piece ++ rest).take 4).takeWhile (fun c => (hexValue? c).isSome) =
      Nat.toDigits 16 piece := by
  -- A piece has at most four digits, so the first four characters hold all of them.
  have short : (Nat.toDigits 16 piece).length ≤ 4 :=
    (Nat.length_toDigits_le_iff (by omega) (by omega)).2 (by omega)
  rw [List.take_append, List.take_of_length_le short,
    List.takeWhile_append_of_pos fun c => hexValue?_of_mem_toDigits]
  cases rest with
  | nil => simp
  | cons c rest =>
    cases 4 - (Nat.toDigits 16 piece).length with
    | zero => simp
    | succ left => simp [stop c rfl]

/-- The last piece of an address is read. -/
theorem readPieces_last {fuel : Nat} {pieces : List Nat} {gap : Option Nat} {piece : Nat}
    (room : pieces.length ≠ 8) (small : piece < 65536) :
    readPieces (fuel + 1) pieces gap (Nat.toDigits 16 piece) = some (pieces ++ [piece], gap) := by
  -- All digits are read, and nothing is left behind them.
  have digits := @leadingDigits_piece piece small [] (by simp)
  have value := @valueIn?_toDigits 16 (by omega) (by omega) piece
  obtain ⟨c, text, written, noColon⟩ := toDigits_piece_eq_cons piece
  rw [List.append_nil] at digits
  rw [written] at digits value ⊢
  rw [readPieces, if_neg room, if_neg noColon]
  simp only [digits, value, List.drop_length, Option.getD_some]

/-- A piece is read up to the colon behind it. -/
theorem readPieces_next {fuel : Nat} {pieces : List Nat} {gap : Option Nat} {piece : Nat}
    {rest : List Char} (room : pieces.length ≠ 8) (small : piece < 65536) (more : rest ≠ []) :
    readPieces (fuel + 1) pieces gap (Nat.toDigits 16 piece ++ ':' :: rest) =
      readPieces fuel (pieces ++ [piece]) gap rest := by
  have digits := @leadingDigits_piece piece small (':' :: rest) (by simp; decide)
  have value := @valueIn?_toDigits 16 (by omega) (by omega) piece
  obtain ⟨c, text, written, noColon⟩ := toDigits_piece_eq_cons piece
  rw [written] at digits value ⊢
  rw [List.cons_append] at digits ⊢
  rw [readPieces, if_neg room, if_neg noColon]
  -- Behind the digits stand the colon and what comes next.
  have behind : (c :: (text ++ ':' :: rest)).drop (c :: text).length = ':' :: rest := by
    rw [← List.cons_append, List.drop_left]
  simp only [digits, value, behind, Option.getD_some]

theorem joinPieces_singleton (piece : Nat) : joinPieces [piece] = Nat.toDigits 16 piece := by
  rw [joinPieces, List.map_singleton, List.intercalate_singleton]

theorem joinPieces_cons_cons (piece next : Nat) (more : List Nat) :
    joinPieces (piece :: next :: more) =
      Nat.toDigits 16 piece ++ ':' :: joinPieces (next :: more) := by
  rw [joinPieces, List.map_cons, List.map_cons, List.intercalate_cons_cons, List.append_assoc,
    List.singleton_append, ← List.map_cons, ← joinPieces]

theorem joinPieces_eq_nil_iff {pieces : List Nat} : joinPieces pieces = [] ↔ pieces = [] := by
  match pieces with
  | [] => simp [joinPieces]
  | [piece] => simp [joinPieces_singleton]
  | piece :: next :: more => simp [joinPieces_cons_cons]

/-- Pieces with colons between them are read in order. -/
theorem readPieces_joinPieces {more : List Nat} :
    ∀ {fuel : Nat} {pieces : List Nat} {gap : Option Nat}, more.length < fuel →
      pieces.length + more.length ≤ 8 → (∀ piece ∈ more, piece < 65536) →
      readPieces fuel pieces gap (joinPieces more) = some (pieces ++ more, gap) := by
  induction more with
  | nil =>
    intro fuel pieces gap enough _ _
    obtain ⟨fuel, rfl⟩ : ∃ less, fuel = less + 1 := ⟨fuel - 1, by omega⟩
    rw [List.append_nil]
    rfl
  | cons piece more ih =>
    intro fuel pieces gap enough room small
    obtain ⟨first, rest⟩ := List.forall_mem_cons.1 small
    rw [List.length_cons] at enough room
    -- One round of reading takes one piece.
    obtain ⟨fuel, rfl⟩ : ∃ less, fuel = less + 1 := ⟨fuel - 1, by omega⟩
    cases more with
    | nil => rw [joinPieces_singleton, readPieces_last (by omega) first]
    | cons next more =>
      have last : joinPieces (next :: more) ≠ [] := by simp [joinPieces_eq_nil_iff]
      have left : (pieces ++ [piece]).length + (next :: more).length ≤ 8 := by
        rw [List.length_append, List.length_singleton]
        omega
      rw [joinPieces_cons_cons, readPieces_next (by omega) first last, ih (by omega) left rest,
        List.append_assoc, List.singleton_append]

/-- Pieces are read up to a colon behind the last of them. -/
theorem readPieces_joinPieces_colon {more : List Nat} {text : List Char} (goesOn : text ≠ []) :
    ∀ {fuel : Nat} {pieces : List Nat} {gap : Option Nat}, more ≠ [] →
      pieces.length + more.length ≤ 8 → (∀ piece ∈ more, piece < 65536) →
      readPieces (fuel + more.length) pieces gap (joinPieces more ++ ':' :: text) =
        readPieces fuel (pieces ++ more) gap text := by
  induction more with
  | nil => exact fun present => absurd rfl present
  | cons piece more ih =>
    intro fuel pieces gap _ room small
    obtain ⟨first, rest⟩ := List.forall_mem_cons.1 small
    rw [List.length_cons] at room ⊢
    rw [← Nat.add_assoc]
    cases more with
    | nil =>
      rw [joinPieces_singleton, readPieces_next (by omega) first goesOn, List.length_nil]
      rfl
    | cons next more =>
      have left : (pieces ++ [piece]).length + (next :: more).length ≤ 8 := by
        rw [List.length_append, List.length_singleton]
        omega
      rw [joinPieces_cons_cons, List.append_assoc, List.cons_append,
        readPieces_next (by omega) first (by simp), ih (by simp) left rest, List.append_assoc,
        List.singleton_append]

/-- Two colons stand for zeros; one is put in at once, and the place behind it is kept. -/
theorem readPieces_gap {fuel : Nat} {pieces : List Nat} {text : List Char}
    (room : pieces.length ≠ 8) :
    readPieces (fuel + 1) pieces none (':' :: text) =
      readPieces fuel (pieces ++ [0]) (some (pieces.length + 1)) text := by
  rw [readPieces, if_neg room, if_pos rfl, Option.isSome_none]
  rfl

/-- A run of zeros at some place. -/
theorem zeros_at (pieces : List Nat) (start : Nat) :
    pieces = pieces.take start ++
      (List.replicate ((pieces.drop start).takeWhile (· == 0)).length 0 ++
        (pieces.drop start).dropWhile (· == 0)) := by
  have zeros : (pieces.drop start).takeWhile (· == 0) =
      List.replicate ((pieces.drop start).takeWhile (· == 0)).length 0 := by
    refine List.eq_replicate_of_mem fun piece member => ?_
    -- What is taken of the zeros is nothing but zeros.
    have passed := List.all_eq_true.1 (List.all_takeWhile (p := (· == 0))) piece member
    exact beq_iff_eq.1 passed
  rw [← zeros, List.takeWhile_append_dropWhile, List.take_append_drop]

/-- Where zeros are left out there are at least two, and they are zeros. -/
theorem longestZeros_spec (pieces : List Nat) :
    (longestZeros pieces).2 = 0 ∨
      2 ≤ (longestZeros pieces).2 ∧
        ∃ rest, pieces = pieces.take (longestZeros pieces).1 ++
          (List.replicate (longestZeros pieces).2 0 ++ rest) := by
  -- Whatever places were looked at, the best of them is where such a run is.
  have best : ∀ (starts : List Nat) (best : Nat × Nat),
      (best.2 = 0 ∨ 2 ≤ best.2 ∧
        ∃ rest, pieces = pieces.take best.1 ++ (List.replicate best.2 0 ++ rest)) →
      (fun found : Nat × Nat => found.2 = 0 ∨ 2 ≤ found.2 ∧
        ∃ rest, pieces = pieces.take found.1 ++ (List.replicate found.2 0 ++ rest))
        (starts.foldl (fun best start =>
          if max best.2 1 < ((pieces.drop start).takeWhile (· == 0)).length then
            (start, ((pieces.drop start).takeWhile (· == 0)).length) else best) best) := by
    intro starts
    induction starts with
    | nil => exact fun best holds => holds
    | cons start starts ih =>
      intro best holds
      rw [List.foldl_cons]
      -- Only a run that is longer, and longer than one, takes the place of the best.
      by_cases longer : max best.2 1 < ((pieces.drop start).takeWhile (· == 0)).length
      · rw [if_pos longer]
        refine ih _ (.inr ⟨?_, _, zeros_at pieces start⟩)
        dsimp only
        omega
      · rw [if_neg longer]
        exact ih best holds
  exact best (List.range pieces.length) (0, 0) (.inl rfl)

/-- Every piece takes at least one digit. -/
theorem length_le_joinPieces (pieces : List Nat) : pieces.length ≤ (joinPieces pieces).length := by
  match pieces with
  | [] => simp
  | [piece] =>
    rw [joinPieces_singleton]
    exact Nat.length_toDigits_pos
  | piece :: next :: more =>
    -- A colon is written for each piece but the last, so one character at least.
    have rest := length_le_joinPieces (next :: more)
    rw [joinPieces_cons_cons, List.length_append, List.length_cons]
    simp only [List.length_cons] at rest ⊢
    omega

/-- An address that does not begin with a colon is read from its first piece on. -/
theorem parseIpv6_of_read {text : List Char} {pieces : List Nat} {gap : Option Nat}
    (begins : ∃ c d rest, text = c :: d :: rest ∧ c ≠ ':')
    (read : readPieces (text.length + 1) [] none text = some (pieces, gap)) :
    parseIpv6 text =
      match gap with
      | none => if pieces.length = 8 then .ok pieces else .error .invalidIpv6
      | some gap =>
        .ok (pieces.take gap ++ List.replicate (8 - pieces.length) 0 ++ pieces.drop gap) := by
  obtain ⟨c, d, rest, rfl, noColon⟩ := begins
  -- Of the ways in which an address can begin only the last is left.
  have known : ipv6Pieces? (c :: d :: rest) = some (pieces, gap) := by
    unfold ipv6Pieces?
    split
    · rename_i same
      exact absurd (List.cons.inj same).1 noColon
    · rename_i same
      exact absurd (List.cons.inj same).1 noColon
    · rename_i same
      simp at same
    · rename_i same
      simp at same
    · exact read
  rw [parseIpv6, known]
  cases gap <;> rfl

/-- The characters at the front of pieces are no colon, and with what follows there are two. -/
theorem joinPieces_begins {pieces : List Nat} (present : pieces ≠ []) {rest : List Char}
    (long : 2 ≤ (joinPieces pieces ++ rest).length) :
    ∃ c d more, joinPieces pieces ++ rest = c :: d :: more ∧ c ≠ ':' := by
  match pieces with
  | [] => exact absurd rfl present
  | piece :: others =>
    obtain ⟨c, text, written, noColon⟩ := toDigits_piece_eq_cons piece
    -- The first digit of the first piece begins the text.
    obtain ⟨behind, same⟩ : ∃ behind, joinPieces (piece :: others) ++ rest = c :: behind := by
      cases others with
      | nil => exact ⟨text ++ rest, by rw [joinPieces_singleton, written]; rfl⟩
      | cons next others => exact ⟨_, by rw [joinPieces_cons_cons, written]; rfl⟩
    rw [same] at long ⊢
    cases behind with
    | nil => simp at long
    | cons d more => exact ⟨c, d, more, rfl, noColon⟩

/-- Eight pieces without a gap are read as they are. -/
theorem parseIpv6_joinPieces {pieces : List Nat} (eight : pieces.length = 8)
    (small : ∀ piece ∈ pieces, piece < 65536) : parseIpv6 (joinPieces pieces) = .ok pieces := by
  have long := length_le_joinPieces pieces
  have present : pieces ≠ [] := by
    rintro rfl
    simp at eight
  have begins := @joinPieces_begins pieces present [] (by rw [List.append_nil]; omega)
  have read := @readPieces_joinPieces pieces ((joinPieces pieces).length + 1) [] none (by omega)
    (by rw [List.length_nil]; omega) small
  rw [List.append_nil] at begins
  rw [List.nil_append] at read
  rw [parseIpv6_of_read begins read]
  exact if_pos eight

/-- Pieces with zeros left out are read with the zeros put in. -/
theorem parseIpv6_gap {before after : List Nat} {zeros : Nat} (several : 2 ≤ zeros)
    (eight : before.length + zeros + after.length = 8)
    (small : ∀ piece ∈ before ++ after, piece < 65536) :
    parseIpv6 (joinPieces before ++ ':' :: ':' :: joinPieces after) =
      .ok (before ++ List.replicate zeros 0 ++ after) := by
  obtain ⟨first, last⟩ := List.forall_mem_append.1 small
  have longBefore := length_le_joinPieces before
  have longAfter := length_le_joinPieces after
  by_cases none_before : before = []
  · -- Nothing stands before the colons, and then they are known for what they are at once.
    subst none_before
    have read := @readPieces_joinPieces after ((joinPieces after).length + 1) [0] (some 1)
      (by omega) (by simp at eight ⊢; omega) last
    have left : 8 - ([0] ++ after).length + 1 = zeros := by simp at eight ⊢; omega
    simp only [joinPieces, List.map_nil, List.intercalate_nil, List.nil_append]
    rw [parseIpv6, ipv6Pieces?, ← joinPieces, read, ← left, List.replicate_succ]
    rfl
  · have begins := @joinPieces_begins before none_before (':' :: ':' :: joinPieces after)
      (by simp; omega)
    -- The pieces before take one round each, the colons one, and enough are left for the rest.
    obtain ⟨fuel, enough, fueled⟩ : ∃ fuel, after.length < fuel ∧
        (joinPieces before ++ ':' :: ':' :: joinPieces after).length + 1 =
          fuel + 1 + before.length := by
      refine ⟨(joinPieces before).length + 2 + (joinPieces after).length - before.length,
        by omega, ?_⟩
      simp only [List.length_append, List.length_cons]
      omega
    have read : readPieces ((joinPieces before ++ ':' :: ':' :: joinPieces after).length + 1) []
        none (joinPieces before ++ ':' :: ':' :: joinPieces after) =
        some (before ++ [0] ++ after, some (before.length + 1)) := by
      rw [fueled, readPieces_joinPieces_colon (by simp) none_before
        (by rw [List.length_nil]; omega) first, List.nil_append, readPieces_gap (by omega),
        readPieces_joinPieces enough (by simp; omega) last]
    -- One zero was put in when the colons were met, and the others are put in now.
    have left : 8 - (before ++ [0] ++ after).length + 1 = zeros := by simp; omega
    have place : (before ++ [0]).length = before.length + 1 := by simp
    rw [parseIpv6_of_read begins read, ← left, List.replicate_succ]
    dsimp only
    rw [List.take_left' place, List.drop_left' place]
    simp

/-- What an address of eight pieces is written as between its brackets. -/
def ipv6Inner (pieces : List Nat) : List Char :=
  let (start, length) := longestZeros pieces
  if length = 0 then joinPieces pieces
  else joinPieces (pieces.take start) ++ [':', ':'] ++ joinPieces (pieces.drop (start + length))

/-- The text of eight pieces is read as these pieces. -/
theorem parseIpv6_inner {pieces : List Nat} (eight : pieces.length = 8)
    (small : ∀ piece ∈ pieces, piece < 65536) : parseIpv6 (ipv6Inner pieces) = .ok pieces := by
  unfold ipv6Inner
  rcases longestZeros_spec pieces with none_left | ⟨several, rest, zeros⟩
  · dsimp only
    rw [if_pos none_left]
    exact parseIpv6_joinPieces eight small
  · generalize longestZeros pieces = best at several zeros
    obtain ⟨start, length⟩ := best
    dsimp only at several zeros ⊢
    -- The run of zeros lies within the eight pieces, so its start is a place among them.
    have total := congrArg List.length zeros
    simp only [List.length_append, List.length_replicate, List.length_take] at total
    have place : (pieces.take start).length = start := by
      rw [List.length_take]
      omega
    have behind : pieces.drop (start + length) = rest := by
      have same := congrArg (List.drop (start + length)) zeros
      rwa [← List.append_assoc, List.drop_left' (by simp [place])] at same
    rw [if_neg (by omega), behind, List.append_assoc]
    have read := @parseIpv6_gap (pieces.take start) rest length several (by omega) ?_
    · rw [List.append_assoc, ← zeros] at read
      exact read
    · intro piece member
      refine small piece ?_
      rw [zeros]
      rcases List.mem_append.1 member with early | late
      · exact List.mem_append_left _ early
      · exact List.mem_append_right _ (List.mem_append_right _ late)

/-- A decimal tail makes two pieces. -/
theorem ipv4Tail?_spec {text : List Char} {tail : List Nat} (read : ipv4Tail? text = some tail) :
    tail.length = 2 ∧ ∀ piece ∈ tail, piece < 65536 := by
  unfold ipv4Tail? at read
  simp only [Option.bind_eq_bind, Option.bind_eq_some_iff] at read
  obtain ⟨numbers, parts, read⟩ := read
  -- Each of the four parts is a byte, and two of them make a piece.
  have small : ∀ number ∈ numbers, number < 256 := by
    refine forall_of_mapM_eq_some ?_ parts
    intro part number found
    split at found
    · simp at found
    · simp at found
    · simp only [Option.filter_eq_some_iff, decide_eq_true_eq] at found
      exact found.2
  split at read
  · simp only [List.mem_cons, List.not_mem_nil, or_false, forall_eq_or_imp, forall_eq] at small
    simp only [Option.some.injEq] at read
    rw [← read]
    simp
    omega
  · simp at read

/-- What is read are at most eight pieces of 16 bits. -/
theorem readPieces_spec {fuel : Nat} : ∀ {pieces found : List Nat} {gap place : Option Nat}
    {text : List Char}, readPieces fuel pieces gap text = some (found, place) →
      pieces.length ≤ 8 → (∀ piece ∈ pieces, piece < 65536) →
      found.length ≤ 8 ∧ ∀ piece ∈ found, piece < 65536 := by
  induction fuel with
  | zero => simp [readPieces]
  | succ fuel ih =>
    intro pieces found gap place text read room small
    cases text with
    | nil =>
      simp only [readPieces, Option.some.injEq, Prod.mk.injEq] at read
      exact read.1 ▸ ⟨room, small⟩
    | cons c text =>
      rw [readPieces] at read
      by_cases full : pieces.length = 8
      · simp [full] at read
      rw [if_neg full] at read
      -- One more piece is added, and it has at most four digits.
      have added : ∀ value < 65536, (pieces ++ [value]).length ≤ 8 ∧
          ∀ piece ∈ pieces ++ [value], piece < 65536 := by
        intro value below
        refine ⟨by rw [List.length_append, List.length_singleton]; omega, ?_⟩
        simpa [or_imp, forall_and] using ⟨small, below⟩
      by_cases colon : c = ':'
      · rw [if_pos colon] at read
        split at read
        · simp at read
        · exact ih read (added 0 (by omega)).1 (added 0 (by omega)).2
      · rw [if_neg colon] at read
        have below : (valueIn? 16 (((c :: text).take 4).takeWhile
            fun c => (hexValue? c).isSome)).getD 0 < 65536 := by
          have four : (((c :: text).take 4).takeWhile fun c => (hexValue? c).isSome).length ≤ 4 :=
            Nat.le_trans (List.takeWhile_sublist _).length_le (List.length_take_le _ _)
          cases value : valueIn? 16 (((c :: text).take 4).takeWhile
              fun c => (hexValue? c).isSome) with
          | none => simp
          | some number =>
            exact Nat.lt_of_lt_of_le (valueIn?_lt value)
              (Nat.pow_le_pow_right (show 0 < 16 by omega) four)
        obtain ⟨longer, bounded⟩ := added _ below
        dsimp only at read
        split at read
        · simp only [Option.some.injEq, Prod.mk.injEq] at read
          exact read.1 ▸ ⟨longer, bounded⟩
        · split at read
          · simp at read
          · rename_i space
            simp only [Option.map_eq_some_iff, Prod.mk.injEq] at read
            obtain ⟨tail, known, rfl, _⟩ := read
            obtain ⟨two, within⟩ := ipv4Tail?_spec known
            have space : ¬ 6 < pieces.length := fun beyond => space (.inr beyond)
            refine ⟨by rw [List.length_append]; omega, fun piece member => ?_⟩
            rcases List.mem_append.1 member with old | new
            · exact small piece old
            · exact within piece new
        · simp at read
        · exact ih read longer bounded
        · simp at read

/-- However an address begins, at most eight pieces of 16 bits are read of it. -/
theorem ipv6Pieces?_spec {text : List Char} {pieces : List Nat} {gap : Option Nat}
    (read : ipv6Pieces? text = some (pieces, gap)) :
    pieces.length ≤ 8 ∧ ∀ piece ∈ pieces, piece < 65536 := by
  unfold ipv6Pieces? at read
  split at read
  · exact readPieces_spec read (by simp) (by simp)
  · simp at read
  · simp at read
  · simp at read
  · exact readPieces_spec read (by simp) (by simp)

/-- An address that is read has eight pieces of 16 bits. -/
theorem parseIpv6_spec {text : List Char} {pieces : List Nat} (read : parseIpv6 text = .ok pieces) :
    pieces.length = 8 ∧ ∀ piece ∈ pieces, piece < 65536 := by
  unfold parseIpv6 at read
  split at read
  · simp at read
  · rename_i parts known
    obtain ⟨_, small⟩ := ipv6Pieces?_spec known
    split at read
    · rename_i eight
      rw [Except.ok.injEq] at read
      exact read ▸ ⟨eight, small⟩
    · simp at read
  · -- The zeros that were left out make up for what is missing.
    rename_i parts gap known
    obtain ⟨short, small⟩ := ipv6Pieces?_spec known
    rw [Except.ok.injEq] at read
    rw [← read]
    refine ⟨?_, fun piece member => ?_⟩
    · simp only [List.length_append, List.length_take, List.length_replicate, List.length_drop]
      omega
    · rcases List.mem_append.1 member with front | back
      · rcases List.mem_append.1 front with early | zero
        · exact small piece (List.mem_of_mem_take early)
        · rw [List.eq_of_mem_replicate zero]
          omega
      · exact small piece (List.mem_of_mem_drop back)

end MergeNotes.Url
