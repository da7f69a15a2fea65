import MergeNotes.Proofs.Url.Host
import MergeNotes.Proofs.Url.Path

/-! Authorities of well-known schemes: their text is plain, and is read again as the same
authority. -/

namespace MergeNotes.Url

variable {port : Nat}

/-- A domain without text is an empty host. -/
theorem parseDomain_nil : parseDomain [] = .error .emptyHost :=
  rfl

/-- The authority that a text without separators comes to. -/
def readAuthority (kind : Kind) (text : List Char) : Except Error Authority := do
  let (credentials, rest) := splitCredentials text
  let (name, port) := splitHost false rest
  let host ← parseDomain name
  let port ← portOf (port.drop 1)
  .ok ⟨credentials.bind credentialsOf, host, if kind = .network (port.getD 0) then none else port⟩

theorem isSeparator_network (c : Char) : isSeparator (.network port) c = endsPort c := by
  rfl

theorem splitHost_append (inBrackets : Bool) (text : List Char) :
    (splitHost inBrackets text).1 ++ (splitHost inBrackets text).2 = text := by
  induction text generalizing inBrackets with
  | nil => rfl
  | cons c text ih =>
    rw [splitHost]
    split
    · rfl
    · dsimp only
      rw [List.cons_append, ih]

/-- What is behind the credentials is the end of the text. -/
theorem splitCredentials_suffix (text : List Char) : (splitCredentials text).2 <:+ text := by
  unfold splitCredentials
  rw [List.span_eq_takeWhile_dropWhile]
  split
  · exact List.suffix_refl _
  · rename_i after c before same
    -- The text is read from behind: what is before the last at sign is the remainder.
    have whole := List.takeWhile_append_dropWhile (p := (· != '@')) (l := text.reverse)
    simp only [Prod.mk.injEq] at same
    rw [same.1, same.2] at whole
    refine ⟨(c :: before).reverse, ?_⟩
    rw [← List.reverse_append, whole, List.reverse_reverse]

theorem parseDomain_ne_empty (text : List Char) : parseDomain text ≠ .ok .empty := fun read =>
  (Host.isRead_of_parseDomain read).present rfl

/-- For a well-known scheme, the authority ends at the first separator, and is read by itself. -/
theorem parseAuthority_eq (text : List Char) (atEnd : Bool) :
    parseAuthority (.network port) text atEnd =
      (readAuthority (.network port)
        (text.takeWhile (!isSeparator (.network port) ·))).map fun authority =>
          (authority, text.dropWhile (!isSeparator (.network port) ·)) := by
  unfold parseAuthority readAuthority
  rw [List.span_eq_takeWhile_dropWhile]
  have inside : ∀ c ∈ text.takeWhile (!isSeparator (.network port) ·), endsPort c = false := by
    intro c member
    have passed := List.all_eq_true.1 (List.all_takeWhile
      (p := (!isSeparator (.network port) ·))) c member
    simpa [isSeparator_network] using passed
  dsimp only
  generalize text.takeWhile (!isSeparator (.network port) ·) = authority at inside ⊢
  generalize text.dropWhile (!isSeparator (.network port) ·) = path
  have behind := splitCredentials_suffix authority
  generalize splitCredentials authority = known at behind ⊢
  obtain ⟨credentials, rest⟩ := known
  dsimp only at behind ⊢
  -- Where nothing is before an at sign and nothing behind it, the host is empty anyway.
  by_cases nothing : rest = []
  · subst nothing
    split <;> rfl
  · have parts := splitHost_append false rest
    generalize splitHost false rest = split at parts ⊢
    obtain ⟨name, behindName⟩ := split
    -- The port ends only at a separator, and there is none in the authority.
    have digits : (behindName.drop 1).span (!endsPort ·) = (behindName.drop 1, []) := by
      refine span_of_all fun c member => ?_
      have within := behind.subset (parts ▸ List.mem_append_right _ (List.mem_of_mem_drop member))
      simp [inside c within]
    -- What remains differs only in where an empty host is refused, and no domain is empty.
    have visible : rest.isEmpty = false := by simpa using nothing
    have special : (Kind.network port).isSpecial = true := rfl
    simp only [visible, special, digits, Bool.false_eq_true, false_and, and_false, if_false,
      if_true]
    cases empty : name.isEmpty with
    | true =>
      rw [List.isEmpty_iff.1 empty, parseDomain_nil]
      rfl
    | false =>
      cases read : parseDomain name with
      | error => rfl
      | ok host =>
        have named : host ≠ .empty := fun same => parseDomain_ne_empty name (same ▸ read)
        cases portOf (behindName.drop 1) with
        | error => simp [bind, Except.bind, named, Except.map]
        | ok number => simp [bind, Except.bind, named, Except.map]

/-! Credentials. -/

/-- The characters that credentials are written in. -/
def isUserChar (c : Char) : Bool :=
  keepsBut " \"<>`#?\x7b\x7d/:;=@[\\]^|" c

/-- Credentials as they come of reading a text. -/
structure Credentials.IsRead (credentials : Credentials) : Prop where
  user : ∀ c ∈ credentials.user, isUserChar c = true
  password : ∀ password ∈ credentials.password, password ≠ [] ∧ ∀ c ∈ password, isUserChar c = true
  present : credentials.user = [] → credentials.password ≠ none

theorem isUserChar_of_mem_encodeUser {text : List Char} {c : Char} (member : c ∈ encodeUser text) :
    isUserChar c = true :=
  Percent.keep_of_mem_encode (fun c => keepsBut_of_isEscape (by decide)) member

theorem encodeUser_of_plain {text : List Char} (plain : ∀ c ∈ text, isUserChar c = true) :
    encodeUser text = text :=
  Percent.encode_of_kept plain

theorem encodeUser_eq_nil_iff {text : List Char} : encodeUser text = [] ↔ text = [] :=
  Percent.encode_eq_nil_iff

theorem Credentials.isRead_of_credentialsOf {text : List Char} {credentials : Credentials}
    (read : credentialsOf text = some credentials) : credentials.IsRead := by
  unfold credentialsOf at read
  -- With no colon, or with no password behind it, the user is all there is.
  have user := fun user c => @isUserChar_of_mem_encodeUser user c
  split at read
  · rename_i name _
    split at read
    · simp at read
    · rename_i visible
      rw [Option.some.injEq] at read
      rw [← read]
      refine ⟨user name, by simp, fun empty => ?_⟩
      exact absurd (encodeUser_eq_nil_iff.1 empty) (by simpa using visible)
  · rename_i name _ _
    split at read
    · simp at read
    · rename_i visible
      rw [Option.some.injEq] at read
      rw [← read]
      refine ⟨user name, by simp, fun empty => ?_⟩
      exact absurd (encodeUser_eq_nil_iff.1 empty) (by simpa using visible)
  · rename_i name mark password single _
    rw [Option.some.injEq] at read
    rw [← read]
    refine ⟨user name, ?_, fun _ => by simp⟩
    simp only [Option.mem_def, Option.some.injEq, forall_eq']
    exact ⟨fun empty => single (encodeUser_eq_nil_iff.1 empty), user password⟩

theorem isUserChar_spec {c : Char} (plain : isUserChar c = true) :
    isAuthorityChar c = true ∧ c ≠ '@' ∧ c ≠ ':' := by
  have ascii : c.toNat < 128 := by
    -- What is kept is printable, so that it is ASCII.
    have bounds := (keepsBut_iff.1 plain).1
    omega
  revert plain
  exact @forall_ascii (fun c => isUserChar c = true →
    isAuthorityChar c = true ∧ c ≠ '@' ∧ c ≠ ':') (by decide +kernel) c ascii

/-- What stands before the at sign. -/
def Credentials.inner (credentials : Credentials) : List Char :=
  credentials.user ++ credentials.password.elim [] (':' :: ·)

theorem Credentials.text_eq (credentials : Credentials) :
    credentials.text = credentials.inner ++ ['@'] :=
  rfl

theorem Credentials.IsRead.plain {credentials : Credentials} (good : credentials.IsRead) :
    ∀ c ∈ credentials.inner, isAuthorityChar c = true ∧ c ≠ '@' := by
  intro c member
  -- The user, the colon or the password.
  rcases List.mem_append.1 member with user | password
  · exact ⟨(isUserChar_spec (good.user c user)).1, (isUserChar_spec (good.user c user)).2.1⟩
  · cases secret : credentials.password with
    | none => simp [secret] at password
    | some text =>
      rw [secret, Option.elim_some, List.mem_cons] at password
      rcases password with rfl | inside
      · decide
      · have known := isUserChar_spec ((good.password text secret).2 c inside)
        exact ⟨known.1, known.2.1⟩

/-- Written credentials are read as they are. -/
theorem Credentials.IsRead.again {credentials : Credentials} (good : credentials.IsRead) :
    credentialsOf credentials.inner = some credentials := by
  obtain ⟨user, password⟩ := credentials
  have passes : ∀ c ∈ user, (c != ':') = true := fun c member => by
    simpa using (isUserChar_spec (good.user c member)).2.2
  unfold credentialsOf Credentials.inner
  cases password with
  | none =>
    -- Without a password there is a user, or the credentials would not have been read.
    have present : user ≠ [] := fun empty => good.present empty rfl
    have visible : user.isEmpty = false := by simpa using present
    simp only [Option.elim_none, List.append_nil, span_of_all passes, visible, Bool.false_eq_true,
      if_false, encodeUser_of_plain good.user]
  | some text =>
    obtain ⟨present, plain⟩ := good.password text rfl
    rw [Option.elim_some, span_of_stop passes (by decide)]
    -- A password that is written is not empty, so that it is read as one.
    cases text with
    | nil => exact absurd rfl present
    | cons c text =>
      dsimp only
      rw [encodeUser_of_plain good.user, encodeUser_of_plain plain]

/-! The whole. -/

/-- An authority as it comes of reading a text. -/
structure Authority.IsRead (kind : Kind) (authority : Authority) : Prop where
  credentials : ∀ credentials ∈ authority.credentials, credentials.IsRead
  host : authority.host.IsRead
  port : ∀ port ∈ authority.port, port ≤ 65535 ∧ kind ≠ .network port

theorem portOf_spec {text : List Char} {number : Option Nat} (read : portOf text = .ok number) :
    ∀ port ∈ number, port ≤ 65535 := by
  unfold portOf at read
  split at read
  · simp at read
  · split at read
    · rw [Except.ok.injEq] at read
      simp [← read]
    · split at read
      · simp at read
      · rename_i within
        rw [Except.ok.injEq] at read
        rw [← read]
        -- The value is within the bound, or there would be no answer.
        simpa using within

/-- Whatever authority is read is one that can be written. -/
theorem Authority.isRead_of_readAuthority {kind : Kind} {text : List Char} {authority : Authority}
    (read : readAuthority kind text = .ok authority) : authority.IsRead kind := by
  unfold readAuthority at read
  obtain ⟨host, named, read⟩ := exists_ok_of_bind read
  obtain ⟨number, numbered, read⟩ := exists_ok_of_bind read
  rw [Except.ok.injEq] at read
  rw [← read]
  refine ⟨fun credentials known => ?_, Host.isRead_of_parseDomain named, ?_⟩
  · obtain ⟨given, _, known⟩ := Option.bind_eq_some_iff.1 known
    exact Credentials.isRead_of_credentialsOf known
  · dsimp only
    split
    · simp
    · rename_i other
      intro port same
      rw [Option.mem_def] at same
      -- A port that is kept is not the default one, which would have been dropped.
      refine ⟨portOf_spec numbered port same, ?_⟩
      rwa [same, Option.getD_some] at other

/-- What stands behind the credentials. -/
def Authority.place (authority : Authority) : List Char :=
  authority.host.text ++ authority.port.elim [] (':' :: decimalDigits ·)

theorem isHostChar_spec {c : Char} (plain : isHostChar c = true) :
    isAuthorityChar c = true ∧ c ≠ '@' := by
  simpa [isHostChar] using plain

theorem Authority.IsRead.place_plain {kind : Kind} {authority : Authority}
    (good : authority.IsRead kind) :
    ∀ c ∈ authority.place, isAuthorityChar c = true ∧ c ≠ '@' := by
  intro c member
  -- The host, the colon or the digits of the port.
  rcases List.mem_append.1 member with host | port
  · exact isHostChar_spec (good.host.plain c host)
  · cases number : authority.port with
    | none => simp [number] at port
    | some number' =>
      rw [number, Option.elim_some, List.mem_cons] at port
      rcases port with rfl | digit
      · decide
      · have known := (plain_of_isDigit (isDigit_of_mem_decimalDigits digit)).1
        exact isHostChar_spec (plain_of_isForbiddenInDomain known).1

/-- Without credentials the place is all there is, and with them it is what they stand before. -/
theorem Authority.IsRead.splitCredentials {kind : Kind} {authority : Authority}
    (good : authority.IsRead kind) :
    splitCredentials authority.text =
      (authority.credentials.map Credentials.inner, authority.place) := by
  -- The last at sign is that of the credentials, since the place holds none.
  have stays : ∀ c ∈ authority.place.reverse, (c != '@') = true := fun c member => by
    simpa using (good.place_plain c (List.mem_reverse.1 member)).2
  unfold Url.splitCredentials
  cases credentials : authority.credentials with
  | none =>
    have text : authority.text = authority.place := by
      rw [Authority.text, credentials]
      rfl
    rw [text, span_of_all stays]
    rfl
  | some given =>
    have text : authority.text = given.inner ++ '@' :: authority.place := by
      rw [Authority.text, credentials, Option.elim_some, Credentials.text_eq, List.append_assoc,
        List.append_assoc]
      rfl
    rw [text, List.reverse_append, List.reverse_cons, List.append_assoc, List.singleton_append,
      span_of_stop stays (by decide)]
    dsimp only
    rw [List.reverse_reverse, List.reverse_reverse, Option.map_some]

theorem portOf_nil : portOf [] = .ok none :=
  rfl

theorem portOf_decimalDigits {port : Nat} (small : port ≤ 65535) :
    portOf (decimalDigits port) = .ok (some port) := by
  have present : (decimalDigits port).isEmpty = false := by simpa using decimalDigits_ne_nil port
  rw [portOf, valueIn?_decimalDigits]
  dsimp only
  rw [present, if_neg (by simp), if_neg (by omega)]

/-- The text of an authority is read as that authority. -/
theorem Authority.IsRead.again {kind : Kind} {authority : Authority}
    (good : authority.IsRead kind) : readAuthority kind authority.text = .ok authority := by
  have named := good.host.whole (authority.port.elim [] (':' :: decimalDigits ·))
    (by cases authority.port <;> simp)
  -- The credentials come back one by one, then the host, then the port.
  have known : (authority.credentials.map Credentials.inner).bind credentialsOf =
      authority.credentials := by
    cases credentials : authority.credentials with
    | none => rfl
    | some given => exact (good.credentials given credentials).again
  unfold readAuthority
  rw [good.splitCredentials]
  dsimp only [Authority.place]
  rw [named, good.host.again, known]
  obtain ⟨credentials, host, port⟩ := authority
  cases port with
  | none =>
    dsimp only [bind, Except.bind, Option.elim_none]
    rw [List.drop_nil, portOf_nil]
    dsimp only
    rw [ite_self]
  | some port =>
    obtain ⟨small, other⟩ := good.port port rfl
    dsimp only [bind, Except.bind, Option.elim_some]
    rw [List.drop_one, List.tail_cons, portOf_decimalDigits small]
    dsimp only
    rw [Option.getD_some, if_neg other]

/-- The text of an authority is plain, and there is some. -/
theorem Authority.IsRead.plain {kind : Kind} {authority : Authority}
    (good : authority.IsRead kind) :
    authority.text ≠ [] ∧ ∀ c ∈ authority.text, isAuthorityChar c = true := by
  refine ⟨fun empty => ?_, fun c member => ?_⟩
  · simp only [Authority.text, List.append_eq_nil_iff] at empty
    exact good.host.present empty.1.2
  · rw [Authority.text, List.append_assoc, List.mem_append] at member
    rcases member with credentials | place
    · cases given : authority.credentials with
      -- Credentials are written with an at sign at their end.
      | none => simp [given] at credentials
      | some known =>
        rw [given, Option.elim_some, Credentials.text_eq, List.mem_append, List.mem_singleton]
          at credentials
        rcases credentials with inner | rfl
        · exact ((good.credentials known given).plain c inner).1
        · decide
    · exact (good.place_plain c place).1

/-! No authority ends in a control or a space. -/

theorem splitCredentials_concat {c : Char} (other : c ≠ '@') (text : List Char) :
    ∃ rest, (Url.splitCredentials (text ++ [c])).2 = rest ++ [c] := by
  unfold Url.splitCredentials
  rw [List.span_eq_takeWhile_dropWhile, List.reverse_concat,
    List.takeWhile_cons_of_pos (by simpa using other)]
  split
  · exact ⟨text, rfl⟩
  · rename_i after _ _ same
    simp only [Prod.mk.injEq] at same
    -- The text is searched from behind, where the character comes first.
    rw [← same.1, List.reverse_cons]
    exact ⟨_, rfl⟩

/-- What follows a host begins with a colon. -/
theorem splitHost_snd (inBrackets : Bool) (text : List Char) :
    (splitHost inBrackets text).2 = [] ∨ ∃ port, (splitHost inBrackets text).2 = ':' :: port := by
  induction text generalizing inBrackets with
  | nil => exact .inl rfl
  | cons c text ih =>
    rw [splitHost]
    split
    · rename_i colon
      -- The host ends where a port begins, or not at all.
      exact .inr ⟨text, by rw [colon.1]⟩
    · exact ih _

theorem parseDomain_concat {c : Char} (low : c.toNat ≤ 0x20) (text : List Char) (host : Host) :
    parseDomain (text ++ [c]) ≠ .ok host := by
  intro read
  -- What begins with a bracket has to end in one, and anything else holds no such character.
  by_cases bracketed : ∃ inner, text ++ [c] = '[' :: inner
  · obtain ⟨inner, same⟩ := bracketed
    rw [same, parseDomain, parseBracketed] at read
    split at read
    · rename_i closed
      have last := congrArg List.getLast? same
      rw [List.getLast?_concat, List.getLast?_cons, closed, Option.getD_some, Option.some.injEq]
        at last
      rw [last] at low
      revert low
      decide
    · simp at read
  · have visible := visible_of_parseDomain read (fun inner same => bracketed ⟨inner, same⟩) c
      (List.mem_append_right _ (List.mem_singleton_self c))
    omega

theorem valueIn?_eq_none {base : Nat} {digits : List Char} {c : Char} (member : c ∈ digits)
    (other : hexValue? c = none) : valueIn? base digits = none := by
  -- The reading stops at the character, whatever came before.
  obtain ⟨before, after, rfl⟩ := List.append_of_mem member
  rw [valueIn?, List.foldlM_append]
  cases before.foldlM (fun total c => do
    let digit ← hexValue? c
    if digit < base then some (total * base + digit) else none) 0 with
  | none => rfl
  | some total => simp [List.foldlM_cons, other]

theorem readAuthority_concat {kind : Kind} {c : Char} (low : c.toNat ≤ 0x20) (text : List Char)
    (authority : Authority) : readAuthority kind (text ++ [c]) ≠ .ok authority := by
  intro read
  -- It neither ends the credentials nor begins the port, and is no digit.
  have others : c ≠ '@' ∧ c ≠ ':' ∧ hexValue? c = none := by
    revert low
    exact fun low => @forall_ascii (fun c => c.toNat ≤ 0x20 →
      c ≠ '@' ∧ c ≠ ':' ∧ hexValue? c = none) (by decide +kernel) c (by omega) low
  obtain ⟨rest, behind⟩ := splitCredentials_concat others.1 text
  unfold readAuthority at read
  generalize Url.splitCredentials (text ++ [c]) = parts at behind read
  obtain ⟨credentials, place⟩ := parts
  dsimp only at behind read
  subst behind
  have whole := splitHost_append false (rest ++ [c])
  have port := splitHost_snd false (rest ++ [c])
  generalize splitHost false (rest ++ [c]) = parts at whole port read
  obtain ⟨name, port'⟩ := parts
  dsimp only at whole port read
  obtain ⟨host, named, read⟩ := exists_ok_of_bind read
  obtain ⟨number, numbered, read⟩ := exists_ok_of_bind read
  rcases port with rfl | ⟨digits, rfl⟩
  · -- The character is the last of the host.
    rw [List.append_nil] at whole
    rw [whole] at named
    exact parseDomain_concat low rest host named
  · -- The character is the last of the port, and no digit.
    have last := congrArg List.getLast? whole
    rw [List.getLast?_concat, List.getLast?_append, List.getLast?_cons] at last
    have inside : c ∈ digits := by
      cases ending : digits.getLast? with
      | none =>
        simp only [ending, Option.getD_none, Option.some_or, Option.some.injEq] at last
        exact absurd last.symm others.2.1
      | some d =>
        simp only [ending, Option.getD_some, Option.some_or, Option.some.injEq] at last
        exact last ▸ List.mem_of_getLast? ending
    rw [List.drop_one, List.tail_cons, portOf, valueIn?_eq_none inside others.2.2] at numbered
    simp at numbered

end MergeNotes.Url
