import MergeNotes.Proofs.Decoration.Selected

/-! What can be read of the forms that are posted: the fields that were meant, whatever these hold,
and of a comment on a line the number of the line. -/

namespace MergeNotes

variable {before between after : Line} {address : String} {fields : List (String × String)}

/-- A request posts fields: its body is written in the characters of forms, and is read as exactly
these fields, in their order. -/
structure Request.Posts (request : Request) (fields : List (String × String)) : Prop where
  method : request.method = .post
  plain : ∀ c ∈ request.body.toList, Form.isFormChar c = true
  read : Form.decode request.body.toList = fields

/-- Between two states of a line, fields were posted to an address: where a request for it arrives,
there was one, and nothing else was sent. -/
def Line.Posted (before after : Line) (address : String) (fields : List (String × String)) : Prop :=
  ∃ sent : Option Request, after.requests = before.requests ++ sent.toList ∧
    (sent.isSome = true ↔
      ∃ url, requestUrl address = .ok url ∧ before.reach.connects url = true) ∧
    ∀ request ∈ sent, request.Posts fields

/-- The request for a form posts its fields. -/
theorem Request.posts_requestFor (token : Token) (url : Url) (form : Comment) :
    (requestFor token .post url (some form)).Posts form.fields := by
  have body : (requestFor token .post url (some form)).body.toList = Form.encode form.fields :=
    String.toList_ofList
  refine ⟨rfl, ?_, ?_⟩
  · rw [body]
    intro c member
    exact Form.isFormChar_of_mem_encode member
  · rw [body, Form.decode_encode]

/-- A form that is sent is posted, whatever becomes of the answer. -/
theorem posted_exchange (token : Token) (address : String) (form : Comment) (before : Line) :
    before.Posted ((exchange token .post address (some form)).run before).2 address
      form.fields := by
  rw [run_exchange]
  cases asked : requestUrl address with
  | error failure => exact ⟨none, by simp, by simp [asked], by simp⟩
  | ok url =>
    dsimp only
    cases reached : before.reach.connects url with
    | false => exact ⟨none, by simp, by simp [asked, reached], by simp⟩
    | true =>
      -- The request is on the line however the reply is received.
      have sent : before.Posted (before.sent (requestFor token .post url (some form))) address
          form.fields := by
        refine ⟨some (requestFor token .post url (some form)), rfl, by simp [asked, reached], ?_⟩
        intro request same
        rw [← Option.some.inj same]
        exact Request.posts_requestFor token url form
      rw [if_pos rfl]
      cases before.reply.receive url with
      | error failure => exact sent
      | ok answer => exact sent

/-- Notes on both sides of a post change nothing about it. -/
theorem Line.Posted.of_quiet {start last : Line} (posted : start.Posted last address fields)
    (ahead : before.Quiet start) (behind : last.Quiet after) :
    before.Posted after address fields := by
  obtain ⟨sent, requests, arrives, posts⟩ := posted
  refine ⟨sent, ?_, ?_, posts⟩
  · rw [behind.requests, requests, ahead.requests]
  · rw [arrives, ahead.reach]

/-- Posting a comment posts its fields. -/
theorem posted_postComment (token : Token) (address : String) (comment : Comment) (before : Line) :
    before.Posted ((postComment token address comment).run before).2 address comment.fields := by
  let event : Event :=
    .postingComment address (comment.get? "position[new_path]") (comment.get? "position[new_line]")
  have posted := posted_exchange token address comment (before.noted event)
  have ahead := before.quiet_noted event
  rw [postComment, Run.run_note_bind, Run.run_bind]
  rcases exchanged : (exchange token .post address (some comment)).run (before.noted event) with
    ⟨failure | answer, between⟩
  · rw [exchanged] at posted
    exact posted.of_quiet ahead between.quiet_refl
  · rw [exchanged] at posted
    apply posted.of_quiet ahead
    -- What follows the exchange is a test of the status, which takes notes alone.
    simp only [Run.run_bind, run_requireStatus]
    by_cases good : answer.status = 201
    · rw [if_pos good]
      exact between.quiet_noted _
    · rw [if_neg good]
      exact between.quiet_noted _

/-- The number that a text consists of, in decimal digits. -/
def decimalNumber? (text : String) : Option Nat :=
  if text ≠ "" && text.toList.all (·.isDigit) then some (Nat.ofDigitChars 10 text.toList 0)
  else none

/-- A number that was written is read. -/
theorem decimalNumber?_decimal (n : Nat) : decimalNumber? (decimal n) = some n := by
  have digits : (decimal n).toList = decimalDigits n := String.toList_ofList
  have present : decimal n ≠ "" := by
    intro empty
    rw [empty] at digits
    exact Url.decimalDigits_ne_nil n digits.symm
  rw [decimalNumber?, if_pos, digits, Url.decimalDigits_eq, Nat.ofDigitChars_ten_toDigits]
  rw [Bool.and_eq_true, decide_eq_true_eq, digits, List.all_eq_true]
  exact ⟨present, fun c member => Url.isDigit_of_mem_decimalDigits member⟩

/-- An issue that gets a comment has a place, and the comment is the one on it. -/
theorem Report.isOn_of_decision {report : Report} {commits : CommitSet}
    {mergeRequest : MergeRequest} {issue : Issue} {comment : Comment}
    (decided : report.decision commits mergeRequest issue = .ok (.comment comment)) :
    comment.IsOn mergeRequest.refs issue := by
  by_cases qualifies : report.qualifies commits issue
  · obtain ⟨path, line, hasPath, hasLine, made⟩ := decision_of_qualifies mergeRequest qualifies
    rw [made] at decided
    rcases inlineComment_cases mergeRequest hasPath hasLine with
      ⟨_, failure, _, refused, _⟩ | ⟨other, _, complete, isOn⟩
    · rw [refused] at decided
      cases decided
    · rw [complete] at decided
      cases decided
      exact isOn
  · -- An issue that is passed over gets none.
    obtain ⟨decision, made, added⟩ := decision_of_not_qualifies mergeRequest qualifies
    rw [made, Except.ok.injEq] at decided
    subst decided
    have counted := congrArg Selection.comments (added ⟨[], 0⟩)
    cases counted

/-- What is posted can be read as it was meant. Whatever the fields of a form hold, the request that
is sent for it is written in letters, digits and eight signs alone, and is read as exactly these
fields. So the comment on an issue is read as seven fields: the body of the issue, the three commits
of the diff, the path, the line as a decimal number, and the kind of position. -/
theorem posts_read_back :
    (∀ token address fields (before : Line),
      before.Posted ((exchange token .post address (some ⟨fields⟩)).run before).2 address
        fields) ∧
      ∀ (report : Report) commits mergeRequest issue comment,
        report.decision commits mergeRequest issue = .ok (.comment comment) →
        ∃ base start head path line number,
          mergeRequest.refs = ⟨some base, some start, some head⟩ ∧ issue.path = some path ∧
            issue.line = some line ∧ decimalNumber? number = some line.toNat ∧
            ∀ token address (before : Line),
              before.Posted ((postComment token address comment).run before).2 address
                [("body", issue.body), ("position[base_sha]", base),
                  ("position[start_sha]", start), ("position[head_sha]", head),
                  ("position[new_path]", path), ("position[new_line]", number),
                  ("position[position_type]", "text")] := by
  constructor
  · intro token address fields before
    exact posted_exchange token address ⟨fields⟩ before
  · intro report commits mergeRequest issue comment decided
    obtain ⟨base, start, head, path, line, refs, hasPath, hasLine, fields⟩ :=
      Report.isOn_of_decision decided
    refine ⟨base, start, head, path, line, decimal line.toNat, refs, hasPath, hasLine,
      decimalNumber?_decimal line.toNat, ?_⟩
    intro token address before
    rw [← fields]
    exact posted_postComment token address comment before

/-- An issue in whose comment all that is special in a form has to be written out. -/
def markedIssue : Issue :=
  ⟨"a", some "a.c", some 42, .opened, none, "m", some "a=b&c+d%25 é\r\n"⟩

/-- The report with that issue, on a line that is known. -/
def reportWithMarks : Report where
  commit := "c"
  mergeRequestId := "1"
  projectKey := "k"
  properties := .empty
  gate := .failed
  conditions := []
  issues := [markedIssue]
  blame := .ofList [("a", .ofList [(42, "c")])]
  summary := none

/-- The comment on that issue is posted with its body as it is. -/
theorem posts_read_back_marked :
    ∃ comment number,
      reportWithMarks.decision (.ofList ["c"]) ⟨7, none, none, some ⟨some "b", some "s", some "h"⟩⟩
        markedIssue = .ok (.comment comment) ∧
      decimalNumber? number = some 42 ∧
      ∀ token address (before : Line),
        before.Posted ((postComment token address comment).run before).2 address
          [("body", "a=b&c+d%25 é\r\n"), ("position[base_sha]", "b"), ("position[start_sha]", "s"),
            ("position[head_sha]", "h"), ("position[new_path]", "a.c"),
            ("position[new_line]", number), ("position[position_type]", "text")] := by
  have decided : reportWithMarks.decision (.ofList ["c"])
      ⟨7, none, none, some ⟨some "b", some "s", some "h"⟩⟩ markedIssue =
        .ok (.comment ⟨[("body", "a=b&c+d%25 é\r\n"), ("position[base_sha]", "b"),
          ("position[start_sha]", "s"), ("position[head_sha]", "h"),
          ("position[new_path]", "a.c"), ("position[new_line]", "42"),
          ("position[position_type]", "text")]⟩) := by
    decide +kernel
  obtain ⟨base, start, head, path, line, number, refs, hasPath, hasLine, read, posted⟩ :=
    posts_read_back.2 _ _ _ _ _ decided
  cases refs
  cases hasPath
  cases hasLine
  exact ⟨_, number, decided, read, posted⟩

end MergeNotes
