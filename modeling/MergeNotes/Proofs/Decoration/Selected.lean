import MergeNotes.Proofs.Decoration.Failures

/-! Which issues are selected for a comment, what the comments say, and how many open issues are
passed over. -/

namespace MergeNotes

variable {report : Report} {commits : CommitSet} {mergeRequest : MergeRequest} {issue : Issue}

namespace DiffRefs

/-- The commits that a comment on a line is bound to, by name. -/
def named (refs : DiffRefs) : List (String × Option String) :=
  [("base_sha", refs.base), ("start_sha", refs.start), ("head_sha", refs.head)]

/-- The name of the first commit that is missing. -/
def missing? (refs : DiffRefs) : Option String :=
  (refs.named.find? (·.2.isNone)).map (·.1)

end DiffRefs

/-- The words for a merge request that lacks a commit of its diff. -/
def MergeRequest.lackOf (mergeRequest : MergeRequest) (name : String) : Failure :=
  .remote (.invalidResponse
    ("merge request !" ++ decimal mergeRequest.iid.toNat ++ " has no diff_refs." ++ name))

/-- A comment is the one on an issue at the place that the issue names. -/
def Comment.IsOn (comment : Comment) (refs : DiffRefs) (issue : Issue) : Prop :=
  ∃ base start head path line, refs = ⟨some base, some start, some head⟩ ∧
    issue.path = some path ∧ issue.line = some line ∧
    comment.fields =
      [("body", issue.body), ("position[base_sha]", base), ("position[start_sha]", start),
        ("position[head_sha]", head), ("position[new_path]", path),
        ("position[new_line]", decimal line.toNat), ("position[position_type]", "text")]

/-- An issue qualifies when it is neither closed nor resolved, and the revision that last touched
the line that it names, in a file whose path is not blank, is a commit of the merge request. -/
theorem Report.qualifies_iff :
    report.qualifies commits issue ↔ (issue.status ≠ .closed ∧ issue.status ≠ .resolved) ∧
      ∃ path line revision, issue.path = some path ∧ isBlankText path = false ∧
        issue.line = some line ∧ report.revision? issue.component line = some revision ∧
        revision ∈ commits.ids := by
  have isOpen : issue.status.isOpen = true ↔
      issue.status ≠ .closed ∧ issue.status ≠ .resolved := by
    cases issue.status <;> decide
  -- A path counts unless it is blank, and is kept as it is.
  have filePath : ∀ path, issue.filePath? = some path ↔
      issue.path = some path ∧ isBlankText path = false := by
    intro path
    rw [Issue.filePath?, Option.filter_eq_some_iff, Bool.not_eq_true']
  simp only [Report.qualifies, isOpen, filePath, CommitSet.contains, List.contains_iff_mem,
    and_assoc]

/-- The revision that last touched the line of an issue that names a file and a line. -/
def Report.revisionOf? (report : Report) (issue : Issue) : Option String :=
  issue.filePath?.bind fun _ => issue.line.bind (report.revision? issue.component)

instance (report : Report) (commits : CommitSet) :
    DecidablePred (report.qualifies commits) := fun issue =>
  decidable_of_iff
    (issue.status.isOpen = true ∧ (report.revisionOf? issue).any commits.contains = true) <| by
      simp only [Report.qualifies, Report.revisionOf?, Option.any_eq_true,
        Option.bind_eq_some_iff]
      constructor
      · rintro ⟨isOpen, revision, ⟨path, hasPath, line, hasLine, revised⟩, inside⟩
        exact ⟨isOpen, path, line, revision, hasPath, hasLine, revised, inside⟩
      · rintro ⟨isOpen, path, line, revision, hasPath, hasLine, revised, inside⟩
        exact ⟨isOpen, revision, ⟨path, hasPath, line, hasLine, revised⟩, inside⟩

/-- What a comment on a line comes to depends on the commits of the diff alone. -/
theorem inlineComment_cases (mergeRequest : MergeRequest) {path : String} {line : UInt32}
    (hasPath : issue.path = some path) (hasLine : issue.line = some line) :
    (∃ name failure, mergeRequest.refs.missing? = some name ∧
        inlineComment mergeRequest issue.body path line = .error failure ∧
        .remote failure = mergeRequest.lackOf name) ∨
      ∃ comment : Comment, mergeRequest.refs.missing? = none ∧
        inlineComment mergeRequest issue.body path line = .ok comment ∧
        comment.IsOn mergeRequest.refs issue := by
  unfold inlineComment
  generalize mergeRequest.refs = refs
  obtain ⟨base, start, head⟩ := refs
  -- The commits are required in the order in which they are named.
  rcases base with _ | base
  · exact .inl ⟨"base_sha", _, rfl, rfl, rfl⟩
  rcases start with _ | start
  · exact .inl ⟨"start_sha", _, rfl, rfl, rfl⟩
  rcases head with _ | head
  · exact .inl ⟨"head_sha", _, rfl, rfl, rfl⟩
  exact .inr ⟨_, rfl, rfl, base, start, head, path, line, rfl, hasPath, hasLine, rfl⟩

/-- An issue that qualifies gets its comment, if the merge request allows for it. -/
theorem Report.decision_of_qualifies (mergeRequest : MergeRequest)
    (qualifies : report.qualifies commits issue) :
    ∃ path line, issue.path = some path ∧ issue.line = some line ∧
      report.decision commits mergeRequest issue =
        (inlineComment mergeRequest issue.body path line).map .comment := by
  obtain ⟨isOpen, path, line, revision, hasPath, hasLine, revised, inside⟩ := qualifies
  refine ⟨path, line, (Option.filter_eq_some_iff.1 hasPath).1, hasLine, ?_⟩
  -- None of the four tests stops it.
  simp only [Report.decision, isOpen, Bool.not_true, Bool.false_eq_true, if_false, hasPath, hasLine,
    revised, inside, if_true]

/-- An issue that does not qualify is passed over, and counts if it is open. -/
theorem Report.decision_of_not_qualifies (mergeRequest : MergeRequest)
    (other : ¬ report.qualifies commits issue) :
    ∃ decision, report.decision commits mergeRequest issue = .ok decision ∧
      ∀ selection : Selection, selection.add decision =
        ⟨selection.comments, (if issue.status.isOpen then 1 else 0) + selection.skipped⟩ := by
  unfold Report.decision
  cases isOpen : issue.status.isOpen with
  | false => exact ⟨.notOpen, rfl, fun selection => by simp [Selection.add]⟩
  | true =>
    -- Each other way to be passed over counts once.
    have counts : ∀ {decision : Decision}, (∃ path line revision, decision = .noLocation ∨
        decision = .noBlame path line ∨ decision = .outside path line revision) →
        ∀ selection : Selection, selection.add decision =
          ⟨selection.comments, (if true then 1 else 0) + selection.skipped⟩ := by
      rintro decision ⟨path, line, revision, rfl | rfl | rfl⟩ selection <;>
        simp [Selection.add, Nat.add_comm]
    simp only [Bool.not_true, Bool.false_eq_true, if_false]
    rcases hasPath : issue.filePath? with _ | path
    · exact ⟨.noLocation, rfl, counts ⟨"", 0, "", .inl rfl⟩⟩
    rcases hasLine : issue.line with _ | line
    · exact ⟨.noLocation, rfl, counts ⟨"", 0, "", .inl rfl⟩⟩
    dsimp only
    cases revised : report.revision? issue.component line with
    | none => exact ⟨.noBlame path line, rfl, counts ⟨path, line, "", .inr (.inl rfl)⟩⟩
    | some revision =>
      -- Were the revision a commit of the merge request, the issue would qualify.
      have outside : commits.contains revision = false := Bool.eq_false_iff.2 fun inside =>
        other ⟨isOpen, path, line, revision, hasPath, hasLine, revised, inside⟩
      simp only [outside, Bool.false_eq_true, if_false]
      exact ⟨.outside path line revision, rfl, counts ⟨path, line, revision, .inr (.inr rfl)⟩⟩

/-- A selection from a list of issues is what it should be: it fails exactly when one of them
qualifies and the merge request lacks a commit of its diff; else there is one comment for each issue
that qualifies, in their order, and the other open issues are counted. -/
def Report.Selects (report : Report) (commits : CommitSet) (mergeRequest : MergeRequest)
    (issues : List Issue) : Except Failure Selection → Prop
  | .error failure =>
    (∃ issue ∈ issues, report.qualifies commits issue) ∧
      ∃ name, mergeRequest.refs.missing? = some name ∧ failure = mergeRequest.lackOf name
  | .ok selection =>
    ((∃ issue ∈ issues, report.qualifies commits issue) → mergeRequest.refs.missing? = none) ∧
      List.Forall₂ (fun issue comment => comment.IsOn mergeRequest.refs issue)
        (issues.filter (report.qualifies commits ·)) selection.comments ∧
      selection.skipped = issues.countP fun issue =>
        issue.status.isOpen && !decide (report.qualifies commits issue)

/-- The selection from more issues, the first of which is decided on. -/
theorem Report.Selects.cons (issue : Issue) {issues : List Issue}
    {selected : Except RemoteFailure Selection}
    (rest : report.Selects commits mergeRequest issues (selected.mapError .remote)) :
    report.Selects commits mergeRequest (issue :: issues)
      ((do
        let decision ← report.decision commits mergeRequest issue
        let selection ← selected
        pure (selection.add decision)).mapError .remote) := by
  by_cases qualifies : report.qualifies commits issue
  · obtain ⟨path, line, hasPath, hasLine, decided⟩ := decision_of_qualifies mergeRequest qualifies
    have present : ∃ other ∈ issue :: issues, report.qualifies commits other :=
      ⟨issue, List.mem_cons_self, qualifies⟩
    rw [decided]
    rcases inlineComment_cases mergeRequest hasPath hasLine with
      ⟨name, failure, missing, refused, said⟩ | ⟨comment, complete, made, isOn⟩
    · -- The first issue fails, whatever becomes of the others.
      rw [refused]
      exact ⟨present, name, missing, said⟩
    · rw [made]
      cases selected with
      | error failure =>
        obtain ⟨_, name, missing, said⟩ := rest
        exact ⟨present, name, missing, said⟩
      | ok selection =>
        obtain ⟨_, comments, skipped⟩ := rest
        refine ⟨fun _ => complete, ?_, ?_⟩
        · -- Its comment comes in front of those on the others.
          rw [List.filter_cons_of_pos (by simpa using qualifies)]
          exact .cons isOn comments
        · rw [List.countP_cons_of_neg (by simp [qualifies])]
          exact skipped
  · obtain ⟨decision, decided, added⟩ := decision_of_not_qualifies mergeRequest qualifies
    -- Only among the others can an issue qualify.
    have others : (∃ other ∈ issue :: issues, report.qualifies commits other) ↔
        ∃ other ∈ issues, report.qualifies commits other := by
      simp [qualifies]
    rw [decided]
    cases selected with
    | error failure =>
      obtain ⟨present, lacks⟩ := rest
      exact ⟨others.2 present, lacks⟩
    | ok selection =>
      obtain ⟨complete, comments, skipped⟩ := rest
      show report.Selects commits mergeRequest (issue :: issues) (.ok (selection.add decision))
      rw [added]
      refine ⟨fun present => complete (others.1 present), ?_, ?_⟩
      · rw [List.filter_cons_of_neg (by simpa using qualifies)]
        exact comments
      · rw [skipped, List.countP_cons, Nat.add_comm]
        simp [qualifies]

/-- Deciding on all issues selects from them. -/
theorem Report.selects_of_decisions (issues : List Issue) :
    report.Selects commits mergeRequest issues
      (((issues.mapM (report.decision commits mergeRequest)).map
        (·.foldr Selection.add ⟨[], 0⟩)).mapError .remote) := by
  induction issues with
  | nil => exact ⟨fun ⟨_, member, _⟩ => absurd member List.not_mem_nil, .nil, rfl⟩
  | cons issue issues ih =>
    have step := Report.Selects.cons issue ih
    rw [List.mapM_cons]
    -- What is decided first is added last.
    cases decided : report.decision commits mergeRequest issue with
    | error failure =>
      rw [decided] at step
      exact step
    | ok decision =>
      rw [decided] at step
      cases others : issues.mapM (report.decision commits mergeRequest) with
      | error failure =>
        rw [others] at step
        exact step
      | ok decisions =>
        rw [others] at step
        exact step

/-- What is selected of a report, whatever passed on the line before: the issues that qualify, which
are those that are neither closed nor resolved and lie in a file with a path on a line whose last
revision is among the commits, get one comment each in the order of the report; the other open ones
are counted; and where an issue qualifies but the merge request lacks a commit of its diff, the
first commit that is missing is named instead. -/
theorem Report.select_exact (report : Report) (commits : CommitSet) (mergeRequest : MergeRequest)
    (before : Line) :
    (∀ issue, report.qualifies commits issue ↔
      (issue.status ≠ .closed ∧ issue.status ≠ .resolved) ∧
        ∃ path line revision, issue.path = some path ∧ isBlankText path = false ∧
          issue.line = some line ∧ report.revision? issue.component line = some revision ∧
          revision ∈ commits.ids) ∧
      match ((report.select commits mergeRequest).run before).1 with
      | .error failure =>
        (∃ issue ∈ report.issues, report.qualifies commits issue) ∧
          ∃ name, mergeRequest.refs.missing? = some name ∧ failure = mergeRequest.lackOf name
      | .ok selection =>
        ((∃ issue ∈ report.issues, report.qualifies commits issue) →
            mergeRequest.refs.missing? = none) ∧
          List.Forall₂ (fun issue comment => comment.IsOn mergeRequest.refs issue)
            (report.issues.filter (report.qualifies commits ·)) selection.comments ∧
          selection.skipped = report.issues.countP fun issue =>
            issue.status.isOpen && !decide (report.qualifies commits issue) := by
  refine ⟨fun issue => Report.qualifies_iff, ?_⟩
  obtain ⟨after, _, run⟩ := run_select report commits mergeRequest before
  rw [run, Report.selection_eq]
  exact Report.selects_of_decisions report.issues

end MergeNotes
