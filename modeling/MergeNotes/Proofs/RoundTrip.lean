import MergeNotes.MergeRequest
import MergeNotes.Proofs.Json.Records
import MergeNotes.Report

/-! Reports and merge requests survive being written as JSON and read again. -/

namespace MergeNotes

open Json (Format Value)

namespace Json.Format

variable {α : Type} {format : Format α} {a : α} {value : Value}

/-- What is kept is read from the text that was written of it. -/
theorem Keeps.readText (keeps : format.Keeps nestingLimit a)
    (same : value.Rearranges (format.encode a)) : format.readText value.text = .ok a := by
  rw [Format.readText, bytes_text]
  exact readWhole_of_reads (keeps.reads same)

/-- What is kept is decoded by way of the value of that text. -/
theorem Keeps.decodeLenient (keeps : format.Keeps nestingLimit a)
    (same : value.Rearranges (format.encode a)) : format.decodeLenient value.text = .ok a := by
  obtain ⟨found, parsed, again⟩ := exists_parse_text same keeps.readable
  simp only [Format.decodeLenient, parsed, keeps.decodes again, bind, Except.bind]

end Json.Format

theorem Gate.keeps (depth : Nat) (gate : Gate) : Gate.format.Keeps depth gate :=
  Format.keeps_choice (fun gate => by cases gate <;> rfl) depth gate

theorem Evaluation.keeps (depth : Nat) (evaluation : Evaluation) :
    Evaluation.format.Keeps depth evaluation :=
  Format.keeps_choice (fun evaluation => by cases evaluation <;> rfl) depth evaluation

theorem IssueStatus.keeps (depth : Nat) (status : IssueStatus) :
    IssueStatus.format.Keeps depth status :=
  Format.keeps_choice (fun status => by cases status <;> rfl) depth status

/-- A string may be absent. -/
theorem keeps_text? (depth : Nat) (text : Option String) :
    (Format.option .string).Keeps depth text :=
  Format.keeps_option (Format.keeps_string depth) (fun _ => nofun) text

theorem Condition.keeps (depth : Nat) (condition : Condition) :
    Condition.format.Keeps (depth + 1) condition :=
  Format.keeps_record "Condition" (by decide)
    ⟨Format.keeps_string _ _, Evaluation.keeps _ _, keeps_text? _ _, trivial⟩ rfl

theorem Issue.keeps (depth : Nat) (issue : Issue) : Issue.format.Keeps (depth + 1) issue :=
  Format.keeps_record "ComponentIssue" (by decide)
    ⟨Format.keeps_string _ _, keeps_text? _ _,
      Format.keeps_option (Format.keeps_u32 _) (fun _ => nofun) _, IssueStatus.keeps _ _,
      keeps_text? _ _, Format.keeps_string _ _, keeps_text? _ _, trivial⟩ rfl

/-- A report is kept where arrays and objects may be nested three deep. -/
theorem Report.keeps (depth : Nat) (report : Report) : Report.format.Keeps (depth + 3) report := by
  -- The blame is nested deepest: a map of maps inside the report.
  have properties := Format.keeps_dict Json.KeyFormat.keeps_string
    (Format.keeps_string (depth + 1)) report.properties
  have conditions := Format.keeps_list (Condition.keeps depth) report.conditions
  have issues := Format.keeps_list (Issue.keeps depth) report.issues
  have blame := Format.keeps_dict Json.KeyFormat.keeps_string
    (Format.keeps_dict Json.KeyFormat.keeps_u32 (Format.keeps_string depth)) report.blame
  exact Format.keeps_record "AnalysisReport" (by decide)
    ⟨Format.keeps_string _ _, Format.keeps_string _ _, Format.keeps_string _ _, properties,
      Gate.keeps _ _, conditions, issues, blame, keeps_text? _ _, trivial⟩ rfl

theorem DiffRefs.keeps (depth : Nat) (refs : DiffRefs) : DiffRefs.format.Keeps (depth + 1) refs :=
  Format.keeps_record "DiffRefs" (by decide)
    ⟨keeps_text? _ _, keeps_text? _ _, keeps_text? _ _, trivial⟩ rfl

/-- A merge request is kept where objects may be nested two deep. -/
theorem MergeRequest.keeps (depth : Nat) (mergeRequest : MergeRequest) :
    MergeRequest.format.Keeps (depth + 2) mergeRequest := by
  have refs := Format.keeps_option (DiffRefs.keeps depth) (fun _ => nofun) mergeRequest.diffRefs
  exact Format.keeps_record "MergeRequestRef" (by decide)
    ⟨Format.keeps_u64 _ _, keeps_text? _ _, keeps_text? _ _, refs, trivial⟩ rfl

/-- Whatever report or merge request is written as JSON, in whatever order its objects hold their
members, reading the text yields it again, at once or by way of the value of the text. -/
theorem documents_round_trip :
    (∀ (report : Report) (value : Value), value.Rearranges (Report.format.encode report) →
      Report.format.readText value.text = .ok report ∧
        Report.format.decodeLenient value.text = .ok report) ∧
    ∀ (mergeRequest : MergeRequest) (value : Value),
      value.Rearranges (MergeRequest.format.encode mergeRequest) →
        MergeRequest.format.readText value.text = .ok mergeRequest ∧
          MergeRequest.format.decodeLenient value.text = .ok mergeRequest :=
  -- The readers allow 127 levels, of which a report takes three and a merge request two.
  ⟨fun report _ same => ⟨(Report.keeps 124 report).readText same,
      (Report.keeps 124 report).decodeLenient same⟩,
    fun mergeRequest _ same => ⟨(MergeRequest.keeps 125 mergeRequest).readText same,
      (MergeRequest.keeps 125 mergeRequest).decodeLenient same⟩⟩

/-- A report with a condition without value, an open issue, and the blame of two lines. -/
def blamedReport : Report where
  commit := "c0ffee"
  mergeRequestId := "7"
  projectKey := "a\"b\\c\n\x01\u00e9"
  properties := .ofList [("gitlab.api.url", "http://gitlab/api/v4")]
  gate := .failed
  conditions := [⟨"coverage", .noValue, none⟩]
  issues := [⟨"lib", some "src/lib.rs", some 10, .toReview, none, "m", none⟩]
  blame := .ofList [("lib", .ofList [(2, "d0d0"), (10, "c0ffee")])]
  summary := none

/-- A merge request whose diff is not known yet. -/
def freshMergeRequest : MergeRequest :=
  ⟨UInt64.ofNat (UInt64.size - 1), some "\u00e9", none, some ⟨none, none, none⟩⟩

/-- The value with the members of its outermost object in reverse. -/
def reversed : Value → Value
  | .object members => .object members.reverse
  | value => value

theorem rearranges_reversed (value : Value) : (reversed value).Rearranges value := by
  cases value with
  | object members =>
    exact Json.rearranges_object_iff.2 ⟨members.reverse,
      List.forall₂_same.2 fun member _ => ⟨rfl, .refl member.2⟩, List.reverse_perm members⟩
  | _ => exact .refl _

theorem documents_round_trip_reversed :
    ((reversed (Report.format.encode blamedReport)).Rearranges
        (Report.format.encode blamedReport) ∧
      Report.format.readText (reversed (Report.format.encode blamedReport)).text =
        .ok blamedReport ∧
      Report.format.decodeLenient (reversed (Report.format.encode blamedReport)).text =
        .ok blamedReport) ∧
    (reversed (MergeRequest.format.encode freshMergeRequest)).Rearranges
        (MergeRequest.format.encode freshMergeRequest) ∧
      MergeRequest.format.readText (reversed (MergeRequest.format.encode freshMergeRequest)).text =
        .ok freshMergeRequest ∧
      MergeRequest.format.decodeLenient
        (reversed (MergeRequest.format.encode freshMergeRequest)).text = .ok freshMergeRequest :=
  ⟨⟨rearranges_reversed _, documents_round_trip.1 blamedReport _ (rearranges_reversed _)⟩,
    rearranges_reversed _, documents_round_trip.2 freshMergeRequest _ (rearranges_reversed _)⟩

example : (Issue.format.encode ⟨"a\"b\\", none, some 10, .toReview, none, "\x01", none⟩).text =
    "\x7b\"component\":\"a\\\"b\\\\\",\"path\":null,\"line\":10,\"status\":\"TO_REVIEW\"," ++
    "\"severity\":null,\"message\":\"\\u0001\",\"comment\":null\x7d" := by
  decide +kernel

end MergeNotes
