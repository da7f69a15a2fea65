import MergeNotes.Proofs.Text.Form
import MergeNotes.Proofs.Url.Changed
import MergeNotes.Status

/-! What the address of a build status says: it is read as the fields of the status behind whatever
the address said before, and the page that it leads to is read as the analysis that it is about. -/

namespace MergeNotes

/-- The pairs in the query of a URL. -/
def Url.queryPairs (url : Url) : List (String × String) :=
  Form.decode (url.query.getD [])

/-- Pairs that are added to a query come behind those that it has. -/
theorem Url.queryPairs_addQuery (url : Url) (pairs : List (String × String)) :
    (url.addQuery (Form.encode pairs)).queryPairs = url.queryPairs ++ pairs := by
  rw [Url.queryPairs, Url.addQuery, Option.getD_some, Url.queryPairs]
  -- An ampersand separates the new pairs from the old ones, where there are any.
  cases url.query with
  | none => rw [Form.decode_encode, Option.getD_none, Form.decode_nil, List.nil_append]
  | some query =>
    cases query with
    | nil => rw [Form.decode_encode, Option.getD_some, Form.decode_nil, List.nil_append]
    | cons c query => rw [Option.getD_some, Form.decode_append, Form.decode_encode]

namespace BuildStatus

variable {status : BuildStatus} {text : String} {url : Url}

/-- The address of a status is that of the URL, with the fields of the status behind what its query
says. -/
theorem exists_asked (read : Url.parse text = .ok url)
    (web : url.scheme = "http".toList ∨ url.scheme = "https".toList) :
    ∃ address asked, status.address text = .ok address ∧ Url.parse address = .ok asked ∧
      asked.scheme = url.scheme ∧ asked.authority = url.authority ∧ asked.path = url.path ∧
      asked.fragment = url.fragment ∧ asked.queryPairs = url.queryPairs ++ status.fields := by
  obtain ⟨_, good⟩ := Url.isRead_of_parse read (Url.isWeb_of_scheme read web)
  have again := (good.addQuery (@Form.isQueryChar_of_mem_encode status.fields)).again
  exact ⟨_, _, by rw [BuildStatus.address, read], again, rfl, rfl, rfl, rfl,
    url.queryPairs_addQuery status.fields⟩

end BuildStatus

/-- Behind the last question mark, the page about a merge request is read as the keys of its
project and of itself. -/
theorem exists_dashboard_query (root projectKey mergeRequestId : String) :
    ∃ behind,
      (dashboardUrl root projectKey mergeRequestId).toList =
        (withoutTrailingSlashes root).toList ++ "/dashboard".toList ++ '?' :: behind ∧
      '?' ∉ behind ∧
      Form.decode behind = [("id", projectKey), ("pullRequest", mergeRequestId)] := by
  have question : ∀ text : String, '?' ∉ (Percent.component text).toList :=
    Percent.not_mem_component (by decide) (by decide)
  refine ⟨("id".toList ++ '=' :: (Percent.component projectKey).toList) ++
    '&' :: ("pullRequest".toList ++ '=' :: (Percent.component mergeRequestId).toList), ?_, ?_, ?_⟩
  · simp [dashboardUrl, String.toList_append]
  · simp [question projectKey, question mergeRequestId]
  · rw [Form.decode_append, Form.decode_component (by decide), Form.decode_component (by decide),
      List.singleton_append]

/-- The first condition on a metric is the one that has none on it before. -/
theorem Report.condition?_eq {report : Report} {condition : Condition}
    {earlier later : List Condition} {metricKey : String}
    (conditions : report.conditions = earlier ++ condition :: later)
    (first : ∀ other ∈ earlier, other.metricKey ≠ metricKey)
    (named : condition.metricKey = metricKey) : report.condition? metricKey = some condition := by
  have passed : (earlier.find? (·.metricKey == metricKey)) = none :=
    List.find?_eq_none.2 fun other member => by simpa using first other member
  rw [Report.condition?, conditions, List.find?_append, passed, Option.none_or, List.find?_cons_of_pos]
  simpa using named

/-- The coverage is the literal value of the condition, or zero where there is none to report. -/
theorem Condition.coverage_eq (condition : Condition) :
    condition.coverage =
      if condition.status = .noValue then "0" else condition.value.getD "0" := by
  obtain ⟨_, status, value⟩ := condition
  cases status <;> cases value <;> rfl

/-- Whatever is asked at the address of a status already, the address says in addition what the
status is, and nothing else about it changes: the verdict, the coverage of the first condition on
it, and the page of the dashboard, which in turn says which project and merge request it is about,
whatever characters their keys are made of. -/
theorem BuildStatus.address_says {report : Report} {condition : Condition}
    {earlier later : List Condition} (conditions : report.conditions = earlier ++ condition :: later)
    (first : ∀ other ∈ earlier, other.metricKey ≠ "new_coverage")
    (named : condition.metricKey = "new_coverage") {text : String} {url : Url}
    (read : Url.parse text = .ok url)
    (web : url.scheme = "http".toList ∨ url.scheme = "https".toList) (root : String) :
    ∃ status address asked,
      BuildStatus.ofReport report root = .ok status ∧ status.address text = .ok address ∧
      Url.parse address = .ok asked ∧
      asked.scheme = url.scheme ∧ asked.authority = url.authority ∧ asked.path = url.path ∧
      asked.fragment = url.fragment ∧
      asked.queryPairs = url.queryPairs ++
        [("name", "SonarQube"),
          ("state", if report.gate = .passed then "success" else "failed"),
          ("target_url", dashboardUrl root report.projectKey report.mergeRequestId),
          ("description", "SonarQube Status"),
          ("coverage",
            if condition.status = .noValue then "0" else condition.value.getD "0")] ∧
      ∃ behind,
        (dashboardUrl root report.projectKey report.mergeRequestId).toList =
          (withoutTrailingSlashes root).toList ++ "/dashboard".toList ++ '?' :: behind ∧
        '?' ∉ behind ∧
        Form.decode behind =
          [("id", report.projectKey), ("pullRequest", report.mergeRequestId)] := by
  -- The first condition on the coverage is the only one that is asked.
  have status : BuildStatus.ofReport report root = .ok ⟨report.gate.state,
      dashboardUrl root report.projectKey report.mergeRequestId, condition.coverage⟩ := by
    rw [BuildStatus.ofReport, BuildStatus.coverageMetric,
      Report.condition?_eq conditions first named]
  obtain ⟨address, asked, addressed, again, scheme, authority, path, fragment, pairs⟩ :=
    BuildStatus.exists_asked read web
  have state : report.gate.state = if report.gate = .passed then "success" else "failed" := by
    cases report.gate <;> rfl
  refine ⟨_, address, asked, status, addressed, again, scheme, authority, path, fragment, ?_,
    exists_dashboard_query root report.projectKey report.mergeRequestId⟩
  rw [pairs, BuildStatus.fields, state, Condition.coverage_eq]

/-- A report on keys that are full of marks, with two conditions on the coverage. -/
def markedReport : Report where
  commit := "c"
  mergeRequestId := "7?\"é\" "
  projectKey := "a&b=c+d %41#→𝄞"
  properties := .empty
  gate := .failed
  conditions := [⟨"coverage", .passed, some "1"⟩, ⟨"new_coverage", .warned, some "4+2&"⟩,
    ⟨"new_coverage", .noValue, none⟩]
  issues := []
  blame := .empty
  summary := none

/-- An address with a query and a fragment of its own says both that and all of the marks. -/
theorem BuildStatus.address_says_marks :
    ∃ status address asked behind,
      BuildStatus.ofReport markedReport "http://s?x//" = .ok status ∧
      status.address "https://h:8443/p?x=1&y=%26#top" = .ok address ∧
      Url.parse address = .ok asked ∧ asked.fragment = some "top".toList ∧
      asked.queryPairs = [("x", "1"), ("y", "&"), ("name", "SonarQube"), ("state", "failed"),
        ("target_url", dashboardUrl "http://s?x//" "a&b=c+d %41#→𝄞" "7?\"é\" "),
        ("description", "SonarQube Status"), ("coverage", "4+2&")] ∧
      (dashboardUrl "http://s?x//" "a&b=c+d %41#→𝄞" "7?\"é\" ").toList =
        "http://s?x/dashboard?".toList ++ behind ∧
      Form.decode behind = [("id", "a&b=c+d %41#→𝄞"), ("pullRequest", "7?\"é\" ")] := by
  have read : Url.parse "https://h:8443/p?x=1&y=%26#top" = .ok
      ⟨"https".toList, some ⟨none, .name "h".toList, some 8443⟩, .rooted ["p".toList],
        some (Form.encode [("x", "1"), ("y", "&")]), some "top".toList⟩ := by decide +kernel
  obtain ⟨status, address, asked, found, addressed, again, _, _, _, fragment, pairs, behind, text, _,
    keys⟩ := @BuildStatus.address_says markedReport ⟨"new_coverage", .warned, some "4+2&"⟩
      [⟨"coverage", .passed, some "1"⟩] [⟨"new_coverage", .noValue, none⟩] rfl (by decide) rfl _ _
      read (by decide) "http://s?x//"
  refine ⟨status, address, asked, behind, found, addressed, again, fragment, ?_, ?_, keys⟩
  · rw [pairs, Url.queryPairs, Option.getD_some, Form.decode_encode]
    rfl
  · -- A question mark in the root is not the last one.
    have root : (withoutTrailingSlashes "http://s?x//").toList = "http://s?x".toList := by decide
    rw [root] at text
    exact text

end MergeNotes
