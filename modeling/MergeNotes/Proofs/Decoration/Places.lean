import MergeNotes.Proofs.Decoration.Plan

/-! The places of a plan, and what was sent and received when a decoration got to one. -/

namespace MergeNotes

variable {prepared : Preparation} {report : Report} {token : Token} {reach : Reach}
  {replies : List Reply} {done rest : List Step} {step : Step} {between after : Line}

/-- What stands at a place of two lists in a row stands in one of them. -/
theorem append_split {α : Type} {first second before after : List α} {item : α}
    (split : first ++ second = before ++ item :: after) :
    (∃ more, first = before ++ item :: more) ∨
      ∃ later, before = first ++ later ∧ second = later ++ item :: after := by
  -- Either the place is behind the first list, or in it or just at its end.
  rcases List.append_eq_append_iff.1 split with ⟨later, same, whole⟩ | ⟨more, same, whole⟩
  · exact .inr ⟨later, same, whole⟩
  · cases more with
    | nil =>
      rw [List.append_nil] at same
      exact .inr ⟨[], by rw [same, List.append_nil], whole.symm⟩
    | cons head more =>
      rw [List.cons_append, List.cons.injEq] at whole
      exact .inl ⟨more, by rw [same, whole.1]⟩

/-- The places of the plan. -/
inductive Preparation.At (prepared : Preparation) (report : Report) (replies : List Reply) :
    List Step → Step → Prop where
  | page {done more : List Step} {step : Step}
      (split : prepared.pages replies = done ++ step :: more) : At prepared report replies done step
  | mergeRequest : At prepared report replies (prepared.pages replies)
      (.read MergeRequest.format (.ok prepared.endpoints.mergeRequest))
  | status : At prepared report replies
      (prepared.pages replies ++ [.read MergeRequest.format (.ok prepared.endpoints.mergeRequest)])
      (.status prepared.endpoints.status prepared.status)
  | summary : At prepared report replies
      (prepared.pages replies ++ [.read MergeRequest.format (.ok prepared.endpoints.mergeRequest),
        .status prepared.endpoints.status prepared.status])
      (.comment prepared.endpoints.discussions (.summary report.summaryBody))
  | inline (earlier : List Step) (comment : Comment) : At prepared report replies
      (prepared.pages replies ++ prepared.core report ++ earlier)
      (.comment prepared.endpoints.discussions comment)

/-- All comments on lines go to one address. -/
theorem Preparation.exists_comment_of_mem (prepared : Preparation)
    (member : step ∈ prepared.comments report replies) :
    ∃ comment, step = .comment prepared.endpoints.discussions comment := by
  unfold Preparation.comments at member
  split at member
  · obtain ⟨comment, _, same⟩ := List.mem_map.1 member
    exact ⟨comment, same.symm⟩
  · simp at member

/-- Each step of the plan is at one of its places. -/
theorem Preparation.at_of_plan (whole : prepared.plan report replies = done ++ step :: rest) :
    prepared.At report replies done step := by
  rw [Preparation.plan, List.append_assoc] at whole
  -- A step among the pages is known; else it is one of those behind them.
  rcases append_split whole with ⟨more, page⟩ | ⟨later, rfl, split⟩
  · exact .page page
  rw [Preparation.core, List.cons_append, List.cons_append, List.cons_append,
    List.nil_append] at split
  -- The three steps in the middle come one by one.
  rcases later with _ | ⟨first, later⟩
  · rw [List.nil_append, List.cons.injEq] at split
    rw [List.append_nil, ← split.1]
    exact .mergeRequest
  rw [List.cons_append, List.cons.injEq] at split
  obtain ⟨rfl, split⟩ := split
  rcases later with _ | ⟨second, later⟩
  · rw [List.nil_append, List.cons.injEq] at split
    rw [← split.1]
    exact .status
  rw [List.cons_append, List.cons.injEq] at split
  obtain ⟨rfl, split⟩ := split
  rcases later with _ | ⟨third, later⟩
  · rw [List.nil_append, List.cons.injEq] at split
    rw [← split.1]
    exact .summary
  rw [List.cons_append, List.cons.injEq] at split
  obtain ⟨rfl, split⟩ := split
  -- What is left of the plan are the comments on lines, all to one address.
  have member : step ∈ prepared.comments report replies := by
    rw [split]
    exact List.mem_append_right _ List.mem_cons_self
  obtain ⟨comment, rfl⟩ := prepared.exists_comment_of_mem member
  have place := @Preparation.At.inline prepared report replies later comment
  rwa [Preparation.core, List.append_assoc] at place

/-- A request is the last one that arrived, behind a number of others, and a reply is what it
got. -/
structure EndsIn (replies : List Reply) (after : Line) (count : Nat) (request : Request)
    (reply : Reply) : Prop where
  requests : ∃ earlier, earlier.length = count ∧ after.requests = earlier ++ [request]
  reply : reply = (replies.drop count).headD .silence

/-- Behind steps that went well there is one request for each of them. -/
theorem Completes.length_requests
    (completes : Completes token done (.fresh reach replies) between) :
    between.requests.length = done.length := by
  obtain ⟨_, sent, requests, same⟩ := completes.traffic
  -- What was sent is one request for each step that was taken.
  have lengths := congrArg List.length same
  rw [List.length_map, List.length_map] at lengths
  rw [requests, ← lengths]
  rfl

theorem Completes.reply (completes : Completes token done (.fresh reach replies) between) :
    between.reply = (replies.drop done.length).headD .silence := by
  rw [Line.reply, completes.traffic.1]
  rfl

/-- The request of the step behind them is the last one, and it got the reply that comes next. -/
theorem Completes.endsIn (completes : Completes token done (.fresh reach replies) between)
    {address : String} {url : Url} (sends : step.Sends token address url between after) :
    EndsIn replies after done.length (requestFor token step.method url step.form)
      between.reply :=
  ⟨⟨between.requests, completes.length_requests, sends.quiet.requests⟩, completes.reply⟩

/-- Each step that went well left its request. -/
theorem Completes.mem_requests (completes : Completes token done (.fresh reach replies) between)
    (member : step ∈ done) : ∃ request ∈ between.requests, step.request? token = some request := by
  obtain ⟨_, sent, requests, same⟩ := completes.traffic
  obtain ⟨request, present, found⟩ := List.mem_map.1 (same ▸ List.mem_map_of_mem member)
  rw [requests]
  exact ⟨request, List.mem_append_right _ present, found.symm⟩

/-- The last of the steps that went well left the last request. -/
theorem Completes.endsIn_last {front : List Step} {last : Step}
    (completes : Completes token (front ++ [last]) (.fresh reach replies) between) :
    ∃ address url, last.address = .ok address ∧ requestUrl address = .ok url ∧
      EndsIn replies between front.length (requestFor token last.method url last.form)
        ((replies.drop front.length).headD .silence) := by
  obtain ⟨address, url, addressed, requested⟩ :=
    completes.requested (List.mem_append_right front List.mem_cons_self)
  refine ⟨address, url, addressed, requested, ?_, rfl⟩
  obtain ⟨_, sent, requests, same⟩ := completes.traffic
  rw [List.map_append, List.map_singleton, List.map_eq_append_iff] at same
  obtain ⟨earlier, final, rfl, first, second⟩ := same
  obtain ⟨request, rfl, found⟩ := List.map_eq_singleton_iff.1 second
  refine ⟨earlier, by simpa using congrArg List.length first, ?_⟩
  simp only [Step.request?, addressed, requested, Option.some.injEq] at found
  rw [requests, ← found]
  rfl

/-- What was sent for a beginning of a plan is as long as that beginning. -/
theorem requests_of_beginning {token : Token} {taken plan : List Step} {sent : List Request}
    (beginning : taken <+: plan) (same : sent.map some = taken.map (Step.request? token)) :
    sent.map some = (plan.take sent.length).map (Step.request? token) := by
  have lengths := congrArg List.length same
  rw [List.length_map, List.length_map] at lengths
  rw [lengths, ← List.prefix_iff_eq_take.1 beginning]
  exact same

end MergeNotes
