import Mathlib.Data.List.Forall2
import MergeNotes.Proofs.Remote.Pages

/-! Two runs side by side: from lines with the same replies to come they do the same, and differ in
nothing but in what may be different about their requests. -/

namespace MergeNotes

open Json (Format)

variable {α β : Type}

/-- A line further on: with other replies left, and with more requests and notes. -/
def Line.further (line : Line) (left : List Reply) (sent : List Request) (events : List Event) :
    Line :=
  { line with
    replies := left, requests := line.requests ++ sent, events := line.events ++ events }

/-- Two runs are in step: wherever both can reach the same servers and get the same replies, they
have the same result and leave the same replies and notes, and their requests are pairwise alike. -/
def InStep (alike : Request → Request → Prop) (first second : Run α) : Prop :=
  ∀ line other : Line, other.reach = line.reach → other.replies = line.replies →
    ∃ result left sent others events, first.run line = (result, line.further left sent events) ∧
      second.run other = (result, other.further left others events) ∧
      List.Forall₂ alike sent others

namespace InStep

variable {alike : Request → Request → Prop}

/-- A line that is no further on. -/
theorem further_nothing (line : Line) : line.further line.replies [] [] = line := by
  simp [Line.further]

theorem further_further (line : Line) (between left : List Reply) (sent more : List Request)
    (events others : List Event) : (line.further between sent events).further left more others =
      line.further left (sent ++ more) (events ++ others) := by
  simp only [Line.further, List.append_assoc]

/-- What ends at once, and in the same way, is in step. -/
theorem of_still {first second : Run α} {result : Except Failure α}
    (left : ∀ line, first.run line = (result, line))
    (right : ∀ line, second.run line = (result, line)) : InStep alike first second := by
  intro line other _ replies
  refine ⟨result, line.replies, [], [], [], ?_, ?_, .nil⟩
  · rw [left, further_nothing]
  · rw [right, ← replies, further_nothing]

theorem pure (value : α) : InStep alike (Pure.pure value) (Pure.pure value) :=
  of_still (fun _ => rfl) fun _ => rfl

theorem failRemote (failure : RemoteFailure) :
    InStep alike (Run.failRemote failure : Run α) (Run.failRemote failure) :=
  of_still (fun _ => rfl) fun _ => rfl

theorem ofRemote (result : Except RemoteFailure α) :
    InStep alike (Run.ofRemote result) (Run.ofRemote result) := by
  cases result with
  | error failure => exact failRemote failure
  | ok value => exact pure value

theorem note (event : Event) :
    InStep alike (liftM (MergeNotes.note event) : Run Unit) (liftM (MergeNotes.note event)) := by
  intro line other _ replies
  refine ⟨.ok (), line.replies, [], [], [event], ?_, ?_, .nil⟩
  · rw [Run.run_note, Line.noted, Line.further, List.append_nil]
  · rw [Run.run_note, Line.noted, Line.further, List.append_nil, ← replies]

/-- Where the first parts are in step, and the second parts are for each value of the first, the
whole is. -/
theorem bind {first second : Run α} {next following : α → Run β} (start : InStep alike first second)
    (rest : ∀ value, InStep alike (next value) (following value)) :
    InStep alike (first >>= next) (second >>= following) := by
  intro line other reach replies
  obtain ⟨result, between, sent, others, events, left, right, paired⟩ := start line other reach
    replies
  cases result with
  | error failure =>
    -- The first parts fail alike, and the second parts are not run.
    exact ⟨.error failure, between, sent, others, events, by rw [Run.run_bind, left],
      by rw [Run.run_bind, right], paired⟩
  | ok value =>
    obtain ⟨result, after, more, further, notes, later, latter, matched⟩ := rest value
      (line.further between sent events) (other.further between others events) reach rfl
    refine ⟨result, after, sent ++ more, others ++ further, events ++ notes, ?_, ?_,
      List.rel_append paired matched⟩
    · rw [Run.run_bind, left]
      dsimp only
      rw [later, further_further]
    · rw [Run.run_bind, right]
      dsimp only
      rw [latter, further_further]

theorem note_bind (event : Event) {next following : Unit → Run α}
    (rest : InStep alike (next ()) (following ())) :
    InStep alike ((liftM (MergeNotes.note event) : Run Unit) >>= next)
      ((liftM (MergeNotes.note event) : Run Unit) >>= following) :=
  (note event).bind fun _ => rest

theorem ofAnalysis (result : Except AnalysisFailure α) :
    InStep alike (Run.ofAnalysis result) (Run.ofAnalysis result) := by
  cases result with
  | error failure => exact of_still (fun _ => rfl) fun _ => rfl
  | ok value => exact pure value

/-- What looks at the line first is in step if it is for any two lines that allow for the same. -/
theorem get_bind {next following : Line → Run α}
    (rest : ∀ line other : Line, other.reach = line.reach → other.replies = line.replies →
      InStep alike (next line) (following other)) :
    InStep alike ((get : Run Line) >>= next) ((get : Run Line) >>= following) := by
  intro line other reach replies
  rw [Run.run_bind, Run.run_bind, Run.run_get, Run.run_get]
  exact rest line other reach replies line other reach replies

end InStep

section

variable {alike : Request → Request → Prop} {token other : Token}

/-- The requests for two tokens are alike, whatever they ask for. -/
def Token.Alike (alike : Request → Request → Prop) (token other : Token) : Prop :=
  ∀ method url form, alike (requestFor token method url form) (requestFor other method url form)

/-- An exchange depends on what both lines have, and sends alike requests or none at all. -/
theorem inStep_exchange (tokens : Token.Alike alike token other) (method : Method)
    (address : String) (form : Option Comment) :
    InStep alike (exchange token method address form) (exchange other method address form) := by
  intro line opposite reach replies
  have reply : opposite.reply = line.reply := by rw [Line.reply, Line.reply, replies]
  rw [run_exchange, run_exchange, reach, reply]
  -- What is not sent leaves both lines as they are.
  have still : ∀ failure : Failure, ∃ result left sent others events,
      ((.error failure, line) : Except Failure Answer × Line) =
          (result, line.further left sent events) ∧
        ((.error failure, opposite) : Except Failure Answer × Line) =
          (result, opposite.further left others events) ∧ List.Forall₂ alike sent others := by
    intro failure
    refine ⟨.error failure, line.replies, [], [], [], ?_, ?_, .nil⟩
    · rw [InStep.further_nothing]
    · rw [← replies, InStep.further_nothing]
  cases requestUrl address with
  | error failure => exact still _
  | ok url =>
    dsimp only
    by_cases reached : line.reach.connects url = true
    · rw [if_pos reached, if_pos reached]
      -- The request leaves on both lines, and the reply to it is the same.
      have sent : ∀ result : Except Failure Answer, ∃ found left sent others events,
          (result, line.sent (requestFor token method url form)) =
              (found, line.further left sent events) ∧
            (result, opposite.sent (requestFor other method url form)) =
              (found, opposite.further left others events) ∧ List.Forall₂ alike sent others := by
        intro result
        refine ⟨result, line.replies.tail, [requestFor token method url form],
          [requestFor other method url form], [], ?_, ?_, .cons (tokens method url form) .nil⟩
        · rw [Line.sent, Line.further, List.append_nil]
        · rw [Line.sent, Line.further, List.append_nil, replies]
      cases line.reply.receive url with
      | ok answer => exact sent _
      | error failure => exact sent _
    · rw [if_neg reached, if_neg reached]
      exact still _

theorem inStep_requireStatus (url : String) (expected status : Nat) (body : String) :
    InStep alike (requireStatus url expected status body)
      (requireStatus url expected status body) := by
  unfold requireStatus
  by_cases same : status = expected
  · simp only [same, ne_eq, not_true_eq_false, if_false]
    exact .pure ()
  · simp only [ne_eq, same, not_false_eq_true, if_true]
    exact .note_bind _ (.failRemote _)

theorem inStep_decodeBody (format : Format α) (body : String) :
    InStep alike (decodeBody format body) (decodeBody format body) := by
  unfold decodeBody
  cases format.decodeLenient body with
  | error error => exact .failRemote _
  | ok value => exact .pure value

/-- Reading one resource. -/
theorem inStep_fetchOne (tokens : Token.Alike alike token other) (format : Format α)
    (url : String) : InStep alike (fetchOne format token url) (fetchOne format other url) :=
  (inStep_exchange tokens .get url none).bind fun answer =>
    (inStep_requireStatus url 200 answer.status answer.body).bind fun _ =>
      .note_bind _ (inStep_decodeBody format answer.body)

theorem inStep_fetchMergeRequest (tokens : Token.Alike alike token other) (url : String) :
    InStep alike (fetchMergeRequest token url) (fetchMergeRequest other url) :=
  (inStep_fetchOne tokens MergeRequest.format url).bind fun mergeRequest =>
    .note_bind _ (.pure mergeRequest)

/-- Reading one page. -/
theorem inStep_fetchPage (tokens : Token.Alike alike token other) (format : Format α)
    (url : String) : InStep alike (fetchPage format token url) (fetchPage format other url) :=
  (inStep_exchange tokens .get url none).bind fun answer =>
    (inStep_requireStatus url 200 answer.status answer.body).bind fun _ =>
      (inStep_decodeBody format.list answer.body).bind fun items =>
        .pure (⟨items, answer.next?⟩ : Page α)

/-- Reading on from some page: both listings follow the same links, and stop at the same page. -/
theorem inStep_fetchPages (tokens : Token.Alike alike token other) (format : Format α)
    (rounds : Nat) : ∀ (visited : List String) (url : String),
      InStep alike (fetchPages format token visited rounds url)
        (fetchPages format other visited rounds url) := by
  -- The induction is on the rounds, of which every page takes one.
  induction rounds with
  | zero =>
    intro visited url
    by_cases member : url ∈ visited
    · exact revisited member 0
    · rw [fetchPages, if_neg member, fetchPages, if_neg member]
      exact (inStep_fetchPage tokens format url).bind fun page => .note_bind _ (.pure page.items)
  | succ rounds ih =>
    intro visited url
    by_cases member : url ∈ visited
    · exact revisited member (rounds + 1)
    · rw [fetchPages, if_neg member, fetchPages, if_neg member]
      refine (inStep_fetchPage tokens format url).bind fun page => .note_bind _ ?_
      -- The page is the same for both, and so is the link on it.
      cases page.next with
      | none => exact .pure page.items
      | some next =>
        exact .note_bind _ ((ih (url :: visited) next).bind fun more => .pure (page.items ++ more))
where
  /-- A page that was visited is refused whatever the token. -/
  revisited {visited : List String} {url : String} (member : url ∈ visited) (rounds : Nat) :
      InStep alike (fetchPages format token visited rounds url)
        (fetchPages format other visited rounds url) := by
    intro line opposite _ replies
    refine ⟨.error (.remote (.paginationLoop url)), line.replies, [], [], [.linkRepeated url],
      ?_, ?_, .nil⟩
    · rw [run_fetchPages_visited member, Line.noted, Line.further, List.append_nil]
    · rw [run_fetchPages_visited member, Line.noted, Line.further, List.append_nil, ← replies]

theorem inStep_fetchCommits (tokens : Token.Alike alike token other) (url : String) :
    InStep alike (fetchCommits token url) (fetchCommits other url) := by
  -- The replies that are left, by which the rounds are counted, are as many on both lines.
  have listing : InStep alike (fetchAll Commit.format token url)
      (fetchAll Commit.format other url) := by
    refine .get_bind fun line opposite _ replies => ?_
    rw [replies]
    exact inStep_fetchPages tokens Commit.format line.replies.length [] url
  exact listing.bind fun commits => .note_bind _ (.pure (commits.map (·.id)))

end

end MergeNotes
