import MergeNotes.Proofs.Decoration.Parallel
import MergeNotes.Proofs.Remote.Listings
import MergeNotes.Proofs.Result

/-! Listings of the same commits: how they are paged, ordered or repeated makes no difference to
anything behind them. -/

namespace MergeNotes

/-- A prepared decoration reads a complete listing of its commits, and then works on them. -/
theorem Preparation.run_decorate_of_listing {access : Access} {report : Report} {reach : Reach}
    {prepared : Preparation} (possible : prepare access report = .ok prepared)
    {replies : List Reply} {commits : List Commit}
    (listing : Listing Commit.format reach [] prepared.endpoints.commits replies commits)
    (rest : List Reply) :
    ∃ between, between.reach = reach ∧ between.replies = rest ∧
      between.requests.length = replies.length ∧
      (∀ request ∈ between.requests, request.method = .get) ∧
      (decorate access report).run (.fresh reach (replies ++ rest)) =
        (prepared.workOn report (.ofList (commits.map (·.id)))).run between := by
  obtain ⟨started, quiet, run⟩ := run_decorate access report (.fresh reach (replies ++ rest))
  rw [possible] at run
  obtain ⟨between, sent, listed, reached, left, requests, lengths, methods⟩ :=
    listing.run_fetchCommits prepared.token quiet.reach quiet.replies
  -- Nothing was sent before the listing, so that its requests are all there are.
  have requests : between.requests = sent := by
    rw [requests, quiet.requests, Line.fresh, List.nil_append]
  refine ⟨between, reached, left, by rw [requests, lengths], by rwa [requests], ?_⟩
  rw [run]
  dsimp only
  rw [Preparation.work_eq, Run.run_bind, listed]

/-- A decoration that fails before its listing leaves all replies as they are. For any other it
makes no difference in which of its complete listings the same commits come, whatever replies come
behind it: but for the requests of the listing, which are as many as its pages, the result, the
requests and the replies that are left are the same. -/
theorem decorate_relisted (access : Access) (report : Report) (reach : Reach)
    (rest : List Reply) :
    (∀ failure, prepare access report = .error failure → ∀ replies, ∃ after,
      (decorate access report).run (.fresh reach replies) = (.error failure, after) ∧
        after.requests = [] ∧ after.replies = replies) ∧
    ∀ prepared, prepare access report = .ok prepared →
      ∀ (first second : List Reply) (commits others : List Commit),
      Listing Commit.format reach [] prepared.endpoints.commits first commits →
      Listing Commit.format reach [] prepared.endpoints.commits second others →
      (∀ id, id ∈ commits.map (·.id) ↔ id ∈ others.map (·.id)) →
      ∃ result after other readings rereadings sent,
        (decorate access report).run (.fresh reach (first ++ rest)) = (result, after) ∧
        (decorate access report).run (.fresh reach (second ++ rest)) = (result, other) ∧
        after.requests = readings ++ sent ∧ other.requests = rereadings ++ sent ∧
        readings.length = first.length ∧ rereadings.length = second.length ∧
        (∀ request ∈ readings ++ rereadings, request.method = .get) ∧
        other.replies = after.replies := by
  constructor
  · intro failure impossible replies
    -- Notes are all that there is before the checks.
    have ends := decorate_ends access report (.fresh reach replies)
    rw [impossible] at ends
    obtain ⟨after, run, quiet⟩ := ends
    exact ⟨after, run, quiet.requests, quiet.replies⟩
  · intro prepared possible first second commits others listing relisting same
    obtain ⟨between, reached, left, count, reads, run⟩ :=
      Preparation.run_decorate_of_listing possible listing rest
    obtain ⟨middle, rereached, remaining, recount, rereads, rerun⟩ :=
      Preparation.run_decorate_of_listing possible relisting rest
    -- Behind the listings both work on sets of the same commits, and on the same replies.
    have tokens : Token.Alike (· = ·) prepared.token prepared.token := fun _ _ _ => rfl
    obtain ⟨result, after, sent, resent, events, work, rework, paired⟩ :=
      prepared.inStep_workOn tokens report (CommitSet.contains_congr same)
        (CommitSet.size_congr same) between middle (rereached.trans reached.symm)
        (remaining.trans left.symm)
    -- With one token, requests that are alike are equal.
    obtain rfl : sent = resent := List.forall₂_eq_eq_eq ▸ paired
    refine ⟨result, _, _, between.requests, middle.requests, sent, run.trans work,
      rerun.trans rework, rfl, rfl, count, recount, ?_, rfl⟩
    intro request member
    exact (List.mem_append.1 member).elim (reads request) (rereads request)

/-- A report without issues, with some conditions. -/
def relistedReport (conditions : List Condition) : Report where
  commit := "c"
  mergeRequestId := "7"
  projectKey := "k"
  properties := .ofList [("gitlab.api.url", "http://h"), ("gitlab.repository.slug", "p")]
  gate := .passed
  conditions
  issues := []
  blame := .empty
  summary := none

/-- Two commits, one on each of two pages. -/
def twoPages : List Reply :=
  [.answer 200 [Utf8.bytes "<http://h>; rel=\"next\""] (Utf8.bytes "[[\"c\"]]") true,
    .answer 200 [] (Utf8.bytes "[[\"d\"]]") true]

/-- The same two commits on one page, in another order and one of them twice. -/
def onePage : List Reply :=
  [.answer 200 [] (Utf8.bytes "[[\"d\"],[\"c\"],[\"d\"]]") true]

/-- Where the commits of that report are listed. -/
def relistedAddress : String := "http://h/projects/p/merge_requests/7/commits"

/-- Whether an address can be asked can be computed. -/
theorem exists_requestUrl_of_connects {address : String} {reach : Reach}
    (connects : (requestUrl address).toOption.map (reach.connects ·) = some true) :
    ∃ asked, requestUrl address = .ok asked ∧ reach.connects asked = true :=
  exists_ok_of_toOption connects

theorem listing_twoPages :
    Listing Commit.format .plain [] relistedAddress twoPages [⟨"c"⟩, ⟨"d"⟩] := by
  obtain ⟨asked, requested, reached⟩ :=
    @exists_requestUrl_of_connects relistedAddress .plain (by decide +kernel)
  obtain ⟨further, onward, there⟩ :=
    @exists_requestUrl_of_connects "http://h" .plain (by decide +kernel)
  have rest : Listing Commit.format .plain [relistedAddress] "http://h"
      [.answer 200 [] (Utf8.bytes "[[\"d\"]]") true] [⟨"d"⟩] :=
    .last (by decide) onward there (by decide +kernel) (by decide +kernel)
  have leads : Reply.next? (.answer 200 [Utf8.bytes "<http://h>; rel=\"next\""]
      (Utf8.bytes "[[\"c\"]]") true) = some "http://h" := by decide +kernel
  have good : Reply.resource? Commit.format.list (.answer 200
      [Utf8.bytes "<http://h>; rel=\"next\""] (Utf8.bytes "[[\"c\"]]") true) = some [⟨"c"⟩] := by
    decide +kernel
  exact .next (by decide) requested reached good leads rest

theorem listing_onePage :
    Listing Commit.format .plain [] relistedAddress onePage [⟨"d"⟩, ⟨"c"⟩, ⟨"d"⟩] := by
  obtain ⟨asked, requested, reached⟩ :=
    @exists_requestUrl_of_connects relistedAddress .plain (by decide +kernel)
  exact .last (by decide) requested reached (by decide +kernel) (by decide +kernel)

/-- Both listings are of the same commits. -/
theorem mem_twoPages_iff (id : String) :
    id ∈ [(⟨"c"⟩ : Commit), ⟨"d"⟩].map (·.id) ↔ id ∈ [(⟨"d"⟩ : Commit), ⟨"c"⟩, ⟨"d"⟩].map (·.id) := by
  simp only [List.map_cons, List.map_nil, List.mem_cons, List.not_mem_nil, or_false]
  constructor
  · rintro (rfl | rfl) <;> simp
  · rintro (rfl | rfl | rfl) <;> simp

/-- With a coverage to report, it makes no difference on how many pages the commits come; without
one, nothing is listed. -/
theorem decorate_relisted_pages :
    (∃ result after other readings rereadings sent,
      (decorate ⟨"t", ""⟩ (relistedReport [⟨"new_coverage", .passed, none⟩])).run
        (.fresh .plain (twoPages ++ [.answer 404 [] [] true])) = (result, after) ∧
      (decorate ⟨"t", ""⟩ (relistedReport [⟨"new_coverage", .passed, none⟩])).run
        (.fresh .plain (onePage ++ [.answer 404 [] [] true])) = (result, other) ∧
      after.requests = readings ++ sent ∧ other.requests = rereadings ++ sent ∧
      readings.length = 2 ∧ rereadings.length = 1 ∧
      (∀ request ∈ readings ++ rereadings, request.method = .get) ∧
      other.replies = after.replies) ∧
    ∃ after, (decorate ⟨"t", ""⟩ (relistedReport [])).run (.fresh .plain twoPages) =
        (.error (.analysis (.missingCondition "new_coverage")), after) ∧
      after.requests = [] ∧ after.replies = twoPages := by
  constructor
  · obtain ⟨prepared, possible, address⟩ := @exists_ok_of_toOption _ _ _
      (prepare ⟨"t", ""⟩ (relistedReport [⟨"new_coverage", .passed, none⟩])) (·.endpoints.commits)
      relistedAddress (by decide +kernel)
    exact (decorate_relisted ⟨"t", ""⟩ (relistedReport [⟨"new_coverage", .passed, none⟩]) .plain
      [.answer 404 [] [] true]).2 prepared possible twoPages onePage _ _
      (address ▸ listing_twoPages) (address ▸ listing_onePage) mem_twoPages_iff
  · -- The addresses are there, so that the condition is the first thing to be missed.
    obtain ⟨endpoints, found, _⟩ := @exists_ok_of_toOption _ _ _
      (Endpoints.ofReport (relistedReport [])) (·.commits) relistedAddress (by decide +kernel)
    have impossible : prepare ⟨"t", ""⟩ (relistedReport []) =
        .error (.analysis (.missingCondition "new_coverage")) := by
      rw [prepare, found]
      rfl
    exact (decorate_relisted ⟨"t", ""⟩ (relistedReport []) .plain []).1 _ impossible twoPages

/-- Without a coverage to report, a decoration fails before it lists anything. It then leaves both
replies of the one listing, and the only one of the other. -/
theorem unread_listings_differ :
    Listing Commit.format .plain [] relistedAddress twoPages [⟨"c"⟩, ⟨"d"⟩] ∧
    Listing Commit.format .plain [] relistedAddress onePage [⟨"d"⟩, ⟨"c"⟩, ⟨"d"⟩] ∧
    (∀ id, id ∈ [(⟨"c"⟩ : Commit), ⟨"d"⟩].map (·.id) ↔
      id ∈ [(⟨"d"⟩ : Commit), ⟨"c"⟩, ⟨"d"⟩].map (·.id)) ∧
    (Endpoints.ofReport (relistedReport [])).toOption.map (·.commits) = some relistedAddress ∧
    ((decorate ⟨"t", ""⟩ (relistedReport [])).run (.fresh .plain (twoPages ++ []))).2.replies.length ≠
      ((decorate ⟨"t", ""⟩ (relistedReport [])).run
        (.fresh .plain (onePage ++ []))).2.replies.length := by
  refine ⟨listing_twoPages, listing_onePage, mem_twoPages_iff, by decide +kernel, ?_⟩
  decide +kernel

end MergeNotes
