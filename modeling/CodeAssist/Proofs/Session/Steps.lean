import CodeAssist.Proofs.Gate
import CodeAssist.Proofs.Prompt.Window
import CodeAssist.Proofs.Session.Course
import CodeAssist.Session.Request

/-!
What the steps of a request do to a session.

A request enters, goes along the chain and is concluded. Entering takes a ticket and may drop a
stale answer, and it is the end of a request whose prompt cannot be built; going along the chain
only counts calls; concluding gives the ticket back and, if it is still in force, caches the answer.
What is logged is logged after that, when the store is free.
-/

namespace CodeAssist

open List

variable {s s' : Session} {ticket : Ticket}

/-! ## 1. Entering -/

def Caches.entries (c : Caches) : List (Fingerprint × Cache.Entry Answer) :=
  c.completions.entries ++ c.refactorings.entries ++ c.diagnoses.entries ++ c.reviews.entries

theorem Cache.entries_get [BEq κ] (c : Cache κ ν) (now : Nat) (key : κ) :
    (c.get now key).2.entries ⊆ c.entries := by
  rw [get]
  split
  · split
    · exact Subset.refl _
    · exact filter_sublist.subset
  · exact Subset.refl _

theorem Caches.entries_get (c : Caches) (now : Nat) (f : Fingerprint) :
    (c.get now f).2.entries ⊆ c.entries := by
  have hget := fun cache : Cache Fingerprint Answer => cache.entries_get now f
  rw [get]
  intro x
  cases f.action <;> simp only [of?, set, entries, mem_append] <;> grind

namespace Session

/-- The answer that a request gets from the caches, if it gets one. -/
def cached? (s : Session) (request : Request) : Option Answer :=
  match (s.enter request).1 with
  | .hit answer => some answer
  | .dispatched _ | .panicked _ => none

theorem cached?_eq (s : Session) (request : Request) :
    s.cached? request = (Fingerprint.ofRequest? request s.store.view).bind fun f =>
      (s.caches.get s.clock f).1 := by
  simp only [cached?, enter]
  cases Fingerprint.ofRequest? request s.store.view with
  | none => cases Prompt.build s.prompts request s.store.view <;> rfl
  | some f =>
    dsimp only [Option.bind_some]
    cases s.caches.get s.clock f with
    | mk found caches =>
      cases found with
      | some answer => rfl
      | none => cases Prompt.build s.prompts request s.store.view <;> rfl

/-- The caches after a request was looked up. -/
def lookedUp (s : Session) (request : Request) : Caches :=
  match Fingerprint.ofRequest? request s.store.view with
  | some f => (s.caches.get s.clock f).2
  | none => s.caches

theorem entries_lookedUp (s : Session) (request : Request) :
    (s.lookedUp request).entries ⊆ s.caches.entries := by
  rw [lookedUp]
  split
  · exact Caches.entries_get _ _ _
  · exact Subset.refl _

/-- What entering can do. The request takes a ticket, and it gives it back at once when its answer
is known. A request whose prompt cannot be built never gives it back. -/
theorem enter_cases (s : Session) (request : Request) :
    (∃ answer, s.cached? request = some answer ∧ s.enter request = (.hit answer,
      { s with gate := (s.gate.issue request.action).2.finish (s.gate.issue request.action).1
               caches := s.lookedUp request })) ∨
    (∃ job, s.cached? request = none ∧ s.enter request = (.dispatched job,
      { s with gate := (s.gate.issue request.action).2, caches := s.lookedUp request }) ∧
      job.request = request ∧ job.ticket = (s.gate.issue request.action).1 ∧
      job.fingerprint = Fingerprint.ofRequest? request s.store.view ∧
      Prompt.build s.prompts request s.store.view = .ok job.call.prompt) ∨
    (s.cached? request = none ∧ Prompt.Overflows s.prompts request s.store.view ∧
      s.enter request = (.panicked .overflow,
        { s with gate := (s.gate.issue request.action).2, caches := s.lookedUp request })) := by
  rw [← Prompt.build_eq_error_iff]
  simp only [cached?, enter, lookedUp]
  cases Fingerprint.ofRequest? request s.store.view with
  | none =>
    cases Prompt.build s.prompts request s.store.view with
    | ok prompt => exact .inr (.inl ⟨_, rfl, rfl, rfl, rfl, rfl, rfl⟩)
    | error panic => cases panic; exact .inr (.inr ⟨rfl, rfl, rfl⟩)
  | some f =>
    dsimp only
    cases s.caches.get s.clock f with
    | mk found caches =>
      cases found with
      | some answer => exact .inl ⟨answer, rfl, rfl⟩
      | none =>
        cases Prompt.build s.prompts request s.store.view with
        | ok prompt => exact .inr (.inl ⟨_, rfl, rfl, rfl, rfl, rfl, rfl⟩)
        | error panic => cases panic; exact .inr (.inr ⟨rfl, rfl, rfl⟩)

/-! ## 2. The chain -/

/-- A way along a chain from a session: it counts calls and changes nothing else, and it ends
cancelled only when its ticket is cancelled. -/
inductive Walks (ticket : Ticket) : Session → Pause (Ending Answer) → Prop
  | ended {s : Session} {tally : Tally} {ending : Ending Answer}
      (h : ending.isCancelled = true → s.gate.isCancelled ticket = true) :
      Walks ticket s (.ended ending { s with tally })
  | wait {s : Session} {tally : Tally} {wakeAt : Nat} {awaited : Option Ticket}
      {next : Session → Pause (Ending Answer)} (h : ∀ t, Walks ticket t (next t)) :
      Walks ticket s (.wait wakeAt awaited { s with tally } next)

theorem Walks.counted {tally : Tally} {p : Pause (Ending Answer)}
    (h : Walks ticket { s with tally } p) : Walks ticket s p := by
  generalize hs : { s with tally } = t at h
  cases h with
  | ended hcancelled =>
    subst hs
    exact .ended hcancelled
  | wait hnext =>
    subst hs
    exact .wait hnext

theorem walks_get {k : Session → Course (Ending Answer)} (h : Walks ticket s (k s s)) :
    Walks ticket s ((get >>= k) s) :=
  h

theorem walks_rest {k : Unit → Course (Ending Answer)} (h : ∀ t, Walks ticket t (k () t)) (ms : Nat)
    (awaited : Option Ticket) (tally : Tally) (s : Session) :
    Walks ticket s ((Course.rest ms awaited >>= k) { s with tally }) := by
  change Walks ticket s ((Course.rest ms awaited { s with tally }).andThen k)
  rw [Course.rest]
  split
  · exact (h _).counted
  · exact .wait h

/-- Going along a chain leaves all of a session but its count of calls. -/
theorem follow_walks (accept : Acceptance Answer) (job : Job) (chain : List (Provider × Nat))
    (failed : List Attempt) (s : Session) :
    Walks job.ticket s (follow accept job chain failed s) := by
  induction chain generalizing failed s with
  | nil =>
    refine .ended fun h => ?_
    cases h
  | cons entry chain ih =>
    obtain ⟨p, i⟩ := entry
    rw [follow]
    refine walks_get ?_
    generalize p.attempt accept job.call (s.tally.count i) = tried
    obtain ⟨took, outcome⟩ := tried
    refine walks_rest (fun t => walks_get ?_) took _ (s.tally.bump i) s
    split
    · rename_i hcancelled
      exact .ended fun _ => hcancelled
    · cases outcome with
      | ok pair =>
        refine .ended fun h => ?_
        cases h
      | error e => exact ih _ t

/-! ## 3. Concluding -/

/-- Going on to log an exchange of a kind: it is logged when there is a turn, and then the answer is
given, whether or not it could be written. -/
def Logging (action : Action) (now : Moment) (answer : Answer)
    (next : Session → Pause (Except AssistError Answer)) : Prop :=
  ∃ e : Exchange, e.action = action ∧ e.moment = now ∧ ∀ s, ∃ done,
    next s = .write { s with store := s.store.changed now (·.logExchange e) } done ∧
      ∀ result t, done result t = .ended (.ok answer) t

theorem Logging.ends {action : Action} {now : Moment} {answer : Answer}
    {next : Session → Pause (Except AssistError Answer)} (h : Logging action now answer next)
    (s : Session) : (Pause.turn s next).Ends fun result _ => result = .ok answer := by
  obtain ⟨e, -, -, hwrite⟩ := h
  refine .turn fun u => ?_
  obtain ⟨done, hnext, hdone⟩ := hwrite u
  rw [hnext]
  refine .write fun result t => ?_
  rw [hdone]
  exact .ended rfl

theorem conclude_error {job : Job} {ending : Ending Answer} {e : AssistError}
    (h : s.settle job ending = (.error e, s')) (now : Moment) :
    conclude job ending now s = .ended (.error e) s' := by
  rw [conclude, Course.act_bind, h]
  rfl

/-- A served request is logged unless it is a completion. -/
theorem conclude_ok {job : Job} {ending : Ending Answer} {served : Served}
    (h : s.settle job ending = (.ok served, s')) (now : Moment) :
    (job.request.action = .completion ∧
      conclude job ending now s = .ended (.ok served.answer) s') ∨
    (job.request.action ≠ .completion ∧ ∃ next,
      conclude job ending now s = .turn s' next ∧
        Logging job.request.action now served.answer next) := by
  rw [conclude, Course.act_bind, h]
  dsimp only
  rw [exchangeOf?]
  split
  · rename_i hcompletion
    exact .inl ⟨hcompletion, rfl⟩
  · rename_i hlogged
    refine .inr ⟨hlogged, _, rfl, ?_⟩
    refine ⟨⟨job.request.action, _, _, _, now⟩, rfl, rfl, fun t => ⟨_, rfl, fun result u => ?_⟩⟩
    cases result <;> rfl

/-- The session with the ticket of a request given back. -/
def released (s : Session) (job : Job) : Session :=
  { s with gate := s.gate.finish job.ticket }

/-- A way of concluding a request without an answer. It is superseded if its ticket is no longer in
force, and only then or when its chain was cancelled. -/
structure Failing (s : Session) (job : Job) (ending : Ending Answer) (e : AssistError) : Prop where
  past : s.gate.isCurrent job.ticket = false → e = .superseded job.request.action
  superseded : ∀ action, e = .superseded action → action = job.request.action ∧
    (s.gate.isCurrent job.ticket = false ∨ ending.isCancelled = true)

/-- The caches with the answer to a request, if that may be cached. -/
def storing (s : Session) (job : Job) (answer : Answer) : Caches :=
  match job.fingerprint with
  | some f => s.caches.put s.clock f answer (s.ttlOf job.request.action)
  | none => s.caches

/-- How a request ends when its chain has: it fails, or its answer is stored, and logged unless it
is a completion. -/
theorem conclude_cases (job : Job) (ending : Ending Answer) (now : Moment) (s : Session) :
    (∃ e, s.Failing job ending e ∧
      (e = .superseded job.request.action ∨ ∃ failure, ending = .exhausted failure) ∧
      conclude job ending now s = .ended (.error e) (s.released job)) ∨
    (s.gate.isCurrent job.ticket = true ∧ ∃ answer reply attempts,
      ending = .answered answer reply attempts ∧
      ((job.request.action = .completion ∧ conclude job ending now s =
        .ended (.ok answer) { s.released job with caches := s.storing job answer }) ∨
      (job.request.action ≠ .completion ∧ ∃ next, conclude job ending now s =
        .turn { s.released job with caches := s.storing job answer } next ∧
          Logging job.request.action now answer next))) := by
  cases hcurrent : s.gate.isCurrent job.ticket with
  | false =>
    have hsettle : s.settle job ending =
        (.error (.superseded job.request.action), s.released job) := by
      rw [settle, if_neg (by rw [hcurrent]; exact Bool.false_ne_true), released,
        Gate.finish_of_past hcurrent]
    refine .inl ⟨_, ⟨fun _ => rfl, fun action h => ?_⟩, .inl rfl, conclude_error hsettle now⟩
    cases h
    exact ⟨rfl, .inl hcurrent⟩
  | true =>
    cases ending with
    | answered answer reply attempts =>
      have hsettle : s.settle job (.answered answer reply attempts) =
          (.ok ⟨answer, reply, attempts⟩,
            { s.released job with caches := s.storing job answer }) := by
        rw [settle, if_pos hcurrent]
        rfl
      exact .inr ⟨rfl, answer, reply, attempts, rfl, conclude_ok hsettle now⟩
    | exhausted failure =>
      have hsettle : s.settle job (.exhausted failure) =
          (.error (.exhausted failure), s.released job) := by
        rw [settle, if_pos hcurrent]
        rfl
      refine .inl ⟨.exhausted failure, ⟨fun hpast => ?_, nofun⟩, .inr ⟨failure, rfl⟩,
        conclude_error hsettle now⟩
      cases hcurrent.symm.trans hpast
    | cancelled attempts =>
      have hsettle : s.settle job (.cancelled attempts) =
          (.error (.superseded job.request.action), s.released job) := by
        rw [settle, if_pos hcurrent]
        rfl
      refine .inl ⟨_, ⟨fun _ => rfl, fun action h => ?_⟩, .inl rfl, conclude_error hsettle now⟩
      cases h
      exact ⟨rfl, .inr rfl⟩

end Session

end CodeAssist
