import CodeAssist.Session.Course

/-!
Requests and questions to the providers of a session, as courses.

A request waits for each provider in turn. One whose ticket is cancelled while it waits goes no
further. With nothing else going on it goes along the chain as `walk` says (`run_follow`).
-/

namespace CodeAssist.Session

/-! ## 1. Along the chain -/

/-- Goes along the rest of a chain with the attempts that failed so far. -/
def follow (accept : Acceptance Answer) (job : Job) :
    List (Provider × Nat) → List Attempt → Course (Ending Answer)
  | [], failed => return .exhausted ⟨failed⟩
  | (p, i) :: rest, failed => do
    let (took, outcome) := p.attempt accept job.call ((← get).tally.count i)
    modify fun s => { s with tally := s.tally.bump i }
    Course.rest took (some job.ticket)
    if (← get).gate.isCancelled job.ticket then return .cancelled failed
    match outcome with
    | .ok (value, reply) =>
      return .answered value reply (failed ++ [⟨p.name, took, none⟩])
    | .error e => follow accept job rest (failed ++ [⟨p.name, took, some e⟩])

/-- Alone, a request with a ticket in force goes along a chain as an uncancelled walk does. -/
theorem run_follow (accept : Acceptance Answer) (job : Job) (chain : List (Provider × Nat))
    (failed : List Attempt) (s : Session) (h : s.gate.isCancelled job.ticket = false) :
    (follow accept job chain failed).run s =
      let w := walk accept job.call .never chain s.clock failed s.tally
      (w.ending, { s with clock := w.elapsedMs, tally := w.tally }) := by
  induction chain generalizing failed s with
  | nil => rfl
  | cons entry chain ih =>
    obtain ⟨p, i⟩ := entry
    rw [follow, walk]
    simp only [Course.run_bind, Course.run_get, Course.run_modify, Course.run_rest, h,
      reduceCtorEq, if_false, Cancellation.precedes]
    cases (p.attempt accept job.call (s.tally.count i)).2 with
    | ok answer => rfl
    | error e => exact ih _ _ h

/-- Ends a request and logs it. A failure to write is no failure of the request. -/
def conclude (job : Job) (ending : Ending Answer) (now : Moment) :
    Course (Except AssistError Answer) := do
  match ← Course.act (·.settle job ending) with
  | .error e => return .error e
  | .ok served =>
    match exchangeOf? job served now with
    | none => pure ()
    | some exchange =>
      let _ ← Course.update (fun _ => exchange) now
    return .ok served.answer

/-- `run`: answers a request. -/
def assist (request : Request) (now : Moment) : Course (Except AssistError Answer) := do
  match ← Course.act (·.enter request) with
  | .hit answer => return .ok answer
  | .panicked panic => return .error (.panicked panic)
  | .dispatched job =>
    let s ← get
    let ending ← follow (request.accept s.replyLanguage) job s.chain.zipIdx []
    conclude job ending now

/-- `diagnose_last_error`: diagnoses the last error of the build, if there is one. -/
def diagnoseLastError (now : Moment) : Course (Option (Except AssistError Answer)) := do
  match (← get).lastErrorRequest? with
  | none => return none
  | some request => return some (← assist request now)

/-! ## 2. Health -/

/-- Asks providers how they are, one after the other. -/
def askHealth : Chain → Course (List Health)
  | [] => return []
  | p :: others => do
    let health := p.checkHealth
    Course.rest health.elapsedMs none
    return health :: (← askHealth others)

def providerHealth : Course (List Health) := do
  askHealth (← get).chain

end CodeAssist.Session
