import CodeAssist.Cache
import CodeAssist.Fingerprint
import CodeAssist.Gate
import CodeAssist.Memory.Search
import CodeAssist.Provider.Chain
import CodeAssist.Reply.Outcome
import CodeAssist.Store.Basic
import CodeAssist.Toolchain.Basic

/-!
Sessions: an open project with its providers.

A request takes a ticket, is looked up in the cache of its kind, and else goes along the chain of
providers. When the chain has ended and the ticket still holds, the answer is cached and the
exchange is logged. Completions are not logged, and generations are not cached. A request whose
prompt cannot be built panics: it ends there, and its ticket is not given back.

`enter` and `settle` are the steps of a request at its beginning and its end. What happens between
them, and all else that takes time, is a course (`CodeAssist.Session.Course`).
-/

namespace CodeAssist

/-! ## 1. Answers -/

inductive Answer where
  | completion (reply : Reply)
  | refactoring (value : Refactoring)
  | diagnosis (value : Diagnosis)
  | generation (value : Generation)
  | review (value : Review)

def Answer.toJson : Answer → Json
  | completion r => r.toJson
  | refactoring v => v.toJson
  | diagnosis v => v.toJson
  | generation v => v.toJson
  | review v => v.toJson

def Request.accept (language : String) : Request → Acceptance Answer
  | completion .., reply => .ok (.completion reply)
  | refactor code _, reply => (reply.refactoring language code).map .refactoring
  | diagnosis .., reply => (reply.diagnosis language).map .diagnosis
  | generation _, reply => (reply.generation language).map .generation
  | review .., reply => reply.review.map .review

/-- Why a request has no answer. -/
inductive AssistError where
  | exhausted (failure : Exhausted)
  | superseded (action : Action)
  /-- It returns nothing at all: building its prompt panicked. -/
  | panicked (panic : Prompt.Panic)
  deriving DecidableEq, Repr

def AssistError.message : AssistError → String
  | exhausted failure => failure.message
  | superseded action => s!"{action.name} request superseded by a newer one"
  | panicked panic => panic.message

/-! ## 2. Sessions -/

/-- `RuntimeConfig`: times and sizes. Times are in milliseconds. -/
structure Tuning where
  completionTtl : Nat := 30000
  analysisTtl : Nat := 300000
  cacheCapacity : Nat := 256
  /-- The time each provider gets, in place of the usual one. -/
  attemptTimeout : Option UInt64 := none
  deriving DecidableEq, Repr, Inhabited

/-- A cache for each kind of action that is cached. -/
structure Caches where
  completions : Cache Fingerprint Answer
  refactorings : Cache Fingerprint Answer
  diagnoses : Cache Fingerprint Answer
  reviews : Cache Fingerprint Answer

namespace Caches

def empty (capacity : Nat) : Caches :=
  ⟨.empty capacity, .empty capacity, .empty capacity, .empty capacity⟩

def of? (c : Caches) : Action → Option (Cache Fingerprint Answer)
  | .completion => some c.completions
  | .refactor => some c.refactorings
  | .diagnosis => some c.diagnoses
  | .review => some c.reviews
  | .generation => none

def set (c : Caches) (action : Action) (cache : Cache Fingerprint Answer) : Caches :=
  match action with
  | .completion => { c with completions := cache }
  | .refactor => { c with refactorings := cache }
  | .diagnosis => { c with diagnoses := cache }
  | .review => { c with reviews := cache }
  | .generation => c

def map (c : Caches) (f : Cache Fingerprint Answer → Cache Fingerprint Answer) : Caches :=
  ⟨f c.completions, f c.refactorings, f c.diagnoses, f c.reviews⟩

def get (c : Caches) (now : Nat) (f : Fingerprint) : Option Answer × Caches :=
  match c.of? f.action with
  | some cache =>
    let (found, cache) := cache.get now f
    (found, c.set f.action cache)
  | none => (none, c)

def put (c : Caches) (now : Nat) (f : Fingerprint) (answer : Answer) (ttl : Nat) : Caches :=
  match c.of? f.action with
  | some cache => c.set f.action (cache.put now f answer ttl)
  | none => c

def toJson (c : Caches) : Json :=
  .object [("completions", c.completions.stats.toJson),
    ("refactors", c.refactorings.stats.toJson), ("diagnoses", c.diagnoses.stats.toJson),
    ("reviews", c.reviews.stats.toJson)]

end Caches

/-- `AssistRuntime` and `OrchestrationContext`: a project with its providers, caches and tickets. -/
structure Session where
  store : Store
  chain : Chain
  toolchain : Toolchain
  prompts : Prompt.Config
  tuning : Tuning
  /-- The identifier of the request with a ticket. It is drawn at random, so any will do. -/
  requestId : Ticket → String
  /-- Milliseconds since the session began. -/
  clock : Nat
  tally : Tally
  gate : Gate
  caches : Caches
  /-- How often something was compiled. -/
  compiles : Nat
  /-- How often something was run. -/
  runs : Nat

namespace Session

def start (store : Store) (chain : Chain) (toolchain : Toolchain) (prompts : Prompt.Config)
    (tuning : Tuning) (requestId : Ticket → String) : Session :=
  { store, chain, toolchain, prompts, tuning, requestId
    clock := 0
    tally := .start chain
    gate := .fresh
    caches := .empty tuning.cacheCapacity
    compiles := 0
    runs := 0 }

def onStore (s : Session) (f : Store → ε × Store) : ε × Session :=
  let (result, store) := f s.store
  (result, { s with store })

/-- `reply_language`: the tag that code in replies has. -/
def replyLanguage (s : Session) : String :=
  Prompt.fenceTag s.prompts.language

/-- `options_for`: the options of a call for a kind of action. -/
def optionsFor (s : Session) (action : Action) : Options :=
  let options := Options.forAction action
  { options with timeoutMs := s.tuning.attemptTimeout.getD options.timeoutMs }

/-- How long an answer to a kind of action may be given again. -/
def ttlOf (s : Session) : Action → Nat
  | .completion => s.tuning.completionTtl
  | _ => s.tuning.analysisTtl

/-! ## 3. The steps of a request -/

structure Job where
  request : Request
  ticket : Ticket
  fingerprint : Option Fingerprint
  call : Call

/-- What becomes of a request at first. -/
inductive Admission where
  /-- It is answered from the cache. -/
  | hit (answer : Answer)
  /-- It goes along the chain. -/
  | dispatched (job : Job)
  /-- It ends because its prompt cannot be built. -/
  | panicked (panic : Prompt.Panic)

/-- The beginning of `run`: takes a ticket, looks the request up and builds its prompt. -/
def enter (s : Session) (request : Request) : Admission × Session :=
  let (ticket, gate) := s.gate.issue request.action
  let view := s.store.view
  let fingerprint := Fingerprint.ofRequest? request view
  let (found, caches) := match fingerprint with
    | some f => s.caches.get s.clock f
    | none => (none, s.caches)
  match found with
  | some answer => (.hit answer, { s with gate := gate.finish ticket, caches })
  | none =>
    match Prompt.build s.prompts request view with
    | .error panic => (.panicked panic, { s with gate, caches })
    | .ok prompt =>
      let call : Call :=
        { requestId := s.requestId ticket
          prompt
          options := s.optionsFor request.action }
      (.dispatched ⟨request, ticket, fingerprint, call⟩, { s with gate, caches })

structure Served where
  answer : Answer
  reply : Reply
  attempts : List Attempt

/-- Ends a request when its chain has ended: a ticket that no longer holds gives nothing, and an
answer is cached. -/
def settle (s : Session) (job : Job) (ending : Ending Answer) :
    Except AssistError Served × Session :=
  if s.gate.isCurrent job.ticket then
    let s := { s with gate := s.gate.finish job.ticket }
    match ending with
    | .answered answer reply attempts =>
      let caches := match job.fingerprint with
        | some f => s.caches.put s.clock f answer (s.ttlOf job.request.action)
        | none => s.caches
      (.ok ⟨answer, reply, attempts⟩, { s with caches })
    | .cancelled _ => (.error (.superseded job.request.action), s)
    | .exhausted failure => (.error (.exhausted failure), s)
  else (.error (.superseded job.request.action), s)

/-- `log_interaction`: the log entry of an answered request, unless it is a completion. -/
def exchangeOf? (job : Job) (served : Served) (now : Moment) :
    Option (Store.Update StoreError Unit) :=
  if job.request.action = .completion then none
  else
    let metadata : Table Json :=
      Table.empty
        |>.put "request_id" (.text job.call.requestId)
        |>.put "provider" (.text served.reply.provider)
        |>.put "attempts" (.array (served.attempts.map Attempt.toJson))
    some (.exchange job.request.action job.call.prompt.user served.reply.text metadata now)

/-- The request to diagnose the last error of the build, if there is one. -/
def lastErrorRequest? (s : Session) : Option Request :=
  let view := s.store.view
  view.editing.lastError.map fun error =>
    .diagnosis error ((view.openFile.map (·.content)).getD "")

/-! ## 4. Upkeep -/

def clearCaches (s : Session) : Session :=
  { s with caches := s.caches.map (·.clear) }

def retire (s : Session) : Session :=
  { s with gate := s.gate.cancelAll, caches := s.caches.map (·.evict s.clock) }

def statsJson (s : Session) : Json :=
  .object [("memory", s.store.stats.toJson), ("cache", s.caches.toJson),
    ("providers", Json.ofTexts s.chain.names)]

end Session

end CodeAssist
