import CodeAssist.Provider.Basic

/-!
Chains of providers.

A call goes to the providers of a chain in order, until one gives a reply that is accepted. Each
gets the same time; one that fails, gives a reply that is refused, or stays silent for that time
is passed over. A cancelled call goes no further.

The clock is an ideal one. Time is counted in whole milliseconds, and passes only while a provider
is waited for: to accept a reply and to pass on to the next provider take none. A timer goes off at
its very deadline. Where two things fall on one instant, a reply comes before the timer and before
the cancellation, and the timer before the cancellation. On a real clock an answer that comes close
to a deadline or to a cancellation may fall on either side of it; what is proved about walks is
proved for the ideal one.
-/

namespace CodeAssist

/-! ## 1. Providers -/

inductive Conduct (α : Type) where
  /-- It succeeds or fails after some milliseconds. -/
  | answers (afterMs : Nat) (result : Except ProviderError α)
  /-- It never answers. -/
  | silent

/-- `timeout`: how long a provider takes and what comes of it, if it gets `limit` milliseconds. An
answer at the last moment counts. -/
def Conduct.within (limit : Nat) (late : ProviderError) :
    Conduct α → Nat × Except ProviderError α
  | answers afterMs result => if afterMs ≤ limit then (afterMs, result) else (limit, .error late)
  | silent => (limit, .error late)

/-- `ProviderAdapter`: a member of a chain. -/
structure Provider where
  name : String
  /-- Whether it needs no network. -/
  isLocal : Bool
  /-- What it does with a call, by the number of calls it had before. -/
  complete : Nat → Call → Conduct Reply
  /-- How many models it has, if it says so. -/
  health : Conduct (Option Nat)

abbrev Chain := List Provider

namespace Chain

def names (chain : Chain) : List String :=
  chain.map (·.name)

def endsLocal (chain : Chain) : Bool :=
  (chain.getLast?.map (·.isLocal)).getD false

end Chain

/-- How many calls each provider of a chain had. -/
abbrev Tally := List Nat

namespace Tally

def start (chain : Chain) : Tally :=
  chain.map fun _ => 0

def count (tally : Tally) (i : Nat) : Nat :=
  tally.getD i 0

def bump (tally : Tally) (i : Nat) : Tally :=
  tally.modify i (· + 1)

theorem count_bump (tally : Tally) (i j : Nat) :
    (tally.bump i).count j =
      if i = j ∧ j < tally.length then tally.count j + 1 else tally.count j := by
  unfold bump count
  rw [List.getD_eq_getElem?_getD, List.getD_eq_getElem?_getD, List.getElem?_modify]
  by_cases hj : j < tally.length
  · rw [List.getElem?_eq_getElem hj]
    by_cases hi : i = j <;> simp [hi, hj]
  · rw [List.getElem?_eq_none (Nat.not_lt.1 hj)]
    simp [hj]

end Tally

/-! ## 2. The walk -/

inductive Ending (α : Type) where
  | answered (value : α) (reply : Reply) (attempts : List Attempt)
  | exhausted (failure : Exhausted)
  | cancelled (attempts : List Attempt)

/-- When a walk is cancelled, in milliseconds from its start. -/
inductive Cancellation where
  | never
  /-- Before it begins. -/
  | atStart
  | after (ms : Nat)
  deriving DecidableEq, Repr

/-- `select!` over the cancellation: whether a walk is cancelled before something that happens at an
instant. What happens at the very instant of the cancellation comes first. -/
def Cancellation.precedes (instant : Nat) : Cancellation → Bool
  | never => false
  | atStart => true
  | after ms => ms < instant

abbrev Acceptance (α : Type) := Reply → Except ProviderError α

def Provider.late (p : Provider) (limit : Nat) : ProviderError :=
  .timeout s!"{p.name}: no reply within {limit}ms"

/-- How long a provider takes for a call and what comes of it. -/
def Provider.attempt (p : Provider) (accept : Acceptance α) (call : Call) (earlier : Nat) :
    Nat × Except ProviderError (α × Reply) :=
  let limit := call.options.timeoutMs.toNat
  let (took, outcome) := (p.complete earlier call).within limit (p.late limit)
  (took, do
    let reply ← outcome
    let value ← accept reply
    return (value, reply))

/-- What a walk comes to: how it ends, when, and how often each provider was called. -/
structure Walk (α : Type) where
  ending : Ending α
  elapsedMs : Nat
  tally : Tally

/-- The walk along the rest of a chain, `now` milliseconds after the start, with the attempts that
failed so far. -/
def walk (accept : Acceptance α) (call : Call) (cancel : Cancellation) :
    List (Provider × Nat) → Nat → List Attempt → Tally → Walk α
  | [], now, failed, tally => ⟨.exhausted ⟨failed⟩, now, tally⟩
  | (p, i) :: rest, now, failed, tally =>
    if cancel = .atStart then ⟨.cancelled failed, now, tally⟩
    else
      let (took, outcome) := p.attempt accept call (tally.count i)
      if cancel.precedes (now + took) then ⟨.cancelled failed, now, tally.bump i⟩
      else
        match outcome with
        | .ok (value, reply) =>
          ⟨.answered value reply (failed ++ [⟨p.name, took, none⟩]), now + took, tally.bump i⟩
        | .error e =>
          walk accept call cancel rest (now + took) (failed ++ [⟨p.name, took, some e⟩])
            (tally.bump i)

/-- `dispatch_with`: asks the providers of a chain one after the other. -/
def Chain.dispatch (chain : Chain) (accept : Acceptance α) (call : Call) (cancel : Cancellation)
    (tally : Tally) : Walk α :=
  walk accept call cancel chain.zipIdx 0 [] tally

def Ending.isCancelled : Ending α → Bool
  | cancelled _ => true
  | _ => false

/-- The walks of a call that is made several times, each beginning when the one before it ends,
`now` milliseconds after the first began. They share a cancellation: after a cancelled walk no
provider is asked any more. -/
def Chain.dispatchRepeatedly (chain : Chain) (accept : Acceptance α) (call : Call) :
    Nat → Cancellation → Nat → Tally → List (Ending α) × Tally
  | 0, _, _, tally => ([], tally)
  | times + 1, cancel, now, tally =>
    let w := walk accept call cancel chain.zipIdx now [] tally
    let cancel := if w.ending.isCancelled then .atStart else cancel
    let (later, tally) := chain.dispatchRepeatedly accept call times cancel w.elapsedMs w.tally
    (w.ending :: later, tally)

/-! ## 3. Health -/

/-- How long a provider may take to say how it is. -/
def healthLimitMs : Nat := 10000

def Provider.checkHealth (p : Provider) : Health :=
  let late := .timeout s!"{p.name}: no health reply within {healthLimitMs}ms"
  match p.health.within healthLimitMs late with
  | (took, .ok models) => ⟨p.name, true, models, none, took⟩
  | (took, .error e) => ⟨p.name, false, none, some e, took⟩

/-- `check_health`: how each provider of a chain is, asked one after the other. -/
def Chain.checkHealth (chain : Chain) : List Health :=
  chain.map Provider.checkHealth

end CodeAssist
