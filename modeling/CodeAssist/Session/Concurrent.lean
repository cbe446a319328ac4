import CodeAssist.Session.Course

/-!
Two courses side by side.

Of two courses that can go on, the front one goes first, up to its next pause. When neither can,
a write comes to its end; when nothing is written either, time moves on to the next instant that
one of them waits for. So a write takes no time, and a course that needs the turn while the other
has it gets it as soon as the other gives it back.
-/

namespace CodeAssist.Session

/-! ## 1. Courses that have begun -/

inductive Running (α : Type) where
  | ended (value : α)
  /-- It can go on. -/
  | ready (next : Session → Pause α)
  /-- It needs the turn, which the other has. -/
  | queued (next : Session → Pause α)
  /-- It needed the turn and has it now. -/
  | admitted (next : Session → Pause α)
  /-- It has the turn, and the store is written. -/
  | writing (next : Except StoreError Unit → Session → Pause α)
  /-- It waits for an instant, or until its ticket is cancelled. -/
  | waiting (wakeAt : Nat) (ticket : Option Ticket) (next : Session → Pause α)

namespace Running

def value? : Running α → Option α
  | ended value => some value
  | _ => none

def hasTurn : Running α → Bool
  | admitted _ | writing _ => true
  | _ => false

def letIn : Running α → Running α
  | queued next => .admitted next
  | r => r

def canGo (s : Session) : Running α → Bool
  | ready _ | admitted _ => true
  | waiting wakeAt ticket _ => wakeAt ≤ s.clock || ticket.any s.gate.isCancelled
  | _ => false

def isWriting : Running α → Bool
  | writing _ => true
  | _ => false

def wakeAt? : Running α → Option Nat
  | waiting wakeAt _ _ => some wakeAt
  | _ => none

/-- Where a course is at a pause. It takes the turn if it needs it and the turn is free. -/
def atPause (free : Bool) : Pause α → Running α × Session
  | .ended value s => (.ended value, s)
  | .turn s next => if free then atPause free (next s) else (.queued next, s)
  | .write s next => (.writing next, s)
  | .wait wakeAt ticket s next => (.waiting wakeAt ticket next, s)

/-- Both courses when one of them is at a pause and does not have the turn. -/
def beside (other : Running β) (p : Pause α) : Running α × Running β × Session :=
  let (r, s) := atPause (!other.hasTurn) p
  (r, other, s)

/-- Goes on with a course up to its next pause. A write comes to its end, and the other course is
let in. -/
def go (r : Running α) (other : Running β) (s : Session) : Running α × Running β × Session :=
  match r with
  | ready next | waiting _ _ next => beside other (next s)
  | admitted next =>
    match next s with
    | .write s next => (.writing next, other, s)
    | p => beside other.letIn p
  | writing next =>
    let (result, s) := s.onStore (·.persist)
    beside other.letIn (next result s)
  | ended _ | queued _ => (r, other, s)

end Running

/-! ## 2. Side by side -/

/-- Goes on with two courses until both have ended, or for some steps. -/
def together : Nat → Running α → Running β → Session → Running α × Running β × Session
  | 0, front, back, s => (front, back, s)
  | steps + 1, front, back, s =>
    if front.canGo s || !back.canGo s && front.isWriting then
      let (front, back, s) := front.go back s
      together steps front back s
    else if back.canGo s || back.isWriting then
      let (back, front, s) := back.go front s
      together steps front back s
    else
      match front.wakeAt?.merge min back.wakeAt? with
      | some wakeAt => together steps front back { s with clock := max s.clock wakeAt }
      | none => (front, back, s)

/-- More steps than two courses have. A course waits once for each provider and for its start, and
writes the store four times at most. -/
def stepsOfTwo (s : Session) : Nat :=
  8 * (s.chain.length + 8)

/-- Begins one course, begins another some milliseconds later, and goes on with both until both
have ended. Without any delay the second one comes first. -/
def overlap (first : Course α) (second : Course β) (delayMs : Nat) (s : Session) :
    Running α × Running β × Session :=
  let later : Course β := do
    Course.rest delayMs none
    second
  let (front, back, s) := together s.stepsOfTwo (.ready later) (.ready first) s
  (back, front, s)

end CodeAssist.Session
