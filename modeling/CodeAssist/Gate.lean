import CodeAssist.Action.Basic

/-!
At most one request of each kind of action is wanted at a time.

A request takes a ticket. A later request of the same kind takes over, and the ticket it replaces
is cancelled; closing the gate cancels all.
-/

namespace CodeAssist

/-- The right to answer a request. Numbers grow from one ticket to the next. -/
structure Ticket where
  action : Action
  number : Nat
  deriving DecidableEq, Repr, Inhabited

/-- `SupersedeGate`: the tickets that are in force, one at most for each kind. -/
structure Gate where
  /-- How many tickets were given out. -/
  issued : Nat
  /-- The number of the ticket in force for each kind. -/
  holder : Action → Option Nat
  /-- The numbers of the cancelled tickets. -/
  cancelled : List Nat

namespace Gate

def fresh : Gate :=
  ⟨0, fun _ => none, []⟩

/-- `begin`: gives out a ticket; the one it replaces is cancelled. -/
def issue (g : Gate) (action : Action) : Ticket × Gate :=
  let number := g.issued + 1
  (⟨action, number⟩,
   { issued := number
     holder := fun a => if a = action then some number else g.holder a
     cancelled := (g.holder action).toList ++ g.cancelled })

def isCurrent (g : Gate) (t : Ticket) : Bool :=
  g.holder t.action == some t.number

def isCancelled (g : Gate) (t : Ticket) : Bool :=
  g.cancelled.contains t.number

/-- Gives a ticket back; one that is no longer in force changes nothing. -/
def finish (g : Gate) (t : Ticket) : Gate :=
  if g.isCurrent t then
    { g with holder := fun a => if a = t.action then none else g.holder a }
  else g

/-- `cancel_all`: takes all tickets out of force. -/
def cancelAll (g : Gate) : Gate :=
  { g with
    holder := fun _ => none
    cancelled := Action.all.filterMap g.holder ++ g.cancelled }

end Gate

end CodeAssist
