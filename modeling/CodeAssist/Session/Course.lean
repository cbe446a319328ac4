import CodeAssist.Session.Basic

/-!
Courses: operations on a session, with the places where they pause.

Between two pauses an operation goes on without a break. It pauses when it waits for an instant,
when it needs a turn to change the store, and while the store is written. One operation has the
turn at a time, so that changes of the store are written one after the other.

`Course.run` goes through a course with nothing else going on. There a pause is only a step:
`Course.run_bind` says that courses then run one after the other, and `Course.run_update` that an
update of the store is the update the store makes by itself.
-/

namespace CodeAssist

/-! ## 1. Pauses -/

/-- Where an operation pauses, with the session as it leaves it. -/
inductive Pause (α : Type) where
  /-- It has ended. -/
  | ended (value : α) (s : Session)
  /-- It needs the turn, and gives it back at its next pause if that is no write. -/
  | turn (s : Session) (next : Session → Pause α)
  /-- It has changed the store and has it written. It gives the turn back after that. -/
  | write (s : Session) (next : Except StoreError Unit → Session → Pause α)
  /-- It waits for an instant, or until its ticket is cancelled. -/
  | wait (wakeAt : Nat) (ticket : Option Ticket) (s : Session) (next : Session → Pause α)

namespace Pause

def andThen (k : α → Session → Pause β) : Pause α → Pause β
  | ended value s => k value s
  | turn s next => .turn s fun s => (next s).andThen k
  | write s next => .write s fun result s => (next result s).andThen k
  | wait wakeAt ticket s next => .wait wakeAt ticket s fun s => (next s).andThen k

/-- Goes on to the end with nothing else going on. -/
def finish : Pause α → α × Session
  | ended value s => (value, s)
  | turn s next => (next s).finish
  | write s next =>
    let (result, s) := s.onStore (·.persist)
    (next result s).finish
  | wait wakeAt _ s next => (next { s with clock := max s.clock wakeAt }).finish

/-- The end of an operation that goes on with another is the end of the other. -/
theorem finish_andThen (p : Pause α) (k : α → Session → Pause β) :
    (p.andThen k).finish = (k p.finish.1 p.finish.2).finish := by
  induction p with
  | ended value s => rfl
  | turn s next ih => exact ih s
  | write s next ih => exact ih _ _
  | wait wakeAt ticket s next ih => exact ih _

end Pause

/-! ## 2. Courses -/

def Course (α : Type) : Type :=
  Session → Pause α

namespace Course

instance : Monad Course where
  pure value := fun s => .ended value s
  bind c k := fun s => (c s).andThen k

instance : MonadStateOf Session Course where
  get := fun s => .ended s s
  set s := fun _ => .ended ⟨⟩ s
  modifyGet f := fun s => .ended (f s).1 (f s).2

/-- Goes through a course with nothing else going on. -/
def run (c : Course α) (s : Session) : α × Session :=
  (c s).finish

def look (f : Session → α) : Course α :=
  fun s => .ended (f s) s

def act (f : Session → α × Session) : Course α :=
  fun s => .ended (f s).1 (f s).2

/-- Waits for some milliseconds, or until a ticket is cancelled. No time at all is no pause. -/
def rest (ms : Nat) (ticket : Option Ticket) : Course Unit :=
  fun s =>
    if ms = 0 then .ended () s
    else .wait (s.clock + ms) ticket s fun s => .ended () s

/-- Updates the store. What the update is to do is seen at once; it is done when there is a
turn. -/
def update (u : Store → Store.Update ε α) (now : Moment) : Course (Except ε α) :=
  fun s =>
    match u s.store with
    | .idle answer => .ended answer s
    | .change change answer failure =>
      .turn s fun s =>
        let store := s.store.changed now change
        .write { s with store } fun result s =>
          match result with
          | .ok () => .ended (.ok (answer store.memory)) s
          | .error e => .ended (.error (failure e)) s

def flush : Course (Except StoreError Unit) :=
  fun s =>
    .turn s fun s =>
      if s.store.dirty then .write s fun result s => .ended result s else .ended (.ok ()) s

/-! ## 3. Courses alone -/

@[simp] theorem run_pure (value : α) (s : Session) :
    (pure value : Course α).run s = (value, s) :=
  rfl

/-- With nothing else going on, one course runs after the other. -/
@[simp] theorem run_bind (c : Course α) (k : α → Course β) (s : Session) :
    (c >>= k).run s = (k (c.run s).1).run (c.run s).2 :=
  (c s).finish_andThen k

@[simp] theorem run_get (s : Session) : (get : Course Session).run s = (s, s) :=
  rfl

@[simp] theorem run_modify (f : Session → Session) (s : Session) :
    (modify f : Course Unit).run s = ((), f s) :=
  rfl

/-- What happens at once happens to the session as it is. -/
@[simp] theorem run_act (f : Session → α × Session) (s : Session) : (act f).run s = f s :=
  rfl

/-- Alone, a course wakes up when the time is over. -/
@[simp] theorem run_rest (ms : Nat) (ticket : Option Ticket) (s : Session) :
    (rest ms ticket).run s = ((), { s with clock := s.clock + ms }) := by
  unfold rest run
  split
  · subst_vars; rfl
  · simp [Pause.finish]

/-- Alone, a course updates the store as the store does itself. -/
theorem run_update (u : Store → Store.Update ε α) (now : Moment) (s : Session) :
    (update u now).run s = s.onStore fun store => store.update (u store) now := by
  simp only [update, run, Session.onStore, Store.update]
  cases u s.store with
  | idle answer => rfl
  | change change answer failure =>
    simp only [Pause.finish, Session.onStore]
    cases ((s.store.changed now change).persist).1 with
    | ok => rfl
    | error e => rfl

/-- Alone, a course writes the store as the store does itself. -/
theorem run_flush (s : Session) :
    flush.run s = ((s.store.flush.1).map fun _ => (), { s with store := s.store.flush.2 }) := by
  simp only [flush, run, Store.flush, Pause.finish]
  split
  · simp only [Pause.finish, Session.onStore]
    cases s.store.persist.1 with
    | ok => rfl
    | error e => rfl
  · rfl

end Course

end CodeAssist
