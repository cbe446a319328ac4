import CodeAssist.Proofs.Session.Steps
import CodeAssist.Proofs.Store.Persistence

/-!
Requests side by side.

A pool is a session with any number of requests on their way. A schedule moves them in any order:
requests enter, go on from their pauses and hear from their chains, the session is shut down, and
anything else may happen to it in between. Whatever the schedule, a request that a later one of its
kind or a shutdown overtook on its way along the chain is superseded and leaves nothing behind, and
no other request is; what an answered request leaves in the log is one exchange, or nothing for a
completion (`requests_side_by_side`).
-/

namespace CodeAssist

open List Option

variable {way : Pause (Ending Answer)} {rest : Pause (Except AssistError Answer)}

/-! ## 1. Requests -/

namespace Pause

/-- The session as an operation leaves it at a pause. -/
def session : Pause α → Session
  | ended _ s | turn s _ | write s _ | wait _ _ s _ => s

/-- What an operation has come to, if it has ended. -/
def value? : Pause α → Option α
  | ended value _ => some value
  | _ => none

/-- Goes on from a pause. What is to be written is written now; nothing goes on from the end. -/
def resume? (s : Session) : Pause α → Option (Pause α)
  | ended _ _ => none
  | turn _ next | wait _ _ _ next => some (next s)
  | write _ next => some (next (s.onStore (·.persist)).1 (s.onStore (·.persist)).2)

/-- Every way on from a pause through sessions with `R` comes to an end, and with `P`. -/
inductive Leads (R : Session → Prop) (P : α → Prop) : Pause α → Prop
  | ended {value : α} {s : Session} (h : P value) : Leads R P (.ended value s)
  | turn {s : Session} {next : Session → Pause α} (h : ∀ s, R s → Leads R P (next s)) :
    Leads R P (.turn s next)
  | write {s : Session} {next : Except StoreError Unit → Session → Pause α}
    (h : ∀ result s, R s → Leads R P (next result s)) : Leads R P (.write s next)
  | wait {wakeAt : Nat} {ticket : Option Ticket} {s : Session} {next : Session → Pause α}
    (h : ∀ s, R s → Leads R P (next s)) : Leads R P (.wait wakeAt ticket s next)

theorem resume?_andThen {p : Pause α} (k : α → Session → Pause β) (s : Session)
    (h : p.value? = none) : (p.andThen k).resume? s = (p.resume? s).map (andThen k) := by
  cases p with
  | ended value t => cases h
  | turn t next => rfl
  | write t next => rfl
  | wait wakeAt ticket t next => rfl

end Pause

namespace Session

/-- Where a request is. -/
inductive Stage where
  /-- On its way along the chain. -/
  | asking (job : Job) (way : Pause (Ending Answer))
  /-- Answered or given up, and perhaps not logged yet. -/
  | closing (rest : Pause (Except AssistError Answer))

namespace Stage

def session : Stage → Session
  | asking _ way => way.session
  | closing rest => rest.session

/-- What a request has come to, if it has ended. -/
def result? : Stage → Option (Except AssistError Answer)
  | asking _ _ => none
  | closing rest => rest.value?

/-- The ticket of a request on its way along the chain. -/
def ticket? : Stage → Option Ticket
  | asking job _ => some job.ticket
  | closing _ => none

/-- A request that has entered. It has ended, or it is about to go along the chain. -/
def enter (request : Request) (s : Session) : Stage :=
  match s.enter request with
  | (.hit answer, s) => .closing (.ended (.ok answer) s)
  | (.panicked panic, s) => .closing (.ended (.error (.panicked panic)) s)
  | (.dispatched job, s) =>
    .asking job (.wait s.clock (some job.ticket) s fun s =>
      follow (request.accept s.replyLanguage) job s.chain.zipIdx [] s)

/-- A request whose way along the chain is at a pause, or has ended. -/
def onWay (job : Job) (now : Moment) : Pause (Ending Answer) → Stage
  | .ended ending s => .closing (conclude job ending now s)
  | way => .asking job way

def go? (now : Moment) (s : Session) : Stage → Option Stage
  | asking job way => (way.resume? s).map (onWay job now)
  | closing rest => (rest.resume? s).map .closing

/-- Ends the way of a request along the chain, whatever the chain does. It ends cancelled only if
the ticket is. -/
def reply? (now : Moment) (s : Session) (ending : Ending Answer) : Stage → Option Stage
  | asking job _ =>
    if ending.isCancelled && !s.gate.isCancelled job.ticket then none
    else some (.closing (conclude job ending now s))
  | closing _ => none

def course (now : Moment) : Stage → Pause (Except AssistError Answer)
  | asking job way => way.andThen fun ending s => conclude job ending now s
  | closing rest => rest

theorem course_onWay (job : Job) (now : Moment) (way : Pause (Ending Answer)) :
    (onWay job now way).course now = way.andThen fun ending s => conclude job ending now s := by
  cases way <;> rfl

/-- Going on with a request is going on with what is left of it. -/
theorem course_go? {stage : Stage} (now : Moment) (s : Session)
    (h : ∀ job way, stage = .asking job way → way.value? = none) :
    (stage.go? now s).map (course now) = (stage.course now).resume? s := by
  cases stage with
  | asking job way =>
    rw [course, Pause.resume?_andThen _ s (h job way rfl), go?, Option.map_map]
    exact congrArg (Option.map · _) (funext (course_onWay job now))
  | closing rest =>
    rw [go?, Option.map_map]
    exact map_id'

end Stage

/-- A request that enters and goes on at once is the course of a request. -/
theorem assist_course (request : Request) (now : Moment) (s : Session) :
    (Stage.enter request s).course now = assist request now s ∨
    ((Stage.enter request s).go? now (Stage.enter request s).session).map (Stage.course now) =
      some (assist request now s) := by
  rw [assist, Course.act_bind, Stage.enter]
  cases s.enter request with
  | mk admission t =>
    cases admission with
    | hit answer | panicked panic => exact .inl rfl
    | dispatched job =>
      refine .inr ?_
      rw [Stage.go?, Option.map_map]
      exact congrArg some (Stage.course_onWay job now _)

/-! ## 2. Pools -/

/-- What happens to a request on its way: another one enters, or the session is shut down. -/
inductive Rival where
  | request (action : Action)
  | shutdown
  deriving DecidableEq

/-- What one step made of a session. -/
structure Leg where
  before : Session
  after : Session

namespace Leg

def Quiet (l : Leg) : Prop :=
  l.after.store.memory.exchanges = l.before.store.memory.exchanges

/-- It left the exchanges as they were, and no answer is in the caches that was not there. -/
def Idle (l : Leg) : Prop :=
  l.Quiet ∧ l.after.caches.entries ⊆ l.before.caches.entries

def Logs (action : Action) (l : Leg) : Prop :=
  ∃ e : Exchange, e.action = action ∧
    l.after.store.memory.exchanges = latest 500 (l.before.store.memory.exchanges ++ [e])

end Leg

/-- A request with its history. -/
structure Task where
  request : Request
  now : Moment
  /-- Whether it was answered from the cache. -/
  hit : Bool
  /-- What happened while it was on its way along the chain. -/
  met : List Rival
  stage : Stage
  /-- Its own steps. -/
  legs : List Leg

/-- Whether a request is answered from the cache. -/
def Admission.isHit : Admission → Bool
  | .hit _ => true
  | .dispatched _ | .panicked _ => false

namespace Task

def enter (request : Request) (now : Moment) (s : Session) : Task :=
  { request, now
    hit := (s.enter request).1.isHit
    met := []
    stage := .enter request s
    legs := [⟨s, (Stage.enter request s).session⟩] }

def moved (t : Task) (s : Session) (stage : Stage) : Task :=
  { t with stage, legs := t.legs ++ [⟨s, stage.session⟩] }

/-- A request when something happens to those on their way. -/
def meet (rival : Rival) (t : Task) : Task :=
  match t.stage with
  | .asking _ _ => { t with met := t.met ++ [rival] }
  | .closing _ => t

/-- On its way a later request of its kind entered, or the session was shut down. -/
def Overtaken (t : Task) : Prop :=
  .request t.request.action ∈ t.met ∨ .shutdown ∈ t.met

/-- One of its steps logged an exchange of its kind, and no other step logged anything. -/
def LoggedOnce (t : Task) : Prop :=
  ∃ before l after, t.legs = before ++ l :: after ∧ l.Logs t.request.action ∧
    ∀ x ∈ before ++ after, x.Quiet

end Task

/-- Anything else that may happen to a session. It gives out no ticket and takes none back. -/
structure Elsewhere where
  change : Session → Session
  gate : ∀ s, (change s).gate = s.gate

/-- One move of a schedule. -/
inductive Move where
  | enter (request : Request) (now : Moment)
  | go (i : Nat)
  | reply (i : Nat) (ending : Ending Answer)
  | shutdown
  | other (e : Elsewhere)

/-- A session with requests on their way, in the order in which they entered. -/
structure Pool where
  session : Session
  tasks : List Task

variable {pool : Pool}

namespace Pool

/-- Makes a step of one request, if it can make it. -/
def own (pool : Pool) (i : Nat) (step : Task → Option Stage) : Pool :=
  match pool.tasks[i]? with
  | none => pool
  | some t =>
    match step t with
    | none => pool
    | some stage =>
      { session := stage.session, tasks := pool.tasks.set i (t.moved pool.session stage) }

def step (pool : Pool) : Move → Pool
  | .enter request now =>
    { session := (Stage.enter request pool.session).session
      tasks := pool.tasks.map (·.meet (.request request.action)) ++
        [.enter request now pool.session] }
  | .go i => pool.own i fun t => t.stage.go? t.now pool.session
  | .reply i ending => pool.own i fun t => t.stage.reply? t.now pool.session ending
  | .shutdown =>
    { session := pool.session.retire, tasks := pool.tasks.map (·.meet .shutdown) }
  | .other e => { pool with session := e.change pool.session }

def run (pool : Pool) (moves : List Move) : Pool :=
  moves.foldl step pool

end Pool

/-! ## 3. Own steps -/

namespace Task

/-- A request on its way. It has a ticket that is out, and the ticket is in force unless the request
was overtaken. -/
structure Asks (t : Task) (g : Gate) (job : Job) (way : Pause (Ending Answer)) : Prop where
  request : job.request = t.request
  action : job.ticket.action = t.request.action
  out : g.Out job.ticket
  current : g.isCurrent job.ticket = false ↔ t.Overtaken
  hit : t.hit = false
  waits : ∃ wakeAt awaited s next, way = .wait wakeAt awaited s next ∧
    ∀ s, Walks job.ticket s (next s)
  idle : ∀ l ∈ t.legs, l.Idle

/-- A request that a provider answered and that is to be logged. -/
structure Served (t : Task) : Prop where
  hit : t.hit = false
  free : ¬ t.Overtaken
  logged : t.request.action ≠ .completion

/-- A request that is answered or given up, and what is left of it. -/
inductive Closes (t : Task) : Pause (Except AssistError Answer) → Prop
  | found {answer : Answer} {s : Session} (hhit : t.hit = true) (hfree : ¬ t.Overtaken)
      (hquiet : ∀ l ∈ t.legs, l.Quiet) : t.Closes (.ended (.ok answer) s)
  | failed {e : AssistError} {s : Session} (hhit : t.hit = false) (hidle : ∀ l ∈ t.legs, l.Idle)
      (hovertaken : t.Overtaken → e = .superseded t.request.action)
      (hsuperseded : ∀ action, e = .superseded action → t.Overtaken) :
      t.Closes (.ended (.error e) s)
  | completed {answer : Answer} {s : Session} (hfree : ¬ t.Overtaken)
      (hcompletion : t.request.action = .completion) (hquiet : ∀ l ∈ t.legs, l.Quiet) :
      t.Closes (.ended (.ok answer) s)
  | logging {answer : Answer} {s : Session} {next : Session → Pause (Except AssistError Answer)}
      (hserved : t.Served) (hquiet : ∀ l ∈ t.legs, l.Quiet)
      (hnext : Logging t.request.action t.now answer next) : t.Closes (.turn s next)
  | writing {answer : Answer} {s : Session}
      {done : Except StoreError Unit → Session → Pause (Except AssistError Answer)}
      (hserved : t.Served) (honce : t.LoggedOnce)
      (hdone : ∀ result s, done result s = .ended (.ok answer) s) : t.Closes (.write s done)
  | logged {answer : Answer} {s : Session} (hserved : t.Served) (honce : t.LoggedOnce) :
      t.Closes (.ended (.ok answer) s)

def Sound (g : Gate) (t : Task) : Prop :=
  match t.stage with
  | .asking job way => t.Asks g job way
  | .closing rest => t.Closes rest

variable {t : Task} {s : Session} {stage : Stage} {job : Job}

theorem sound_asking {g : Gate} (h : t.stage = .asking job way) :
    t.Sound g ↔ t.Asks g job way := by
  rw [Sound, h]

theorem sound_closing {g : Gate} (h : t.stage = .closing rest) : t.Sound g ↔ t.Closes rest := by
  rw [Sound, h]

theorem forall_legs_moved {P : Leg → Prop} (h : ∀ l ∈ t.legs, P l) (hlast : P ⟨s, stage.session⟩) :
    ∀ l ∈ (t.moved s stage).legs, P l := by
  intro l hl
  rcases mem_append.1 hl with hold | hnew
  · exact h l hold
  · rw [mem_singleton.1 hnew]
    exact hlast

theorem loggedOnce_moved (h : ∀ l ∈ t.legs, l.Quiet)
    (hlast : Leg.Logs t.request.action ⟨s, stage.session⟩) : (t.moved s stage).LoggedOnce := by
  refine ⟨t.legs, ⟨s, stage.session⟩, [], rfl, hlast, ?_⟩
  rw [append_nil]
  exact h

theorem LoggedOnce.moved (h : t.LoggedOnce) (hlast : Leg.Quiet ⟨s, stage.session⟩) :
    (t.moved s stage).LoggedOnce := by
  obtain ⟨before, l, after, hlegs, hlogs, hquiet⟩ := h
  refine ⟨before, l, after ++ [⟨s, stage.session⟩], ?_, hlogs, ?_⟩
  · rw [Task.moved, hlegs, append_assoc, cons_append]
  · intro x hx
    rw [← append_assoc] at hx
    rcases mem_append.1 hx with hold | hnew
    · exact hquiet x hold
    · rw [mem_singleton.1 hnew]
      exact hlast

/-- A request whose chain has ended gives its ticket back. It is answered if its ticket is in force,
and else superseded. -/
theorem Asks.concluded {ending : Ending Answer} (h : t.Asks s.gate job way)
    (hcancelled : ending.isCancelled = true → s.gate.isCancelled job.ticket = true)
    (tally : Tally) :
    (t.moved s (.closing (conclude job ending t.now { s with tally }))).Closes
      (conclude job ending t.now { s with tally }) ∧
    (conclude job ending t.now { s with tally }).session.gate = s.gate.finish job.ticket := by
  rcases conclude_cases job ending t.now { s with tally } with
    ⟨e, hfailing, -, hconclude⟩ | ⟨hcurrent, answer, reply, attempts, -, hanswered⟩
  · rw [hconclude]
    refine ⟨.failed h.hit (forall_legs_moved h.idle ⟨rfl, Subset.refl _⟩) ?_ ?_, rfl⟩
    · intro hovertaken
      have hpast := hfailing.past (h.current.2 hovertaken)
      rw [h.request] at hpast
      exact hpast
    · intro action he
      rcases (hfailing.superseded action he).2 with hpast | hending
      · exact h.current.1 hpast
      -- a chain ends cancelled only when the ticket is, and then it is not in force
      · exact h.current.1 (h.out.cancelled (hcancelled hending))
  · have hfree : ¬ t.Overtaken := by
      intro hovertaken
      cases hcurrent.symm.trans (h.current.2 hovertaken)
    have hquiet : ∀ l ∈ t.legs, l.Quiet := fun l hl => (h.idle l hl).1
    rw [h.request] at hanswered
    rcases hanswered with ⟨hcompletion, hconclude⟩ | ⟨hlogged, next, hconclude, hnext⟩
    · rw [hconclude]
      exact ⟨.completed hfree hcompletion (forall_legs_moved hquiet rfl), rfl⟩
    · rw [hconclude]
      exact ⟨.logging ⟨h.hit, hfree, hlogged⟩ (forall_legs_moved hquiet rfl) hnext, rfl⟩

theorem exchanges_changed (store : Store) (now : Moment) (e : Exchange) :
    (store.changed now (·.logExchange e)).memory.exchanges =
      latest 500 (store.memory.exchanges ++ [e]) := by
  rw [Store.changed, Memory.touch, Memory.logExchange, exchangeLimit]

theorem Closes.resumed {rest' : Pause (Except AssistError Answer)} (h : t.Closes rest)
    (hresume : rest.resume? s = some rest') :
    (t.moved s (.closing rest')).Closes rest' ∧ rest'.session.gate = s.gate := by
  cases h with
  | found | failed | completed | logged => cases hresume
  | logging hserved hquiet hnext =>
    obtain ⟨e, haction, -, hwrite⟩ := hnext
    obtain ⟨done, hnext, hdone⟩ := hwrite s
    cases hresume
    rw [hnext]
    refine ⟨.writing ⟨hserved.hit, hserved.free, hserved.logged⟩ ?_ hdone, by rw [Pause.session]⟩
    exact loggedOnce_moved hquiet ⟨e, haction, exchanges_changed s.store t.now e⟩
  | writing hserved honce hdone =>
    cases hresume
    rw [hdone]
    refine ⟨.logged ⟨hserved.hit, hserved.free, hserved.logged⟩ (honce.moved ?_), rfl⟩
    exact congrArg Memory.exchanges (Store.persist_memory s.store)

/-- What a step of a request does to its ticket and the gate. -/
def Passes (before after : Stage) (g g' : Gate) : Prop :=
  after.ticket? = before.ticket? ∧ g' = g ∨
    after.ticket? = none ∧ ∃ ticket, before.ticket? = some ticket ∧ g' = g.finish ticket

/-- A task that goes on stays sound. -/
theorem Sound.go (h : t.Sound s.gate) (hgo : t.stage.go? t.now s = some stage) :
    (t.moved s stage).Sound stage.session.gate ∧
      Passes t.stage stage s.gate stage.session.gate := by
  cases hstage : t.stage with
  | asking job way =>
    have hasks := (sound_asking hstage).1 h
    obtain ⟨wakeAt, awaited, u, next, rfl, hwalks⟩ := hasks.waits
    rw [hstage] at hgo
    cases hgo
    have hwalk := hwalks s
    generalize next s = way at hwalk ⊢
    cases hwalk with
    | ended hcancelled =>
      obtain ⟨hcloses, hgate⟩ := hasks.concluded hcancelled _
      exact ⟨hcloses, .inr ⟨rfl, job.ticket, rfl, hgate⟩⟩
    | wait hnext =>
      refine ⟨?_, .inl ⟨rfl, rfl⟩⟩
      exact ⟨hasks.request, hasks.action, hasks.out, hasks.current, hasks.hit,
        ⟨_, _, _, _, rfl, hnext⟩, forall_legs_moved hasks.idle ⟨rfl, Subset.refl _⟩⟩
  | closing rest =>
    rw [hstage] at hgo
    obtain ⟨rest', hresume, rfl⟩ := map_eq_some_iff.1 hgo
    obtain ⟨hcloses, hgate⟩ := ((sound_closing hstage).1 h).resumed hresume
    exact ⟨hcloses, .inl ⟨rfl, hgate⟩⟩

theorem Sound.reply (h : t.Sound s.gate) {ending : Ending Answer}
    (hreply : t.stage.reply? t.now s ending = some stage) :
    (t.moved s stage).Sound stage.session.gate ∧
      Passes t.stage stage s.gate stage.session.gate := by
  cases hstage : t.stage with
  | asking job way =>
    rw [hstage, Stage.reply?] at hreply
    split at hreply
    · cases hreply
    · rename_i hallowed
      cases hreply
      have hcancelled : ending.isCancelled = true → s.gate.isCancelled job.ticket = true := by
        simpa using hallowed
      obtain ⟨hcloses, hgate⟩ := ((sound_asking hstage).1 h).concluded hcancelled s.tally
      exact ⟨hcloses, .inr ⟨rfl, job.ticket, rfl, hgate⟩⟩
  | closing rest =>
    rw [hstage] at hreply
    cases hreply

end Task

/-! ## 4. Other steps -/

namespace Task

variable {t : Task} {g g' : Gate}

theorem Asks.of_gate {job : Job} (h : t.Asks g job way) (hout : g'.Out job.ticket)
    (hcurrent : g'.isCurrent job.ticket = g.isCurrent job.ticket) :
    t.Asks g' job way :=
  ⟨h.request, h.action, hout, hcurrent ▸ h.current, h.hit, h.waits, h.idle⟩

theorem Sound.finish (h : t.Sound g) {u : Ticket}
    (hother : ∀ ticket, t.stage.ticket? = some ticket → ticket.number ≠ u.number) :
    t.Sound (g.finish u) := by
  cases hstage : t.stage with
  | asking job way =>
    have hasks := (sound_asking hstage).1 h
    rw [hstage] at hother
    obtain ⟨hout, hcurrent⟩ := hasks.out.finish (hother job.ticket rfl)
    exact (sound_asking hstage).2 (hasks.of_gate hout hcurrent)
  | closing rest => exact (sound_closing hstage).2 ((sound_closing hstage).1 h)

theorem meet_asking {job : Job} (h : t.stage = .asking job way) (rival : Rival) :
    t.meet rival = { t with met := t.met ++ [rival] } := by
  rw [meet, h]

theorem meet_closing (h : t.stage = .closing rest) (rival : Rival) : t.meet rival = t := by
  rw [meet, h]

theorem ticket?_meet (t : Task) (rival : Rival) :
    (t.meet rival).stage.ticket? = t.stage.ticket? := by
  rw [meet]
  split <;> rfl

theorem Sound.meet {rival : Rival} (h : t.Sound g)
    (hasks : ∀ job way, t.Asks g job way →
      g'.Out job.ticket ∧ (g'.isCurrent job.ticket = false ↔
        ({ t with met := t.met ++ [rival] } : Task).Overtaken)) :
    (t.meet rival).Sound g' := by
  cases hstage : t.stage with
  | asking job way =>
    have h := (sound_asking hstage).1 h
    obtain ⟨hout, hcurrent⟩ := hasks job way h
    rw [meet_asking hstage]
    refine (sound_asking (t := { t with met := t.met ++ [rival] }) hstage).2 ?_
    exact ⟨h.request, h.action, hout, hcurrent, h.hit, h.waits, h.idle⟩
  | closing rest =>
    rw [meet_closing hstage]
    exact (sound_closing hstage).2 ((sound_closing hstage).1 h)

theorem Sound.issue (h : t.Sound g) (action : Action) :
    (t.meet (.request action)).Sound (g.issue action).2 := by
  refine h.meet fun job way hasks => ?_
  obtain ⟨hout, hcurrent⟩ := hasks.out.issue action
  refine ⟨hout, ?_⟩
  have hmet : ({ t with met := t.met ++ [.request action] } : Task).Overtaken ↔
      t.Overtaken ∨ t.request.action = action := by
    simp only [Overtaken, mem_append, mem_singleton, Rival.request.injEq, reduceCtorEq,
      or_false]
    exact or_right_comm
  rw [hmet, ← hasks.current, ← hasks.action, ← Bool.not_eq_true, ← Bool.not_eq_true, hcurrent,
    not_and_or, not_not]

theorem Sound.cancelAll (h : t.Sound g) : (t.meet .shutdown).Sound g.cancelAll := by
  refine h.meet fun job way hasks => ?_
  obtain ⟨hout, hcurrent⟩ := hasks.out.cancelAll
  have hmet : ({ t with met := t.met ++ [.shutdown] } : Task).Overtaken :=
    .inr (mem_append_right _ mem_cons_self)
  exact ⟨hout, iff_of_true hcurrent hmet⟩

theorem Sound.issued (h : t.Sound g) {ticket : Ticket} (hticket : t.stage.ticket? = some ticket) :
    ticket.number ≤ g.issued := by
  cases hstage : t.stage with
  | asking job way =>
    rw [hstage] at hticket
    cases hticket
    exact ((sound_asking hstage).1 h).out.issued
  | closing rest =>
    rw [hstage] at hticket
    cases hticket

/-- Entering takes a new ticket, and gives it back at once where the request ends with that. -/
theorem sound_enter {s : Session} (h : s.gate.Bounded) (request : Request) (now : Moment) :
    (Task.enter request now s).Sound (Stage.enter request s).session.gate ∧
      ((Stage.enter request s).ticket? = none ∧ (Stage.enter request s).session.gate =
          (s.gate.issue request.action).2.finish (s.gate.issue request.action).1 ∨
        (∀ x, (Stage.enter request s).ticket? = some x → x = (s.gate.issue request.action).1) ∧
          (Stage.enter request s).session.gate = (s.gate.issue request.action).2) := by
  rw [Sound, Task.enter, Stage.enter]
  have hidle : ∀ gate, ∀ l ∈ [Leg.mk s { s with gate, caches := s.lookedUp request }], l.Idle := by
    intro gate l hl
    rw [mem_singleton.1 hl]
    exact ⟨rfl, s.entries_lookedUp request⟩
  rcases s.enter_cases request with ⟨answer, -, henter⟩ |
    ⟨job, -, henter, hrequest, hticket, -⟩ | ⟨-, -, henter⟩
  · rw [henter]
    exact ⟨.found rfl (by simp [Overtaken]) (by simp [Leg.Quiet, Stage.session, Pause.session]),
      .inl ⟨rfl, rfl⟩⟩
  · obtain ⟨hout, hcurrent⟩ := h.out_issue request.action
    rw [henter]
    refine ⟨⟨hrequest, ?_, ?_, ?_, rfl, ⟨_, _, _, _, rfl, fun s => follow_walks _ _ _ _ s⟩,
      hidle _⟩, .inr ⟨fun x hx => (some.inj hx).symm.trans hticket, rfl⟩⟩
    · rw [hticket]
      rfl
    · rw [hticket]
      exact hout
    · rw [hticket]
      refine iff_of_false ?_ (by simp [Overtaken])
      exact fun hpast => Bool.false_ne_true (hpast.symm.trans hcurrent)
  · rw [henter]
    refine ⟨.failed rfl (hidle _) (fun hovertaken => ?_) (fun _ hsuperseded => ?_),
      .inr ⟨fun x hx => ?_, rfl⟩⟩
    · rcases hovertaken with hmet | hmet <;> cases hmet
    · cases hsuperseded
    · cases hx

end Task

/-! ## 5. Runs -/

namespace Pool

/-- Every request is as it should be, and no two of them have one ticket. -/
structure Sound (pool : Pool) : Prop where
  bounded : pool.session.gate.Bounded
  tasks : ∀ t ∈ pool.tasks, t.Sound pool.session.gate
  apart : ∀ (i k : Nat) (t u : Task) (x y : Ticket), pool.tasks[i]? = some t →
    pool.tasks[k]? = some u → t.stage.ticket? = some x → u.stage.ticket? = some y →
    x.number = y.number → i = k

theorem getElem?_set_cases {tasks : List Task} {i k : Nat} {t u : Task}
    (h : (tasks.set i t)[k]? = some u) : k = i ∧ u = t ∨ k ≠ i ∧ tasks[k]? = some u := by
  rw [getElem?_set] at h
  split at h
  · rename_i hsame
    split at h
    · exact .inl ⟨hsame.symm, (some.inj h).symm⟩
    · cases h
  · rename_i hother
    exact .inr ⟨Ne.symm hother, h⟩

/-- A pool stays sound when one of its tasks makes a step that keeps the task sound. -/
theorem Sound.own (h : pool.Sound) (i : Nat) {step : Task → Option Stage}
    (hstep : ∀ t stage, t.Sound pool.session.gate → step t = some stage →
      (t.moved pool.session stage).Sound stage.session.gate ∧
        Task.Passes t.stage stage pool.session.gate stage.session.gate) :
    (pool.own i step).Sound := by
  rw [Pool.own]
  cases ht : pool.tasks[i]? with
  | none => exact h
  | some t =>
    dsimp only
    cases hstage : step t with
    | none => exact h
    | some stage =>
      obtain ⟨hmoved, hpasses⟩ := hstep t stage (h.tasks t (mem_of_getElem? ht)) hstage
      refine ⟨?_, ?_, ?_⟩
      · rcases hpasses with ⟨-, hgate⟩ | ⟨-, ticket, -, hgate⟩
        · exact hgate ▸ h.bounded
        · exact hgate ▸ h.bounded.finish ticket
      · intro u hu
        obtain ⟨k, hk⟩ := getElem?_of_mem hu
        rcases getElem?_set_cases hk with ⟨-, rfl⟩ | ⟨hother, hold⟩
        · exact hmoved
        · have hsound := h.tasks u (mem_of_getElem? hold)
          dsimp only
          rcases hpasses with ⟨-, hgate⟩ | ⟨-, ticket, hticket, hgate⟩
          · rw [hgate]
            exact hsound
          · rw [hgate]
            refine hsound.finish fun x hx hnumber => ?_
            exact hother (h.apart k i u t x ticket hold ht hx hticket hnumber)
      · intro j k u v x y hu hv hx hy hnumber
        -- the request that moved has its ticket still, or none
        have hbefore : ∀ (n : Nat) (w : Task) (z : Ticket),
            (pool.tasks.set i (t.moved pool.session stage))[n]? = some w →
            w.stage.ticket? = some z → ∃ w', pool.tasks[n]? = some w' ∧
              w'.stage.ticket? = some z := by
          intro n w z hw hz
          rcases getElem?_set_cases hw with ⟨rfl, rfl⟩ | ⟨-, hold⟩
          · rcases hpasses with ⟨hticket, -⟩ | ⟨hticket, -⟩
            · exact ⟨t, ht, hticket.symm.trans hz⟩
            · cases hticket.symm.trans hz
          · exact ⟨w, hold, hz⟩
        obtain ⟨u', hu', hx'⟩ := hbefore j u x hu hx
        obtain ⟨v', hv', hy'⟩ := hbefore k v y hv hy
        exact h.apart j k u' v' x y hu' hv' hx' hy' hnumber

theorem Sound.meet (h : pool.Sound) (rival : Rival) :
    ∀ (i k : Nat) (t u : Task) (x y : Ticket), (pool.tasks.map (·.meet rival))[i]? = some t →
    (pool.tasks.map (·.meet rival))[k]? = some u → t.stage.ticket? = some x →
    u.stage.ticket? = some y → x.number = y.number → i = k := by
  intro i k t u x y ht hu hx hy hnumber
  rw [getElem?_map] at ht hu
  obtain ⟨t', ht', rfl⟩ := map_eq_some_iff.1 ht
  obtain ⟨u', hu', rfl⟩ := map_eq_some_iff.1 hu
  rw [Task.ticket?_meet] at hx hy
  exact h.apart i k t' u' x y ht' hu' hx hy hnumber

/-- A request that enters keeps a pool sound. -/
theorem Sound.enter (h : pool.Sound) (request : Request) (now : Moment) :
    (pool.step (.enter request now)).Sound := by
  obtain ⟨hnew, hgate⟩ := Task.sound_enter h.bounded request now
  have hbounded := h.bounded.issue request.action
  -- nobody has the ticket that is given out now
  have hfresh : ∀ t ∈ pool.tasks.map (Task.meet (.request request.action)), ∀ x,
      t.stage.ticket? = some x → x.number ≠ (pool.session.gate.issue request.action).1.number := by
    intro t ht x hx
    obtain ⟨u, hu, rfl⟩ := mem_map.1 ht
    rw [Task.ticket?_meet] at hx
    exact Nat.ne_of_lt (Nat.lt_succ_of_le ((h.tasks u hu).issued hx))
  have hmet : ∀ t ∈ pool.tasks.map (Task.meet (.request request.action)),
      t.Sound (pool.session.gate.issue request.action).2 := by
    intro t ht
    obtain ⟨u, hu, rfl⟩ := mem_map.1 ht
    exact (h.tasks u hu).issue request.action
  have hlast : ∀ (i : Nat) (t : Task) (x : Ticket),
      (pool.step (.enter request now)).tasks[i]? = some t → t.stage.ticket? = some x →
      (pool.tasks.map (Task.meet (.request request.action)))[i]? = some t ∨
        i = pool.tasks.length ∧ x = (pool.session.gate.issue request.action).1 := by
    intro i t x ht hx
    change (pool.tasks.map _ ++ [Task.enter request now pool.session])[i]? = some t at ht
    rw [getElem?_append, length_map] at ht
    split at ht
    · exact .inl ht
    · obtain ⟨hbound, hentered⟩ := List.getElem?_eq_some_iff.1 ht
      rw [length_singleton] at hbound
      rw [getElem_singleton] at hentered
      refine .inr ⟨by omega, ?_⟩
      rw [← hentered] at hx
      rcases hgate with ⟨hnone, -⟩ | ⟨hticket, -⟩
      · cases hnone.symm.trans hx
      · exact hticket x hx
  refine ⟨?_, ?_, ?_⟩
  · rcases hgate with ⟨-, hgate⟩ | ⟨-, hgate⟩
    · exact hgate ▸ hbounded.finish _
    · exact hgate ▸ hbounded
  · intro t ht
    rcases mem_append.1 ht with hold | hlast
    · rcases hgate with ⟨-, hgate⟩ | ⟨-, hgate⟩
      · exact hgate ▸ (hmet t hold).finish (hfresh t hold)
      · exact hgate ▸ hmet t hold
    · rw [mem_singleton.1 hlast]
      exact hnew
  · intro i k t u x y ht hu hx hy hnumber
    rcases hlast i t x ht hx with hi | ⟨rfl, rfl⟩
    · rcases hlast k u y hu hy with hk | ⟨-, rfl⟩
      · exact h.meet _ i k t u x y hi hk hx hy hnumber
      · exact absurd hnumber (hfresh t (mem_of_getElem? hi) x hx)
    · rcases hlast k u y hu hy with hk | ⟨rfl, -⟩
      · exact absurd hnumber.symm (hfresh u (mem_of_getElem? hk) y hy)
      · rfl

theorem Sound.step (h : pool.Sound) (move : Move) : (pool.step move).Sound := by
  cases move with
  | enter request now => exact h.enter request now
  | go i => exact h.own i fun t stage ht hgo => ht.go hgo
  | reply i ending => exact h.own i fun t stage ht hreply => ht.reply hreply
  | shutdown =>
    refine ⟨h.bounded.cancelAll, fun t ht => ?_, h.meet .shutdown⟩
    obtain ⟨u, hu, rfl⟩ := mem_map.1 ht
    exact (h.tasks u hu).cancelAll
  | other e =>
    refine ⟨?_, fun t ht => ?_, h.apart⟩
    · exact (e.gate pool.session).symm ▸ h.bounded
    · exact (e.gate pool.session).symm ▸ h.tasks t ht

theorem Sound.run (h : pool.Sound) (moves : List Move) : (pool.run moves).Sound := by
  induction moves generalizing pool with
  | nil => exact h
  | cons move rest ih => exact ih (h.step move)

def start (s : Session) : Pool :=
  ⟨s, []⟩

theorem sound_start {s : Session} (h : s.gate = .fresh) : (start s).Sound := by
  refine ⟨?_, ?_, ?_⟩
  · rw [start, h]
    exact Gate.bounded_fresh
  · intro t ht
    cases ht
  · intro i k t u x y ht
    rw [start, getElem?_nil] at ht
    cases ht

end Pool

/-! ## 6. The main statement -/

/-- What is left of a request whose ticket is no longer in force ends superseded. -/
theorem Walks.leads {job : Job} {s : Session} (now : Moment) (h : Walks job.ticket s way)
    (hpast : s.gate.isCurrent job.ticket = false) :
    (way.andThen fun ending s => conclude job ending now s).Leads
      (fun s => s.gate.isCurrent job.ticket = false)
      (· = .error (.superseded job.request.action)) := by
  induction h with
  | @ended t tally ending _ =>
    rw [Pause.andThen]
    rcases conclude_cases job ending now { t with tally } with
      ⟨e, hfailing, -, hconclude⟩ | ⟨hcurrent, -⟩
    · rw [hconclude, hfailing.past hpast]
      exact .ended rfl
    · cases hcurrent.symm.trans hpast
  | wait _ ih => exact .wait ih

/-- What becomes of a request. -/
structure Task.Orderly (g : Gate) (t : Task) : Prop where
  /-- Overtaken, it is superseded, or it is still on its way and will be, whichever way that is. -/
  superseded : t.hit = false → t.Overtaken →
    t.stage.result? = some (.error (.superseded t.request.action)) ∨
    ∃ job way, t.stage = .asking job way ∧ g.isCurrent job.ticket = false ∧
      (t.stage.course t.now).Leads (fun s => s.gate.isCurrent job.ticket = false)
        (· = .error (.superseded t.request.action))
  /-- Overtaken, it leaves nothing behind. -/
  nothing : t.Overtaken → ∀ l ∈ t.legs, l.Idle
  /-- It is not superseded by a request of another kind. -/
  only : ∀ action, t.stage.result? = some (.error (.superseded action)) →
    action = t.request.action ∧ t.Overtaken
  /-- Answered by a provider, it is logged once, unless it is a completion. -/
  served : t.hit = false → ∀ answer, t.stage.result? = some (.ok answer) →
    if t.request.action = .completion then ∀ l ∈ t.legs, l.Quiet else t.LoggedOnce
  /-- Answered from the cache, it is not logged. -/
  found : t.hit = true → ∀ l ∈ t.legs, l.Quiet
  /-- Not answered, it is not logged. -/
  failed : ∀ e, t.stage.result? = some (.error e) → ∀ l ∈ t.legs, l.Quiet

theorem Task.Asks.orderly {t : Task} {g : Gate} {job : Job} (h : t.Asks g job way)
    (hstage : t.stage = .asking job way) : t.Orderly g := by
  have hresult : t.stage.result? = none := by
    rw [hstage]
    rfl
  have hquiet : ∀ l ∈ t.legs, l.Quiet := fun l hl => (h.idle l hl).1
  refine ⟨fun _ hovertaken => .inr ⟨job, way, hstage, h.current.2 hovertaken, ?_⟩, fun _ => h.idle,
    ?_, ?_, fun _ => hquiet, fun _ _ => hquiet⟩
  · obtain ⟨wakeAt, awaited, s, next, rfl, hwalks⟩ := h.waits
    rw [hstage, ← h.request]
    exact .wait fun s hpast => (hwalks s).leads t.now hpast
  · intro action hsuperseded
    cases hresult.symm.trans hsuperseded
  · intro _ answer hok
    cases hresult.symm.trans hok

theorem Task.orderly_of_free {t : Task} (g : Gate) (hstage : t.stage = .closing rest)
    (hfree : ¬ t.Overtaken) (hgood : ∀ e, rest.value? ≠ some (.error e))
    (hserved : t.hit = false → ∀ answer, rest.value? = some (.ok answer) →
      if t.request.action = .completion then ∀ l ∈ t.legs, l.Quiet else t.LoggedOnce)
    (hfound : t.hit = true → ∀ l ∈ t.legs, l.Quiet) : t.Orderly g := by
  have hresult : t.stage.result? = rest.value? := by
    rw [hstage]
    rfl
  rw [← hresult] at hgood hserved
  exact ⟨fun _ h => absurd h hfree, fun h => absurd h hfree, fun _ h => absurd h (hgood _), hserved,
    hfound, fun e h => absurd h (hgood e)⟩

/-- A request that is closing is in order, whatever the gate. -/
theorem Task.Closes.orderly {t : Task} (g : Gate) (h : t.Closes rest)
    (hstage : t.stage = .closing rest) : t.Orderly g := by
  cases h with
  | found hhit hfree hquiet =>
    refine orderly_of_free g hstage hfree nofun (fun hmiss => ?_) fun _ => hquiet
    cases hhit.symm.trans hmiss
  | @failed e s hhit hidle hovertaken hsuperseded =>
    have hresult : t.stage.result? = some (.error e) := by
      rw [hstage]
      rfl
    have hquiet : ∀ l ∈ t.legs, l.Quiet := fun l hl => (hidle l hl).1
    refine ⟨fun _ h => .inl ?_, fun _ => hidle, ?_, ?_, fun _ => hquiet, fun _ _ => hquiet⟩
    · rw [hresult, hovertaken h]
    · intro action haction
      cases hresult.symm.trans haction
      have hover := hsuperseded action rfl
      cases hovertaken hover
      exact ⟨rfl, hover⟩
    · intro _ answer hok
      cases hresult.symm.trans hok
  | completed hfree hcompletion hquiet =>
    refine orderly_of_free g hstage hfree nofun (fun _ _ _ => ?_) fun _ => hquiet
    rw [if_pos hcompletion]
    exact hquiet
  | logging hserved hquiet hnext =>
    refine orderly_of_free g hstage hserved.free nofun (fun _ _ h => ?_) fun _ => hquiet
    cases h
  | writing hserved honce hdone =>
    refine orderly_of_free g hstage hserved.free nofun (fun _ _ h => ?_) fun hhit => ?_
    · cases h
    · cases hserved.hit.symm.trans hhit
  | logged hserved honce =>
    refine orderly_of_free g hstage hserved.free nofun (fun _ _ _ => ?_) fun hhit => ?_
    · rw [if_neg hserved.logged]
      exact honce
    · cases hserved.hit.symm.trans hhit

/-- Whatever the schedule, every request of a session is treated in order. -/
theorem requests_side_by_side (store : Store) (chain : Chain) (toolchain : Toolchain)
    (prompts : Prompt.Config) (tuning : Tuning) (requestId : Ticket → String)
    (moves : List Move) :
    let pool := (Pool.start (.start store chain toolchain prompts tuning requestId)).run moves
    ∀ t ∈ pool.tasks, t.Orderly pool.session.gate := by
  intro pool t ht
  have hstart : (Pool.start (.start store chain toolchain prompts tuning requestId)).Sound :=
    Pool.sound_start rfl
  have hsound := (hstart.run moves).tasks t ht
  cases hstage : t.stage with
  | asking job way => exact ((Task.sound_asking hstage).1 hsound).orderly hstage
  | closing rest => exact ((Task.sound_closing hstage).1 hsound).orderly _ hstage

def bareSession : Session :=
  .start ⟨[], .fresh [] .epoch, false, ⟨.directory [], []⟩⟩ [] (.scripted [] []) .standard {}
    fun _ => "1"

def reviewing : Move :=
  .enter (.review "" []) .epoch

def answering (i : Nat) : Move :=
  .reply i (.answered (.completion default) default [])

/-- Of two reviews the first is overtaken; its chain answers first and in vain. The second is
answered, logged and written. -/
def twoReviews : List Move :=
  [reviewing, reviewing, answering 0, answering 1, .go 1, .go 1]

theorem requests_side_by_side_reviews :
    let pool := (Pool.start bareSession).run twoReviews
    ∃ t u, pool.tasks = [t, u] ∧
      (t.Orderly pool.session.gate ∧ t.Overtaken ∧
        t.stage.result? = some (.error (.superseded .review))) ∧
      (u.Orderly pool.session.gate ∧ ¬ u.Overtaken ∧ u.LoggedOnce) := by
  intro pool
  have horderly := requests_side_by_side ⟨[], .fresh [] .epoch, false, ⟨.directory [], []⟩⟩ []
    (.scripted [] []) .standard {} (fun _ => "1") twoReviews
  refine ⟨_, _, rfl, ⟨horderly _ List.mem_cons_self, .inl List.mem_cons_self, rfl⟩,
    horderly _ (List.mem_cons_of_mem _ List.mem_cons_self), ?_, ?_⟩
  · rintro (hmet | hmet) <;> cases hmet
  · exact (horderly _ (List.mem_cons_of_mem _ List.mem_cons_self)).served rfl _ rfl

end Session

end CodeAssist
