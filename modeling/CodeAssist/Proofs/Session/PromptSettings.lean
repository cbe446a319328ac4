import CodeAssist.Proofs.Provider.Fallback
import CodeAssist.Proofs.Session.Requests

/-!
The settings of prompts make no difference to what the offline provider answers.

A prompt is cut to a budget and speaks of a language, and the log keeps it. The offline provider
reads nothing of that. Of an analysis it sees the texts of the request, and of a completion the line
up to the cursor and the names that are known. So sessions that are the same but for the settings of
their prompts, the exchanges they logged and what is written answer alike, and stay alike.

There is one difference: where the number of lines around the cursor is so large that no prompt can
be built, a request that is not cached panics. The settings that others are compared with show no
lines at all; with them every prompt is built.
-/

namespace CodeAssist

open Offline Prompt

variable {now : Moment} {p q : Pause (Except AssistError Answer)} {request : Request}
  {s t u : Session}

/-! ## 1. Along the chain -/

/-- Neither the exchanges of the view nor the lines around the cursor are read. -/
theorem Offline.answer_subjectOf (request : Request) (view : View)
    (recentExchanges : List Exchange) (nearby nearby' : List NumberedLine) :
    answer (subjectOf request { view with recentExchanges } nearby') =
      answer (subjectOf request view nearby) := by
  cases request with
  | completion cursor selection =>
    have hline : beforeCursor { view with recentExchanges } cursor =
        beforeCursor view cursor := rfl
    have hfunctions : View.knownFunctions { view with recentExchanges } =
        view.knownFunctions := rfl
    have hvariables : View.knownVariables { view with recentExchanges } =
        view.knownVariables := rfl
    simp only [subjectOf, answer, hline, hfunctions, hvariables]
  | refactor code intent | diagnosis errorMessage code | generation prompt | review code focus =>
    simp only [subjectOf]

/-- What the offline provider answers to a request, if it has a prompt. -/
def Offline.answerTo (request : Request) (view : View) : Reply :=
  answer (subjectOf request view [])

theorem Offline.answer_build {config : Config} {view : View} {prompt : Prompt}
    (h : build config request view = .ok prompt) :
    answer prompt.subject = answerTo request view := by
  obtain ⟨nearby, -, rfl⟩ := build_eq_ok_iff.1 h
  exact answer_subjectOf request view view.recentExchanges _ _

def offlineAttempt : Attempt :=
  ⟨"local", 0, none⟩

/-- The offline provider alone answers a call unless that is cancelled before it begins. -/
theorem dispatch_offline {accept : Acceptance α} {call : Call} {value : α}
    (h : accept (answer call.prompt.subject) = .ok value) (cancel : Cancellation)
    (tally : Tally) :
    (Chain.dispatch [provider] accept call cancel tally).ending =
      if cancel = .atStart then .cancelled []
      else .answered value (answer call.prompt.subject) [offlineAttempt] := by
  change (walk accept call cancel [(provider, 0)] 0 [] tally).ending = _
  rw [walk]
  by_cases hstart : cancel = .atStart
  · rw [if_pos hstart, if_pos hstart]
  · have hlater : cancel.precedes (0 + 0) = false := by
      cases cancel with
      | never => rfl
      | atStart => exact absurd rfl hstart
      | after ms => exact decide_eq_false (Nat.not_lt_zero ms)
    rw [if_neg hstart, if_neg hstart, (answers_provider h _).attempt_eq]
    simp only [hlater, Bool.false_eq_true, if_false]
    rfl

/-- A request has one answer, whichever the settings that its prompt was built with. -/
theorem exists_dispatch_offline (request : Request) (view : View) :
    ∃ (value : Answer) (reply : Reply), ∀ {config : Config} {prompt : Prompt},
      build config request view = .ok prompt →
      ∀ (id : String) (options : Options) (cancel : Cancellation) (tally : Tally),
        (Chain.dispatch [provider] (request.accept (fenceTag config.language))
          ⟨id, prompt, options⟩ cancel tally).ending =
            if cancel = .atStart then .cancelled []
            else .answered value reply [offlineAttempt] := by
  obtain ⟨value, hvalue⟩ := accept_answer_same request view
  refine ⟨value, answerTo request view, fun {config prompt} hprompt id options cancel tally => ?_⟩
  have hreply : answer prompt.subject = answerTo request view := answer_build hprompt
  have haccept : request.accept (fenceTag config.language) (answer prompt.subject) = .ok value :=
    hreply ▸ hvalue [] _
  rw [dispatch_offline haccept, hreply]

namespace Session

/-- How a request ends that goes to the offline provider alone. -/
def offlineEnding (s : Session) (ticket : Ticket) (value : Answer) (reply : Reply) :
    Ending Answer :=
  if s.gate.isCancelled ticket then .cancelled []
  else .answered value reply [offlineAttempt]

/-- The offline provider answers at once, so nothing comes between. -/
theorem follow_offline {accept : Acceptance Answer} {job : Job} {value : Answer}
    (h : accept (answer job.call.prompt.subject) = .ok value) (s : Session) :
    follow accept job [(provider, 0)] [] s =
      .ended (s.offlineEnding job.ticket value (answer job.call.prompt.subject))
        { s with tally := s.tally.bump 0 } := by
  rw [follow]
  simp only [(answers_provider h _).attempt_eq]
  change (if s.gate.isCancelled job.ticket = true then
      (pure (.cancelled []) : Course (Ending Answer))
    else pure (.answered value (answer job.call.prompt.subject) [offlineAttempt]))
      { s with tally := s.tally.bump 0 } = _
  rw [offlineEnding]
  split <;> rfl

end Session

/-! ## 2. Alike sessions -/

/-- Two stores whose memories differ in the exchanges only, whatever is written of them. -/
def Store.Alike (s t : Store) : Prop :=
  ∃ exchanges disk dirty, t = { s with memory := { s.memory with exchanges }, disk, dirty }

theorem Store.Alike.refl (s : Store) : s.Alike s :=
  ⟨_, _, _, rfl⟩

theorem Store.Alike.fingerprint_eq {s t : Store} (h : s.Alike t) (request : Request) :
    Fingerprint.ofRequest? request t.view = Fingerprint.ofRequest? request s.view := by
  obtain ⟨exchanges, disk, dirty, rfl⟩ := h
  cases request <;> rfl

theorem Store.Alike.answerTo_eq {s t : Store} (h : s.Alike t) (request : Request) :
    answerTo request t.view = answerTo request s.view := by
  obtain ⟨exchanges, disk, dirty, rfl⟩ := h
  exact answer_subjectOf request s.view (latest Memory.viewExchanges exchanges) _ _

theorem Store.overflows_iff {s t : Store} (hfile : t.memory.openFile = s.memory.openFile)
    (hediting : t.memory.editing = s.memory.editing) {config : Config} :
    Overflows config request t.view ↔ Overflows config request s.view :=
  overflows_congr hfile hediting

theorem Store.Alike.overflows_iff {s t : Store} (h : s.Alike t) {config : Config} :
    Overflows config request t.view ↔ Overflows config request s.view := by
  obtain ⟨exchanges, disk, dirty, rfl⟩ := h
  exact Store.overflows_iff rfl rfl

theorem Store.Alike.logged {s t : Store} (h : s.Alike t) (now : Moment) (e e' : Exchange)
    (disk disk' : Disk) (dirty dirty' : Bool) :
    Store.Alike { s.changed now (·.logExchange e) with disk, dirty }
      { t.changed now (·.logExchange e') with disk := disk', dirty := dirty' } := by
  obtain ⟨exchanges, d, b, rfl⟩ := h
  exact ⟨_, _, _, rfl⟩

namespace Session

/-- Two sessions that are the same but for the settings of their prompts, the exchanges they logged
and what is written. -/
def Alike (s t : Session) : Prop :=
  ∃ prompts store, s.store.Alike store ∧ t = { s with prompts, store }

/-- The session with the offline provider alone, and with settings for its prompts. -/
def offlineWith (s : Session) (prompts : Config) : Session :=
  { s with chain := [provider], prompts }

theorem offlineWith_alike (s : Session) (config config' : Config) :
    (s.offlineWith config).Alike (s.offlineWith config') :=
  ⟨config', s.store, .refl _, rfl⟩

/-- A request whose prompt cannot be built, and whose answer is not cached. -/
def Panics (s : Session) (request : Request) : Prop :=
  s.cached? request = none ∧ Overflows s.prompts request s.store.view

theorem panics_offlineWith {config : Config} :
    (s.offlineWith config).Panics request ↔
      s.cached? request = none ∧ Overflows config request s.store.view := by
  rw [Panics, cached?_eq, cached?_eq]
  rfl

theorem cached?_alike {store : Store} (h : s.store.Alike store) (prompts : Config)
    (request : Request) : { s with prompts, store }.cached? request = s.cached? request := by
  rw [cached?_eq, cached?_eq]
  dsimp only
  rw [h.fingerprint_eq]

theorem lookedUp_alike {store : Store} (h : s.store.Alike store) (prompts : Config)
    (request : Request) : { s with prompts, store }.lookedUp request = s.lookedUp request := by
  simp only [lookedUp, h.fingerprint_eq]

theorem Alike.panics_iff (h : s.Alike t) (hprompts : t.prompts = s.prompts) :
    s.Panics request ↔ t.Panics request := by
  obtain ⟨prompts, store, hstore, rfl⟩ := h
  rw [Panics, Panics, cached?_alike hstore, hstore.overflows_iff, hprompts]

/-- Entering two alike sessions where the request panics in neither. -/
theorem enter_alike {store : Store} (h : s.store.Alike store) (prompts : Config)
    (hs : ¬ s.Panics request) (ht : ¬ { s with prompts, store }.Panics request) :
    (∃ answer gate caches, s.enter request = (.hit answer, { s with gate, caches }) ∧
      { s with prompts, store }.enter request =
        (.hit answer, { s with prompts, store, gate, caches })) ∨
    (∃ job call gate caches, s.enter request = (.dispatched job, { s with gate, caches }) ∧
      { s with prompts, store }.enter request =
        (.dispatched { job with call }, { s with prompts, store, gate, caches }) ∧
      build s.prompts request s.store.view = .ok job.call.prompt ∧
      build prompts request store.view = .ok call.prompt) := by
  have hcached := cached?_alike h prompts request
  rcases s.enter_cases request with ⟨answer, hfound, henter⟩ |
    ⟨job, hmiss, henter, hrequest, hticket, hfingerprint, hprompt⟩ | ⟨hmiss, hoverflows, -⟩
  · rcases { s with prompts, store }.enter_cases request with ⟨answer', hfound', henter'⟩ |
      ⟨_, hmiss', -⟩ | ⟨hmiss', -⟩
    · cases hfound.symm.trans (hcached.symm.trans hfound')
      rw [lookedUp_alike h] at henter'
      exact .inl ⟨answer, _, _, henter, henter'⟩
    all_goals cases hfound.symm.trans (hcached.symm.trans hmiss')
  · rcases { s with prompts, store }.enter_cases request with ⟨answer', hfound', -⟩ |
      ⟨⟨request', ticket', fingerprint', call⟩, -, henter', hrequest', hticket', hfingerprint',
        hprompt'⟩ | ⟨hmiss', hoverflows, -⟩
    · cases hmiss.symm.trans (hcached.symm.trans hfound')
    · obtain rfl := hrequest'.trans hrequest.symm
      obtain rfl := hticket'.trans hticket.symm
      obtain rfl := (hfingerprint'.trans (h.fingerprint_eq request)).trans hfingerprint.symm
      rw [lookedUp_alike h] at henter'
      exact .inr ⟨job, call, _, _, henter, henter', hprompt, hprompt'⟩
    · exact absurd ⟨hmiss', hoverflows⟩ ht
  · exact absurd ⟨hmiss, hoverflows⟩ hs

theorem settle_alike (s : Session) (prompts : Config) (store : Store) (job : Job)
    (call : Call) (ending : Ending Answer) :
    ∃ result gate caches, s.settle job ending = (result, { s with gate, caches }) ∧
      { s with prompts, store }.settle { job with call } ending =
        (result, { s with prompts, store, gate, caches }) := by
  simp only [settle]
  split
  · cases ending with
    | answered answer reply attempts => exact ⟨_, _, _, rfl, rfl⟩
    | exhausted failure => exact ⟨_, _, s.caches, rfl, rfl⟩
    | cancelled attempts => exact ⟨_, _, s.caches, rfl, rfl⟩
  · exact ⟨_, s.gate, s.caches, rfl, rfl⟩

/-! ## 3. Requests -/

/-- Two requests that go the same way: both have ended, or both are about to log an exchange, and
what they come to is the same. -/
inductive Agree (now : Moment) :
    Pause (Except AssistError Answer) → Pause (Except AssistError Answer) → Prop
  | ended {value : Except AssistError Answer} {s t : Session} (h : s.Alike t) :
      Agree now (.ended value s) (.ended value t)
  | logging {action : Action} {answer : Answer} {s t : Session}
      {next next' : Session → Pause (Except AssistError Answer)} (h : s.Alike t)
      (hnext : Logging action now answer next) (hnext' : Logging action now answer next') :
      Agree now (.turn s next) (.turn t next')

/-- What the one comes to alone, the other comes to whatever goes on at its pauses. -/
theorem Agree.ends (h : Agree now p q) :
    q.Ends fun result _ => result = p.finish.1 := by
  cases h with
  | ended halike => exact .ended rfl
  | @logging action answer s t next next' halike hnext hnext' =>
    obtain ⟨writes, hreaches⟩ := (Pause.turn s next).finish_reaches
    rw [(hnext.reaches hreaches).1]
    exact hnext'.ends t

/-- Alone, both come to the same in the end, and to alike sessions. -/
theorem Agree.reaches (h : Agree now p q) {writes writes' : List (Except StoreError Unit)}
    {value value' : Except AssistError Answer} (hp : p.Reaches writes value s)
    (hq : q.Reaches writes' value' t) : value' = value ∧ s.Alike t := by
  cases h with
  | ended halike =>
    obtain ⟨-, rfl, rfl⟩ := Course.reaches_ended.1 hp
    obtain ⟨-, rfl, rfl⟩ := Course.reaches_ended.1 hq
    exact ⟨rfl, halike⟩
  | logging halike hnext hnext' =>
    obtain ⟨prompts, store, hstore, rfl⟩ := halike
    obtain ⟨rfl, e, disk, dirty, -, rfl⟩ := hnext.reaches hp
    obtain ⟨rfl, e', disk', dirty', -, rfl⟩ := hnext'.reaches hq
    exact ⟨rfl, prompts, _, hstore.logged now e e' disk disk' dirty dirty', rfl⟩

/-- Requests end alike, whichever their prompts were. -/
theorem conclude_agree {store : Store} (h : s.store.Alike store) (prompts : Config)
    (job : Job) (call : Call) (ending : Ending Answer) (now : Moment) :
    Agree now (conclude job ending now s)
      (conclude { job with call } ending now { s with prompts, store }) := by
  obtain ⟨result, gate, caches, hs, ht⟩ := settle_alike s prompts store job call ending
  have halike : Alike { s with gate, caches } { s with prompts, store, gate, caches } :=
    ⟨prompts, store, h, rfl⟩
  cases result with
  | error e =>
    rw [conclude_error hs, conclude_error ht]
    exact .ended halike
  | ok served =>
    rcases conclude_ok hs now with ⟨haction, hend⟩ | ⟨haction, next, hturn, hnext⟩
    · rcases conclude_ok ht now with ⟨-, hend'⟩ | ⟨haction', -⟩
      · rw [hend, hend']
        exact .ended halike
      · exact absurd haction haction'
    · rcases conclude_ok ht now with ⟨haction', -⟩ | ⟨-, next', hturn', hnext'⟩
      · exact absurd haction' haction
      · rw [hturn, hturn']
        exact .logging halike hnext hnext'

theorem assist_hit {answer : Answer} (h : s.enter request = (.hit answer, u)) (now : Moment) :
    assist request now s = .ended (.ok answer) u := by
  rw [assist, Course.act_bind, h]
  rfl

theorem assist_panics (h : s.Panics request) (now : Moment) :
    assist request now s = .ended (.error (.panicked .overflow))
      { s with gate := (s.gate.issue request.action).2, caches := s.lookedUp request } := by
  have henter : s.enter request = (.panicked .overflow,
      { s with gate := (s.gate.issue request.action).2, caches := s.lookedUp request }) := by
    rcases s.enter_cases request with ⟨answer, hfound, -⟩ | ⟨job, -, -, -, -, -, hprompt⟩ |
      ⟨-, -, henter⟩
    · cases h.1.symm.trans hfound
    · cases (build_eq_error_iff.2 h.2).symm.trans hprompt
    · exact henter
  rw [assist, Course.act_bind, henter]
  rfl

/-- A request that goes to the offline provider alone is concluded at once. -/
theorem assist_offline {job : Job} {value : Answer} (h : s.enter request = (.dispatched job, u))
    (hchain : u.chain = [provider])
    (hvalue : request.accept u.replyLanguage (answer job.call.prompt.subject) = .ok value)
    (now : Moment) :
    assist request now s =
      conclude job (u.offlineEnding job.ticket value (answer job.call.prompt.subject)) now
        { u with tally := u.tally.bump 0 } := by
  have hzip : u.chain.zipIdx = [(provider, 0)] := by
    rw [hchain]
    rfl
  rw [assist, Course.act_bind, h]
  change Pause.andThen _ (follow (request.accept u.replyLanguage) job u.chain.zipIdx [] u) = _
  rw [hzip, follow_offline hvalue]
  rfl

/-- In alike sessions a request goes the same way if it panics in both or in neither. -/
theorem assist_agree (h : s.Alike t) (hchain : s.chain = [provider])
    (hpanics : s.Panics request ↔ t.Panics request) (now : Moment) :
    Agree now (assist request now s) (assist request now t) := by
  obtain ⟨prompts, store, hstore, rfl⟩ := h
  by_cases hs : s.Panics request
  · rw [assist_panics hs, assist_panics (hpanics.1 hs), lookedUp_alike hstore]
    exact .ended ⟨prompts, store, hstore, rfl⟩
  · rcases enter_alike hstore prompts hs (mt hpanics.2 hs) with
      ⟨answer, gate, caches, hs, ht⟩ | ⟨job, call, gate, caches, hs, ht, hprompt, hprompt'⟩
    · rw [assist_hit hs, assist_hit ht]
      exact .ended ⟨prompts, store, hstore, rfl⟩
    · obtain ⟨value, hvalue⟩ := accept_answer_same request s.store.view
      have hanswer : answer job.call.prompt.subject = answerTo request s.store.view :=
        answer_build hprompt
      have hanswer' : answer call.prompt.subject = answerTo request s.store.view :=
        (answer_build hprompt').trans (hstore.answerTo_eq request)
      have haccept : ∀ language, request.accept language (answer job.call.prompt.subject) =
          .ok value := fun language => hanswer ▸ hvalue [] language
      have haccept' : ∀ language, request.accept language (answer call.prompt.subject) =
          .ok value := fun language => hanswer' ▸ hvalue [] language
      rw [assist_offline hs hchain (haccept _), assist_offline ht hchain (haccept' _), hanswer,
        hanswer']
      exact conclude_agree (s := { s with gate, caches, tally := s.tally.bump 0 }) hstore prompts
        job call _ now

/-! ## 4. Questions -/

/-- Requests are made one after the other, and come to something. Their writes may fail. -/
inductive Asks : Session → List (Request × Moment) → List (Except AssistError Answer) → Prop
  | done {s : Session} : Asks s [] []
  | ask {s t : Session} {request : Request} {now : Moment}
      {writes : List (Except StoreError Unit)} {result : Except AssistError Answer}
      {more : List (Request × Moment)} {results : List (Except AssistError Answer)}
      (h : (assist request now s).Reaches writes result t) (hmore : Asks t more results) :
      Asks s ((request, now) :: more) (result :: results)

theorem exists_asks (s : Session) (asked : List (Request × Moment)) :
    ∃ results, s.Asks asked results := by
  induction asked generalizing s with
  | nil => exact ⟨[], .done⟩
  | cons question more ih =>
    obtain ⟨request, now⟩ := question
    obtain ⟨writes, hreaches⟩ := Course.run_reaches (assist request now) s
    obtain ⟨results, hmore⟩ := ih ((assist request now).run s).2
    exact ⟨_, .ask hreaches hmore⟩

/-- A request changes neither the chain nor the settings, nor whether a prompt can be built. -/
theorem assist_keeps {writes : List (Except StoreError Unit)} {result : Except AssistError Answer}
    (h : (assist request now s).Reaches writes result t) :
    t.chain = s.chain ∧ t.prompts = s.prompts ∧ ∀ (config : Config) (request : Request),
      Overflows config request t.store.view ↔ Overflows config request s.store.view := by
  cases assist_reaches h with
  | hit | failed => exact ⟨rfl, rfl, fun _ _ => .rfl⟩
  | answered _ hstore =>
    refine ⟨rfl, rfl, fun config request => ?_⟩
    exact Store.overflows_iff hstore.editing_eq.1 hstore.editing_eq.2

/-- Whether a request ended because its prompt could not be built. -/
def IsPanic (result : Except AssistError Answer) : Prop :=
  result = .error (.panicked .overflow)

/-- With the offline provider alone a request panics only where its prompt overflows. -/
theorem overflows_of_isPanic (hchain : s.chain = [provider])
    {writes : List (Except StoreError Unit)} {result : Except AssistError Answer}
    (h : (assist request now s).Reaches writes result t) (hpanic : IsPanic result) :
    Overflows s.prompts request s.store.view := by
  have hoffline : s.chain.EndsOffline := ⟨[], hchain⟩
  rcases (assist_ends hoffline request now).reaches h with
    (⟨answer, hok⟩ | hsuperseded) | hpanicked
  · cases hpanic.symm.trans hok
  · cases hpanic.symm.trans hsuperseded
  · exact hpanicked.2

theorem overflows_of_asks (hchain : s.chain = [provider]) {asked : List (Request × Moment)}
    {results : List (Except AssistError Answer)} (h : s.Asks asked results) :
    ∀ (n : Nat) (result : Except AssistError Answer), results[n]? = some result →
      IsPanic result → ∃ (request : Request) (now : Moment),
      asked[n]? = some (request, now) ∧ Overflows s.prompts request s.store.view := by
  induction h with
  | done => intro n result hresult; cases hresult
  | @ask s t request now writes first more results hreaches hmore ih =>
    intro n result hresult hpanic
    cases n with
    | zero =>
      cases hresult
      exact ⟨request, now, rfl, overflows_of_isPanic hchain hreaches hpanic⟩
    | succ n =>
      obtain ⟨hkept, hprompts, hoverflows⟩ := assist_keeps hreaches
      obtain ⟨request', now', hasked, hlater⟩ := ih (hkept.trans hchain) n result hresult hpanic
      rw [hprompts, hoverflows] at hlater
      exact ⟨request', now', hasked, hlater⟩

theorem length_of_asks {asked : List (Request × Moment)}
    {results : List (Except AssistError Answer)} (h : s.Asks asked results) :
    results.length = asked.length := by
  induction h with
  | done => rfl
  | ask _ _ ih => rw [List.length_cons, List.length_cons, ih]

theorem isPanic_of_panics (h : s.Panics request) {writes : List (Except StoreError Unit)}
    {result : Except AssistError Answer}
    (hreaches : (assist request now s).Reaches writes result t) : IsPanic result := by
  rw [assist_panics h] at hreaches
  exact (Course.reaches_ended.1 hreaches).2.1

/-- Alike sessions come to the same as long as no request panics, and to the end if the settings are
the same. -/
theorem asks_alike {asked : List (Request × Moment)}
    {results results' : List (Except AssistError Answer)} (h : s.Alike t)
    (hchain : s.chain = [provider]) (hs : s.Asks asked results) (ht : t.Asks asked results')
    (n : Nat) (hcalm : t.prompts = s.prompts ∨
      (∀ result ∈ results.take n, ¬ IsPanic result) ∧
        ∀ result ∈ results'.take n, ¬ IsPanic result) :
    results'.take n = results.take n := by
  induction hs generalizing t results' n with
  | done =>
    cases ht
    rfl
  | @ask s u request now writes first more results hreaches hmore ih =>
    cases ht with
    | @ask _ u' _ _ writes' first' _ results' hreaches' hmore' =>
      cases n with
      | zero => rfl
      | succ n =>
        rw [List.take_succ_cons, List.take_succ_cons, List.forall_mem_cons,
          List.forall_mem_cons] at hcalm
        have hpanics : s.Panics request ↔ t.Panics request := by
          rcases hcalm with hprompts | ⟨⟨hfirst, -⟩, hfirst', -⟩
          · exact h.panics_iff hprompts
          · exact iff_of_false (fun hpanics => hfirst (isPanic_of_panics hpanics hreaches))
              fun hpanics => hfirst' (isPanic_of_panics hpanics hreaches')
        obtain ⟨rfl, halike⟩ := (assist_agree h hchain hpanics now).reaches hreaches hreaches'
        obtain ⟨hkept, hprompts, -⟩ := assist_keeps hreaches
        obtain ⟨-, hprompts', -⟩ := assist_keeps hreaches'
        rw [List.take_succ_cons, List.take_succ_cons,
          ih halike (hkept.trans hchain) hmore' n]
        rw [hprompts, hprompts']
        exact hcalm.imp_right fun hcalm => ⟨hcalm.1.2, hcalm.2.2⟩

/-- What requests come to does not depend on their writes. -/
theorem asks_unique (hchain : s.chain = [provider]) {asked : List (Request × Moment)}
    {results results' : List (Except AssistError Answer)} (h : s.Asks asked results)
    (h' : s.Asks asked results') : results' = results := by
  have hsame := asks_alike ⟨s.prompts, s.store, .refl _, rfl⟩ hchain h h' asked.length (.inl rfl)
  rwa [← length_of_asks h', List.take_length, length_of_asks h', ← length_of_asks h,
    List.take_length] at hsame

/-- Nothing panics if no lines around the cursor are shown. -/
theorem not_isPanic_of_asks (hchain : s.chain = [provider]) (hnarrow : s.prompts.windowLines = 0)
    {asked : List (Request × Moment)} {results : List (Except AssistError Answer)}
    (h : s.Asks asked results) : ∀ result ∈ results, ¬ IsPanic result := by
  intro result hresult hpanic
  obtain ⟨n, hn⟩ := List.getElem?_of_mem hresult
  obtain ⟨next, -, -, hoverflows⟩ := overflows_of_asks hchain h n result hn hpanic
  exact not_overflows_of_narrow hnarrow next _ hoverflows

end Session

/-! ## 5. The main statement -/

/-- The settings of prompts, be it the language, the lines around the cursor or the budget, make no
difference to what a caller gets from the offline provider alone, except where the lines around the
cursor are so many that the prompt of a request cannot be built. This holds for a call and a view;
for a request of a session, whatever goes on at its pauses, which panics instead unless its answer
is cached; and for requests of a session one after the other, whatever their writes do, up to the
first one that panics. -/
theorem offline_answers_ignore_prompt_settings (s : Session) (request : Request) (now : Moment)
    (asked : List (Request × Moment)) :
    (∀ view : View, ∃ (answer : Answer) (reply : Reply),
      ∀ config : Prompt.Config,
        if Prompt.Overflows config request view then
          Prompt.build config request view = .error .overflow
        else ∃ prompt, Prompt.build config request view = .ok prompt ∧
          ∀ (id : String) (options : Options) (cancel : Cancellation) (tally : Tally),
            (Chain.dispatch [Offline.provider] (request.accept (Prompt.fenceTag config.language))
              ⟨id, prompt, options⟩ cancel tally).ending =
                if cancel = .atStart then .cancelled []
                else .answered answer reply [⟨"local", 0, none⟩]) ∧
    (∃ outcome,
      outcome ≠ .error (.panicked .overflow) ∧ ∀ config : Prompt.Config,
        (Session.assist request now (s.offlineWith config)).Ends fun result _ =>
          result = if s.cached? request = none ∧ Prompt.Overflows config request s.store.view then
            .error (.panicked .overflow) else outcome) ∧
    ∃ outcomes : List (Except AssistError Answer), ∀ config : Prompt.Config,
      ∃ results, (∀ others, (s.offlineWith config).Asks asked others ↔ others = results) ∧
        (∀ n, results.take n = outcomes.take n ↔
          ∀ result ∈ results.take n, ¬ Session.IsPanic result) ∧
        ∀ (n : Nat) (result : Except AssistError Answer), results[n]? = some result →
          Session.IsPanic result → ∃ (next : Request) (later : Moment),
            asked[n]? = some (next, later) ∧ Prompt.Overflows config next s.store.view := by
  -- what others are compared with: settings that show no lines around the cursor
  let narrowest : Prompt.Config := { Prompt.Config.standard with windowLines := 0 }
  have hfits : ∀ request view, ¬ Prompt.Overflows narrowest request view :=
    Prompt.not_overflows_of_narrow rfl
  refine ⟨?_, ?_, ?_⟩
  · intro view
    obtain ⟨answer, reply, hanswer⟩ := exists_dispatch_offline request view
    refine ⟨answer, reply, fun config => ?_⟩
    split
    · rename_i hoverflows
      exact Prompt.build_eq_error_iff.2 hoverflows
    · rename_i hbuilt
      obtain ⟨prompt, hprompt⟩ := Prompt.exists_build hbuilt
      exact ⟨prompt, hprompt, hanswer hprompt⟩
  · obtain ⟨writes, hreaches⟩ := Course.run_reaches (Session.assist request now)
      (s.offlineWith narrowest)
    refine ⟨((Session.assist request now).run (s.offlineWith narrowest)).1, fun hpanic => ?_,
      fun config => ?_⟩
    · exact hfits request _ (Session.overflows_of_isPanic rfl hreaches hpanic)
    · by_cases hpanics : (s.offlineWith config).Panics request
      · rw [if_pos (Session.panics_offlineWith.1 hpanics), Session.assist_panics hpanics]
        exact .ended rfl
      · rw [if_neg (mt Session.panics_offlineWith.2 hpanics)]
        refine (Session.assist_agree (s.offlineWith_alike narrowest config) rfl ?_ now).ends
        exact iff_of_false (fun hnarrow => hfits request _ hnarrow.2) hpanics
  · obtain ⟨outcomes, houtcomes⟩ := (s.offlineWith narrowest).exists_asks asked
    have hnone := Session.not_isPanic_of_asks rfl rfl houtcomes
    refine ⟨outcomes, fun config => ?_⟩
    obtain ⟨results, hresults⟩ := (s.offlineWith config).exists_asks asked
    refine ⟨results, ?_, fun n => ⟨fun hsame => ?_, fun hcalm => ?_⟩, ?_⟩
    · exact fun others => ⟨Session.asks_unique rfl hresults, fun hsame => hsame ▸ hresults⟩
    · rw [hsame]
      intro result hresult
      exact hnone result (List.mem_of_mem_take hresult)
    · refine Session.asks_alike (s.offlineWith_alike narrowest config) rfl houtcomes hresults n ?_
      exact .inr ⟨fun result hresult => hnone result (List.mem_of_mem_take hresult), hcalm⟩
    · exact Session.overflows_of_asks rfl hresults

/-- A new session on an empty disk, with a file of two lines that is open. -/
def twoLineSession : Session :=
  let fresh := Memory.fresh [] .epoch
  let file : SourceFile := ⟨"a.c", "int a;\nint b;\n", 14, .epoch, .empty⟩
  let memory : Memory :=
    { fresh with
      files := Table.empty.put "a.c" file
      editing := { fresh.editing with currentFile := some "a.c" } }
  .start ⟨[], memory, false, ⟨.directory [], []⟩⟩ [] (.scripted [] []) .standard {} fun _ => "1"

/-- What the offline provider answers with the usual settings, it does not with as many lines around
the cursor as can be asked for. -/
theorem widest_window_withholds_answer :
    let request : Request := .review "int x;" []
    (∃ answer, ((Session.assist request .epoch).run
      (twoLineSession.offlineWith .standard)).1 = .ok answer) ∧
    ((Session.assist request .epoch).run
      (twoLineSession.offlineWith Prompt.widestConfig)).1 = .error (.panicked .overflow) := by
  intro request
  have hpanics : (twoLineSession.offlineWith Prompt.widestConfig).Panics request := by
    refine ⟨?_, by decide⟩
    rw [Session.cached?_eq]
    refine Option.bind_eq_none_iff.2 fun f _ => ?_
    obtain ⟨action, key⟩ := f
    cases action <;> rfl
  have hanswered : ((Session.assist request .epoch).run
      (twoLineSession.offlineWith .standard)).1.toOption.isSome = true := by
    decide +kernel
  refine ⟨?_, ?_⟩
  · cases hresult : ((Session.assist request .epoch).run
        (twoLineSession.offlineWith .standard)).1 with
    | ok answer => exact ⟨answer, rfl⟩
    | error e =>
      rw [hresult] at hanswered
      cases hanswered
  · rw [Course.run, Session.assist_panics hpanics]
    rfl

end CodeAssist
