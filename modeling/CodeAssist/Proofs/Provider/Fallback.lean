import CodeAssist.Proofs.Offline.Replies
import CodeAssist.Proofs.Provider.Dispatch
import CodeAssist.Proofs.Session.Steps
import CodeAssist.Settings

/-!
Requests along a chain that ends with the offline provider.

The offline provider answers at once and its answer is accepted (`Offline.accept_answer`), so it is
never passed over (`PassedOver.not_offline`). Whatever the members before it do, a walk is answered
or cancelled; it is never exhausted.
-/

namespace CodeAssist

open List Offline

/-! ## 1. Walks -/

section Walks

variable {accept : Acceptance α} {call : Call} {value : α}

theorem Offline.answers_provider (h : accept (answer call.prompt.subject) = .ok value)
    (earlier : Nat) :
    provider.Answers accept call earlier 0 value (answer call.prompt.subject) :=
  ⟨rfl, Nat.zero_le _, h⟩

theorem PassedOver.not_offline (h : accept (answer call.prompt.subject) = .ok value)
    {counts : Nat → Nat} {k : Nat} {earlier : Chain} {log : List Attempt} :
    ¬ PassedOver accept call counts k (earlier ++ [provider]) log := by
  intro hpassed
  induction earlier generalizing k log with
  | nil =>
    cases hpassed with
    | cons hfails _ => exact hfails.not_answers (answers_provider h _)
  | cons p earlier ih =>
    cases hpassed with
    | cons _ hrest => exact ih hrest

theorem dispatch_never (chain : Chain) (tally : Tally) :
    (chain.dispatch accept call .never tally).ending.isCancelled = false := by
  cases hend : (chain.dispatch accept call .never tally).ending with
  | cancelled log =>
    obtain ⟨front, p, behind, took, -, -, -, -, hprecedes⟩ := dispatch_cancelled_iff.1 hend
    cases hprecedes
  | _ => rfl

/-- A walk that ends with the offline provider is answered unless it is cancelled. -/
theorem dispatch_answered (h : accept (answer call.prompt.subject) = .ok value)
    {cancel : Cancellation} {earlier : Chain} {tally : Tally}
    (hkept : (Chain.dispatch (earlier ++ [provider]) accept call cancel
      tally).ending.isCancelled = false) :
    ∃ v reply attempts,
      (Chain.dispatch (earlier ++ [provider]) accept call cancel tally).ending =
        .answered v reply attempts ∧ accept reply = .ok v := by
  cases hend : (Chain.dispatch (earlier ++ [provider]) accept call cancel tally).ending with
  | answered v reply attempts =>
    obtain ⟨⟨front, p, behind, -, hanswered⟩, -⟩ := dispatch_answered_iff.1 hend
    obtain ⟨failed, took, -, hanswers, -⟩ := hanswered.attempts
    exact ⟨v, reply, attempts, rfl, hanswers.accepted⟩
  | exhausted failure => exact absurd (dispatch_exhausted_iff.1 hend).1 (PassedOver.not_offline h)
  | cancelled attempts =>
    rw [hend] at hkept
    cases hkept

/-- Where every member before it fails, the offline provider is the one that answers, after an
attempt of each. -/
theorem AnsweredBy.offline {earlier front behind : Chain} {p : Provider} {counts : Nat → Nat}
    (hfail : ∀ (i : Nat) (q : Provider), earlier[i]? = some q →
      ∃ took e, q.Fails accept call (counts i) took e)
    (hchain : earlier ++ [provider] = front ++ p :: behind) {reply : Reply}
    {attempts : List Attempt} (h : AnsweredBy accept call counts 0 front p value reply attempts) :
    reply = answer call.prompt.subject ∧
      attempts.map (·.provider) = Chain.names (earlier ++ [provider]) := by
  obtain ⟨failed, took, hpassed, hanswers, rfl⟩ := h.attempts
  rw [Nat.zero_add] at hanswers
  rcases behind.eq_nil_or_concat with rfl | ⟨others, q, rfl⟩
  · obtain ⟨rfl, hlast⟩ := append_inj' hchain rfl
    cases hlast
    cases hanswers.replied
    simp [Chain.names, hpassed.names]
  · -- a member that answers in front of the last one would be one that fails
    rw [concat_eq_append, ← cons_append, ← append_assoc] at hchain
    obtain ⟨rfl, -⟩ := append_inj' hchain rfl
    obtain ⟨took', e, hfails⟩ := hfail front.length p (by simp)
    exact absurd hanswers hfails.not_answers

end Walks

/-! ## 2. Settings -/

/-- A chain whose last member is the offline provider. -/
def Chain.EndsOffline (chain : Chain) : Prop :=
  ∃ earlier, chain = earlier ++ [provider]

/-- The chain of any settings ends with the offline provider. -/
theorem Settings.chain_endsOffline {s : Settings} {members : List ChainMember}
    (h : s.chain = .ok members) (out : Remote.Outside) :
    Chain.EndsOffline (members.map (·.provider out)) := by
  -- the members before the last one do not matter
  have hlast : ∀ before : List ChainMember,
      Chain.EndsOffline ((before ++ [ChainMember.offline]).map (·.provider out)) := by
    intro before
    rw [map_append]
    exact ⟨before.map (·.provider out), rfl⟩
  simp only [Settings.chain] at h
  split at h
  · cases h
    exact hlast _
  · split at h
    · cases h
      rw [show ∀ (xs : List ChainMember) (a : ChainMember),
        xs ++ [a, .offline] = (xs ++ [a]) ++ [.offline] by simp]
      exact hlast _
    · cases h

/-! ## 3. Sessions -/

namespace Session

/-- The ending of a request that is not out of members. -/
def NotExhausted (ending : Ending Answer) : Prop :=
  ∀ failure, ending ≠ .exhausted failure

/-- Along a chain that ends with the offline provider a request is answered or cancelled. -/
theorem follow_notExhausted {accept : Acceptance Answer} {job : Job} {value : Answer}
    (h : accept (answer job.call.prompt.subject) = .ok value) (earlier : Chain)
    (s : Session) :
    (follow accept job (earlier ++ [provider]).zipIdx [] s).Ends
      fun ending _ => NotExhausted ending := by
  refine (follow_ends accept job _ 0 [] s).mono ?_
  rintro ending t ⟨counts, hends⟩ failure rfl
  cases hends with
  | exhausted hpassed _ => exact PassedOver.not_offline h hpassed

/-- A request has its answer, or a later one took its place. -/
def AnsweredOrSuperseded (action : Action) (result : Except AssistError Answer) : Prop :=
  (∃ answer, result = .ok answer) ∨ result = .error (.superseded action)

theorem conclude_ends (job : Job) {ending : Ending Answer} (h : NotExhausted ending) (now : Moment)
    (s : Session) :
    (conclude job ending now s).Ends
      fun result _ => AnsweredOrSuperseded job.request.action result := by
  rcases conclude_cases job ending now s with ⟨e, -, he, hconclude⟩ |
    ⟨-, answer, _, _, -, ⟨-, hconclude⟩ | ⟨-, next, hconclude, hnext⟩⟩ <;> rw [hconclude]
  · rcases he with rfl | ⟨failure, hexhausted⟩
    · exact .ended (.inr rfl)
    · exact absurd hexhausted (h failure)
  · exact .ended (.inl ⟨answer, rfl⟩)
  · exact (hnext.ends _).mono fun result _ hresult => .inl ⟨answer, hresult⟩

/-- A request of a session whose chain ends with the offline provider. Either its prompt cannot be
built, or it has its answer unless a later one takes its place. -/
theorem assist_ends {s : Session} (h : s.chain.EndsOffline) (request : Request) (now : Moment) :
    (assist request now s).Ends fun result _ =>
      AnsweredOrSuperseded request.action result ∨
        result = .error (.panicked .overflow) ∧
          Prompt.Overflows s.prompts request s.store.view := by
  rw [assist]
  refine Course.ends_bind (Course.ends_act (P := fun admission t =>
    s.enter request = (admission, t)) rfl) ?_
  intro admission t henter
  rcases s.enter_cases request with ⟨answer, -, hhit⟩ |
    ⟨job, -, hdispatched, hrequest, -, -, hprompt⟩ | ⟨-, hoverflows, hpanicked⟩
  · cases hhit.symm.trans henter
    exact Course.ends_pure (.inl (.inl ⟨_, rfl⟩))
  · cases hdispatched.symm.trans henter
    refine Course.ends_bind (Course.ends_get (P := fun seen _ => seen.chain = s.chain) rfl) ?_
    intro seen u hseen
    obtain ⟨value, hvalue⟩ := accept_answer hprompt seen.replyLanguage
    obtain ⟨earlier, hearlier⟩ := h
    rw [hseen, hearlier]
    refine Course.ends_bind (follow_notExhausted hvalue earlier u) fun ending s hending => ?_
    refine (conclude_ends job hending now s).mono fun result _ hresult => .inl ?_
    rwa [hrequest] at hresult
  · cases hpanicked.symm.trans henter
    exact Course.ends_pure (.inr ⟨rfl, hoverflows⟩)

end Session

/-! ## 4. The main result -/

theorem Offline.answer_provider (subject : Subject) :
    (answer subject).provider = "local" := by
  cases subject <;> rfl

/-- No request along a chain that ends with the offline provider runs out of members, whatever the
members before it do. Chains that are built from settings are such chains; a walk with a prompt is
answered unless it is cancelled, and by the offline provider if all the others fail; and a request
of a session whose prompt can be built is answered unless a later one takes its place. -/
theorem request_never_exhausted :
    (∀ (settings : Settings) (members : List ChainMember)
      (out : Remote.Outside), settings.chain = .ok members →
        Chain.EndsOffline (members.map (·.provider out))) ∧
    (∀ (earlier : Chain) (config : Prompt.Config) (request : Request) (view : View)
      (language id : String) (options : Options) (cancel : Cancellation) (tally : Tally)
      (prompt : Prompt), Prompt.build config request view = .ok prompt →
      let accept := request.accept language
      let call : Call := ⟨id, prompt, options⟩
      let ending := (Chain.dispatch (earlier ++ [Offline.provider]) accept call cancel tally).ending
      (cancel = .never → ending.isCancelled = false) ∧
      (ending.isCancelled = false → ∃ answer reply attempts,
        ending = .answered answer reply attempts ∧ accept reply = .ok answer ∧
        ((∀ (i : Nat) (p : Provider), earlier[i]? = some p →
            ∃ took e, p.attempt accept call (tally.count i) = (took, .error e)) →
          reply = Offline.answer prompt.subject ∧ reply.provider = "local" ∧
            attempts.map (·.provider) = Chain.names (earlier ++ [Offline.provider])))) ∧
    (∀ s : Session, s.chain.EndsOffline → ∀ (request : Request) (now : Moment),
      (Session.assist request now s).Ends fun result _ =>
        Session.AnsweredOrSuperseded request.action result ∨
          result = .error (.panicked .overflow) ∧
            Prompt.Overflows s.prompts request s.store.view) := by
  refine ⟨fun settings members out h => settings.chain_endsOffline h out, ?_,
    fun s h request now => Session.assist_ends h request now⟩
  intro earlier config request view language id options cancel tally prompt hprompt accept call
    ending
  obtain ⟨value, hvalue⟩ := Offline.accept_answer hprompt language
  refine ⟨?_, fun hkept => ?_⟩
  · rintro rfl
    exact dispatch_never _ tally
  · obtain ⟨answer, reply, attempts, hend, hreply⟩ := dispatch_answered hvalue hkept
    refine ⟨answer, reply, attempts, hend, hreply, fun hfail => ?_⟩
    obtain ⟨⟨front, p, behind, hchain, hanswered⟩, -⟩ := dispatch_answered_iff.1 hend
    have hfails : ∀ (i : Nat) (q : Provider), earlier[i]? = some q →
        ∃ took e, q.Fails accept call (tally.count i) took e := by
      intro i q hq
      obtain ⟨took, e, hattempt⟩ := hfail i q hq
      exact ⟨took, e, Provider.attempt_eq_error_iff.1 hattempt⟩
    obtain ⟨rfl, hattempts⟩ := hanswered.offline hfails hchain
    exact ⟨rfl, Offline.answer_provider _, hattempts⟩

/-- Blank code after a member that never answers. -/
theorem request_never_exhausted_blank :
    Chain.EndsOffline
      ([ChainMember.offline].map (·.provider ⟨fun _ => .unreachable "", id⟩)) ∧
    (let mute : Provider := ⟨"mute", false, fun _ _ => .silent, .silent⟩
     let request : Request := .refactor " " ""
     ∃ prompt answer attempts, Prompt.build .standard request default = .ok prompt ∧
       (Chain.dispatch [mute, Offline.provider] (request.accept "c")
         ⟨"1", prompt, .forAction .refactor⟩ .never [0, 0]).ending =
         .answered answer (Offline.answer prompt.subject) attempts ∧
       attempts.map (·.provider) = ["mute", "local"]) ∧
    (Session.assist (.review "" []) .epoch
      (.start ⟨[], .fresh [] .epoch, false, ⟨.directory [], []⟩⟩ [Offline.provider]
        (.scripted [] []) .standard {} fun _ => "1")).Ends fun result _ =>
      Session.AnsweredOrSuperseded .review result := by
  obtain ⟨hsettings, hdispatch, hsession⟩ := request_never_exhausted
  refine ⟨hsettings .offline _ _ rfl, ?_, ?_⟩
  · intro mute request
    obtain ⟨prompt, hprompt⟩ : ∃ prompt, Prompt.build .standard request default = .ok prompt :=
      Prompt.exists_build (by decide)
    obtain ⟨hnever, hanswered⟩ := hdispatch [mute] .standard request default "c" "1"
      (.forAction .refactor) .never [0, 0] prompt hprompt
    obtain ⟨answer, reply, attempts, hend, -, hlocal⟩ := hanswered (hnever rfl)
    obtain ⟨hreply, -, hnames⟩ := hlocal fun i p hp => by
      cases i with
      | zero =>
        cases hp
        exact ⟨_, _, by rw [Provider.attempt]; rfl⟩
      | succ i => cases hp
    rw [hreply] at hend
    exact ⟨prompt, answer, attempts, hprompt, hend, hnames⟩
  · refine (hsession _ ⟨[], rfl⟩ (.review "" []) .epoch).mono fun result _ hresult => ?_
    rcases hresult with hresult | ⟨-, hoverflows⟩
    · exact hresult
    · exact absurd hoverflows.1 (by decide)

end CodeAssist
