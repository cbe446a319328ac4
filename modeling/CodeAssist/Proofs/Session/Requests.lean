import CodeAssist.Proofs.Session.Alone
import CodeAssist.Proofs.Session.Steps

/-!
All that a request can come to, alone.

A request is looked up in the cache of its kind. If it is found there, no provider is called. If it
is not, the providers are called in turn; when one of them answers, some provider was called once
more than before, and the answer is stored at the instant at which the request ends.
-/

namespace CodeAssist

open Course List

variable {value : Except AssistError Answer} {writes : List (Except StoreError Unit)} {now : Moment}
  {s t : Session}

/-! ## 1. Calls -/

namespace Tally

/-- A tally after some calls. -/
structure Grown (before after : Tally) : Prop where
  length_eq : after.length = before.length
  le : ∀ i, before.count i ≤ after.count i

theorem Grown.refl (tally : Tally) : Grown tally tally :=
  ⟨rfl, fun _ => Nat.le_refl _⟩

theorem Grown.trans {first second third : Tally} (h : Grown first second)
    (h' : Grown second third) : Grown first third :=
  ⟨h'.length_eq.trans h.length_eq, fun i => Nat.le_trans (h.le i) (h'.le i)⟩

theorem grown_bump (tally : Tally) (i : Nat) : Grown tally (tally.bump i) := by
  refine ⟨length_modify .., fun j => ?_⟩
  rw [count_bump]
  split
  · exact Nat.le_succ _
  · exact Nat.le_refl _

theorem Grown.ne {before after : Tally} {i : Nat} (h : Grown (before.bump i) after)
    (hi : i < before.length) : after ≠ before := by
  rintro rfl
  have hle := h.le i
  rw [count_bump, if_pos ⟨rfl, hi⟩] at hle
  omega

end Tally

namespace Session

/-- Alone, going along a chain takes time and counts calls, and changes nothing else. An answer has
cost a call. -/
theorem follow_reaches {accept : Acceptance Answer} {job : Job} {members : List (Provider × Nat)}
    {failed : List Attempt} {ending : Ending Answer}
    (h : (follow accept job members failed s).Reaches writes ending t) :
    ∃ tally ms, t = { s with tally, clock := s.clock + ms } ∧ s.tally.Grown tally ∧
      ((∀ member ∈ members, member.2 < s.tally.length) →
        ∀ value reply attempts, ending = .answered value reply attempts → tally ≠ s.tally) := by
  induction members generalizing failed s writes with
  | nil =>
    obtain ⟨-, rfl, rfl⟩ := reaches_pure.1 h
    exact ⟨t.tally, 0, rfl, .refl _, fun _ _ _ _ hanswered => by cases hanswered⟩
  | cons member members ih =>
    obtain ⟨p, i⟩ := member
    rw [follow] at h
    obtain ⟨_, _, seen, u, hget, hasked, -⟩ := reaches_bind.1 h
    obtain ⟨-, rfl, rfl⟩ := reaches_get.1 hget
    clear h hget
    generalize p.attempt accept job.call (u.tally.count i) = tried at hasked
    obtain ⟨took, outcome⟩ := tried
    obtain ⟨_, _, _, v, hmodify, hwaiting, -⟩ := reaches_bind.1 hasked
    obtain ⟨-, -, rfl⟩ := reaches_modify.1 hmodify
    obtain ⟨_, _, _, v, hrest, hwoken, -⟩ := reaches_bind.1 hwaiting
    obtain ⟨-, -, rfl⟩ := reaches_rest.1 hrest
    obtain ⟨_, _, seen, v, hget, h, -⟩ := reaches_bind.1 hwoken
    obtain ⟨-, rfl, rfl⟩ := reaches_get.1 hget
    have hbump := u.tally.grown_bump i
    split at h
    · obtain ⟨-, rfl, rfl⟩ := reaches_pure.1 h
      exact ⟨_, took, rfl, hbump, fun _ _ _ _ hanswered => by cases hanswered⟩
    · cases outcome with
      | ok pair =>
        obtain ⟨-, rfl, rfl⟩ := reaches_pure.1 h
        refine ⟨_, took, rfl, hbump, fun hmembers _ _ _ _ => ?_⟩
        exact Tally.Grown.ne (.refl _) (hmembers _ mem_cons_self)
      | error e =>
        obtain ⟨tally, ms, rfl, hgrown, -⟩ := ih h
        refine ⟨tally, took + ms, by simp [Nat.add_assoc], hbump.trans hgrown, ?_⟩
        intro hmembers _ _ _ _
        exact hgrown.ne (hmembers _ mem_cons_self)

/-! ## 2. Steps -/

/-- Caches after the answer to a request was stored at some time. -/
def stored (s : Session) (request : Request) (clock : Nat) (answer : Answer) : Caches :=
  match Fingerprint.ofRequest? request s.store.view with
  | some f => (s.lookedUp request).put clock f answer (s.ttlOf request.action)
  | none => s.lookedUp request

/-- A store to which at most an exchange was added, whatever is written of it. -/
inductive Logged (s : Store) : Store → Prop
  | nothing : Logged s s
  | exchange (e : Exchange) (disk : Disk) (dirty : Bool) :
      Logged s { s with memory := (s.memory.logExchange e).touch e.moment, disk, dirty }

theorem Logged.follows {store store' : Store} (h : Logged store store') : store.Follows store' := by
  cases h with
  | nothing => exact .refl _
  | exchange e disk dirty =>
    have heffect : (Operation.exchange e.action e.prompt e.response e.metadata).effect store.root
        e.moment store.memory = some ((store.memory.logExchange e).touch e.moment) := by
      rw [Operation.effect, Store.Update.exchange, Store.Update.effect]
    exact .step (.refl store) heffect

theorem Logged.editing_eq {store store' : Store} (h : Logged store store') :
    store'.memory.openFile = store.memory.openFile ∧
      store'.memory.editing = store.memory.editing := by
  cases h with
  | nothing => exact ⟨rfl, rfl⟩
  | exchange e disk dirty =>
    simp only [Memory.openFile, Memory.file?, Memory.touch, Memory.logExchange, and_self]

theorem Logging.reaches {action : Action} {answer : Answer}
    {next : Session → Pause (Except AssistError Answer)} (h : Logging action now answer next)
    (hreaches : (Pause.turn s next).Reaches writes value t) :
    value = .ok answer ∧ ∃ (e : Exchange) (disk : Disk) (dirty : Bool), e.moment = now ∧
      t = { s with store := { s.store.changed now (·.logExchange e) with disk, dirty } } := by
  obtain ⟨e, -, hmoment, hwrite⟩ := h
  obtain ⟨done, hnext, hdone⟩ := hwrite s
  cases hreaches with
  | turn hreaches =>
    rw [hnext] at hreaches
    obtain ⟨result, rest, disk, dirty, -, hend⟩ := Pause.write_reaches hreaches
    rw [hdone] at hend
    obtain ⟨-, rfl, rfl⟩ := Course.reaches_ended.1 hend
    exact ⟨rfl, e, disk, dirty, hmoment, rfl⟩

/-- Concluding a request fails and stores nothing, or it gives the answer of the providers and
stores it under the fingerprint of the request, if that has one. -/
theorem conclude_reaches {job : Job} {ending : Ending Answer}
    (h : (conclude job ending now s).Reaches writes value t) :
    (∃ e gate, value = .error e ∧ t = { s with gate }) ∨
    ∃ answer reply attempts gate store, ending = .answered answer reply attempts ∧
      value = .ok answer ∧ Logged s.store store ∧
      t = { s with gate, store, caches := s.storing job answer } := by
  rcases conclude_cases job ending now s with ⟨e, -, -, hconclude⟩ |
    ⟨-, answer, reply, attempts, hending, ⟨-, hconclude⟩ | ⟨-, next, hconclude, hnext⟩⟩ <;>
    rw [hconclude] at h
  · obtain ⟨-, rfl, rfl⟩ := reaches_ended.1 h
    exact .inl ⟨e, _, rfl, rfl⟩
  · obtain ⟨-, rfl, rfl⟩ := reaches_ended.1 h
    exact .inr ⟨answer, reply, attempts, _, s.store, hending, rfl, .nothing, rfl⟩
  · obtain ⟨rfl, e, disk, dirty, rfl, rfl⟩ := hnext.reaches h
    dsimp only [released, Store.changed]
    exact .inr ⟨answer, reply, attempts, _, _, hending, rfl, .exchange e disk dirty, rfl⟩

/-! ## 3. Requests -/

/-- All that a request can come to: it is found, it is answered by the providers, or it fails. -/
inductive AssistEnds (s : Session) (request : Request) :
    Except AssistError Answer → Session → Prop
  | hit {answer : Answer} {gate : Gate} (h : s.cached? request = some answer) :
      AssistEnds s request (.ok answer) { s with gate, caches := s.lookedUp request }
  | answered {answer : Answer} {gate : Gate} {store : Store} {tally : Tally} {ms : Nat}
      (hmiss : s.cached? request = none) (hstore : Logged s.store store)
      (hgrown : s.tally.Grown tally)
      (hcalled : s.tally.length = s.chain.length → tally ≠ s.tally) :
      AssistEnds s request (.ok answer)
        { s with
          gate, store, tally
          clock := s.clock + ms
          caches := s.stored request (s.clock + ms) answer }
  | failed {e : AssistError} {gate : Gate} {tally : Tally} {ms : Nat}
      (hmiss : s.cached? request = none) (hgrown : s.tally.Grown tally) :
      AssistEnds s request (.error e)
        { s with gate, tally, clock := s.clock + ms, caches := s.lookedUp request }

theorem assist_reaches {request : Request} (h : (assist request now s).Reaches writes value t) :
    AssistEnds s request value t := by
  unfold assist at h
  obtain ⟨_, _, admission, u, hact, h, -⟩ := reaches_bind.1 h
  obtain ⟨-, rfl, rfl⟩ := reaches_act.1 hact
  rcases s.enter_cases request with ⟨answer, hcached, henter⟩ |
    ⟨job, hmiss, henter, hrequest, -, hfingerprint, -⟩ | ⟨hmiss, -, henter⟩ <;> rw [henter] at h
  · obtain ⟨-, rfl, rfl⟩ := reaches_pure.1 h
    exact .hit hcached
  · obtain ⟨_, _, seen, v, hget, h, -⟩ := reaches_bind.1 h
    obtain ⟨-, rfl, rfl⟩ := reaches_get.1 hget
    obtain ⟨_, _, ending, w, hfollow, h, -⟩ := reaches_bind.1 h
    obtain ⟨tally, ms, rfl, hgrown, hcalled⟩ := follow_reaches hfollow
    rcases conclude_reaches h with ⟨e, gate, rfl, rfl⟩ |
      ⟨answer, reply, attempts, gate, store, hending, rfl, hstore, rfl⟩
    · exact .failed hmiss hgrown
    · have hplaces : s.tally.length = s.chain.length → tally ≠ s.tally := by
        intro hlength
        refine hcalled (fun member hmember => ?_) answer reply attempts hending
        have hplace := snd_lt_of_mem_zipIdx hmember
        simpa [hlength] using hplace
      simp only [storing, hfingerprint, hrequest]
      exact .answered hmiss hstore hgrown hplaces
  · obtain ⟨-, rfl, rfl⟩ := reaches_pure.1 h
    exact @AssistEnds.failed s request _ _ s.tally 0 hmiss (.refl _)

/-- A request is found in the caches exactly when it is answered and calls nobody. -/
theorem AssistEnds.cached_iff {request : Request} (h : AssistEnds s request value t)
    (hcounted : s.tally.length = s.chain.length) {answer : Answer} :
    s.cached? request = some answer ↔ value = .ok answer ∧ t.tally = s.tally := by
  cases h with
  | hit hcached => simp [hcached]
  | answered hmiss _ _ hcalled => simp [hmiss, hcalled hcounted]
  | failed hmiss _ => simp [hmiss]

end Session

end CodeAssist
