import CodeAssist.Proofs.Cache
import CodeAssist.Proofs.Fingerprint
import CodeAssist.Proofs.Session.Requests
import CodeAssist.Session.Build

/-!
Where cached answers come from.

Requests are the only operations of a session that store answers, and what a request stores is its
own answer under its own fingerprint. So a request that is answered from a cache gets the answer
that the providers gave to a request of the same fingerprint, in this session and since the caches
were last cleared.

Such a request is the same but for the characters between its texts, and need not be the same
(`shared_fingerprints_alike`). Clearing the memory and merging a document into it clear the caches
too, if the memory could be written. If it could not, the memory has changed and the caches answer
as before (`resets_forget_when_written`).
-/

namespace CodeAssist

open List Option

variable {answer : Answer} {value : Except Store.ImportError Unit} {f : Fingerprint}
  {result : Option (Except AssistError Answer)}

/-! ## 1. Caches -/

namespace Caches

theorem mem_of_get {c : Caches} {now : Nat} (h : (c.get now f).1 = some answer) :
    ∃ e, (f, e) ∈ c.entries ∧ e.value = answer := by
  unfold get at h
  cases hcache : c.of? f.action with
  | none => simp [hcache] at h
  | some cache =>
    simp only [hcache] at h
    obtain ⟨e, hmem, -, hvalue⟩ := Cache.mem_of_get h
    refine ⟨e, ?_, hvalue⟩
    unfold of? at hcache
    cases haction : f.action <;> simp_all [entries]

theorem get_put {c : Caches} {cache : Cache Fingerprint Answer}
    (hcache : c.of? f.action = some cache) (hcapacity : 0 < cache.capacity) (now : Nat)
    (answer : Answer) {ttl : Nat} (httl : 0 < ttl) :
    ((c.put now f answer ttl).get now f).1 = some answer := by
  have hset : ∀ other, (c.set f.action other).of? f.action = some other := by
    intro other
    cases haction : f.action <;> simp_all [set, of?]
  simp only [put, hcache, get, hset]
  exact Cache.get_put hcapacity now f answer httl

theorem mem_put {c : Caches} {now : Nat} {ttl : Nat} {x : Fingerprint × Cache.Entry Answer}
    (h : x ∈ (c.put now f answer ttl).entries) :
    x ∈ c.entries ∨ x = (f, ⟨answer, now, ttl⟩) := by
  have hput : ∀ cache : Cache Fingerprint Answer, x ∈ (cache.put now f answer ttl).entries →
      x ∈ cache.entries ∨ x = (f, ⟨answer, now, ttl⟩) := by
    intro cache hmem
    rcases mem_append.1 (mem_of_mem_drop hmem) with hold | hnew
    · exact .inl (Cache.mem_without.1 hold).1
    · exact .inr (mem_singleton.1 hnew)
  rw [put] at h
  cases haction : f.action <;>
    simp only [haction, of?, set, entries, mem_append] at h ⊢ <;> grind

end Caches

namespace Session

theorem clearCaches_entries (s : Session) : s.clearCaches.caches.entries = [] :=
  rfl

theorem retire_entries (s : Session) : s.retire.caches.entries ⊆ s.caches.entries := by
  intro x hx
  simp only [retire, Caches.map, Cache.evict, Caches.entries, mem_append, mem_filter]
    at hx ⊢
  tauto

end Session

/-! ## 2. Courses that store nothing -/

/-- A session whose store and builds may have changed, some time later. -/
def Session.Beside (s t : Session) : Prop :=
  ∃ store compiles runs ms, s.store.Follows store ∧
    t = { s with store, compiles, runs, clock := s.clock + ms }

theorem Session.Beside.refl (s : Session) : s.Beside s :=
  ⟨_, _, _, 0, .refl _, rfl⟩

/-- An update that does what some operation does, whatever it finds. -/
def Store.Does (now : Moment) (u : Store → Store.Update ε α) : Prop :=
  ∃ op : Operation, ∀ s, (u s).effect now s.memory = op.effect s.root now s.memory

namespace Course

/-- Alone, a course leaves requests, caches and counts alone. -/
def Quiet (c : Course α) : Prop :=
  ∀ ⦃s : Session⦄ ⦃writes : List (Except StoreError Unit)⦄ ⦃value : α⦄ ⦃t : Session⦄,
    (c s).Reaches writes value t → s.Beside t

theorem quiet_pure (value : α) : Quiet (pure value) := by
  intro s writes result t h
  obtain ⟨-, -, rfl⟩ := reaches_pure.1 h
  exact .refl _

theorem Quiet.bind {c : Course α} {k : α → Course β} (hc : c.Quiet) (hk : ∀ a, (k a).Quiet) :
    (c >>= k).Quiet := by
  intro s writes value t h
  obtain ⟨before, after, middle, u, hfirst, hsecond, -⟩ := reaches_bind.1 h
  obtain ⟨_, _, _, ms, hstore, rfl⟩ := hc hfirst
  obtain ⟨store, compiles, runs, more, hmore, rfl⟩ := hk middle hsecond
  exact ⟨store, compiles, runs, ms + more, hstore.trans hmore, by simp [Nat.add_assoc]⟩

theorem quiet_act {f : Session → α × Session} (h : ∀ s : Session, s.Beside (f s).2) :
    (act f).Quiet := by
  intro s writes value t hact
  obtain ⟨-, -, rfl⟩ := reaches_act.1 hact
  exact h s

theorem quiet_modify {f : Session → Session} (h : ∀ s : Session, s.Beside (f s)) :
    (modify f : Course Unit).Quiet := by
  intro s writes value t hmodify
  obtain ⟨-, -, rfl⟩ := reaches_modify.1 hmodify
  exact h s

/-- Alone, an update does an operation to the store, and nothing else. -/
theorem quiet_update {u : Store → Store.Update ε α} {now : Moment} (hu : Store.Does now u) :
    (update u now).Quiet := by
  intro s writes value t h
  obtain ⟨op, hop⟩ := hu
  have heffect := hop s.store
  cases hupdate : u s.store with
  | idle answer =>
    obtain ⟨-, -, rfl⟩ := update_idle_reaches hupdate h
    exact .refl _
  | change change answer failure =>
    obtain ⟨result, disk, dirty, -, -, rfl⟩ := update_change_reaches hupdate h
    rw [hupdate] at heffect
    exact ⟨_, _, _, 0, .step (.refl _) heffect.symm, rfl⟩

theorem quiet_rest (ms : Nat) (ticket : Option Ticket) : (rest ms ticket).Quiet := by
  intro s writes value t h
  obtain ⟨-, -, rfl⟩ := reaches_rest.1 h
  exact ⟨_, _, _, ms, .refl _, rfl⟩

end Course

namespace Session

open Course

theorem quiet_updateFile (path content : String) (now : Moment) :
    (updateFile path content now).Quiet :=
  quiet_update ⟨.file path content, fun _ => rfl⟩

theorem quiet_updateEditing (p : EditPatch) (now : Moment) : (updateEditing p now).Quiet :=
  quiet_update ⟨.editing p, fun _ => rfl⟩

theorem quiet_addEvent (kind : EventKind) (details : Json) (now : Moment) :
    (addEvent kind details now).Quiet :=
  quiet_update ⟨.event kind details, fun _ => rfl⟩

theorem quiet_logBuild (kind : EventKind) (details : Json) (p : EditPatch) (now : Moment) :
    (logBuild kind details p now).Quiet := by
  unfold logBuild
  refine (quiet_addEvent kind details now).bind fun logged => ?_
  cases logged with
  | error e => exact quiet_pure _
  | ok => exact (quiet_updateEditing p now).bind fun _ => quiet_pure _

theorem quiet_useToolchain {state : BuildState}
    {use : Session → Except ToolchainError α × Session} {log : α → Course (Except StoreError Unit)}
    (huse : ∀ s : Session, s.Beside (use s).2) (hlog : ∀ output, (log output).Quiet)
    (now : Moment) : (useToolchain state use log now).Quiet := by
  unfold useToolchain
  refine (quiet_updateEditing _ now).bind fun begun => ?_
  cases begun with
  | error e => exact quiet_pure _
  | ok editing =>
    refine (quiet_act huse).bind fun result => ?_
    cases result with
    | error e => exact (quiet_updateEditing _ now).bind fun _ => quiet_pure _
    | ok output =>
      refine (hlog output).bind fun logged => ?_
      cases logged <;> exact quiet_pure _

theorem quiet_askHealth (chain : Chain) : (askHealth chain).Quiet := by
  induction chain with
  | nil => exact quiet_pure _
  | cons p others ih =>
    exact (quiet_rest _ _).bind fun _ => ih.bind fun _ => quiet_pure _

theorem quiet_providerHealth : providerHealth.Quiet := by
  intro s writes value t h
  exact quiet_askHealth s.chain h

variable {s t : Session} {writes : List (Except StoreError Unit)}

theorem close_reaches {value : Except StoreError Unit} (h : (close s).Reaches writes value t) :
    ∃ disk dirty, t = { s.retire with store := { s.store with disk, dirty } } := by
  unfold close at h
  obtain ⟨before, after, done, u, hmodify, hflush, -⟩ := reaches_bind.1 h
  obtain ⟨-, -, rfl⟩ := reaches_modify.1 hmodify
  exact flush_reaches hflush

/-! ## 3. Requests -/

variable {request : Request}

theorem mem_of_cached? {s : Session} (h : s.cached? request = some answer) :
    ∃ f e, Fingerprint.ofRequest? request s.store.view = some f ∧ (f, e) ∈ s.caches.entries ∧
      e.value = answer := by
  rw [cached?_eq] at h
  obtain ⟨f, hf, hget⟩ := bind_eq_some_iff.1 h
  obtain ⟨e, hmem, hvalue⟩ := Caches.mem_of_get hget
  exact ⟨f, e, hf, hmem, hvalue⟩

/-- The answer to a request is found again under its fingerprint. -/
theorem settled_cached {s : Session} {job : Job} (hcurrent : s.gate.isCurrent job.ticket = true)
    (hjob : job.fingerprint = some f) (httl : 0 < s.ttlOf job.request.action)
    (hroom : ∃ cache, s.caches.of? f.action = some cache ∧ 0 < cache.capacity)
    (hf : Fingerprint.ofRequest? request s.store.view = some f) (answer : Answer) (reply : Reply)
    (attempts : List Attempt) :
    (s.settle job (.answered answer reply attempts)).2.cached? request = some answer := by
  obtain ⟨cache, hcache, hcapacity⟩ := hroom
  rw [settle, if_pos hcurrent, cached?_eq]
  simp only [hjob, hf]
  exact Caches.get_put hcache hcapacity s.clock answer httl

variable {x : Fingerprint × Cache.Entry Answer} {now : Moment}

/-- Alone, a request is answered from the caches and stores nothing, or it goes to the providers and
stores at most its answer, under its fingerprint. -/
theorem AssistEnds.stores {value : Except AssistError Answer} (h : AssistEnds s request value t)
    (hx : x ∈ t.caches.entries) :
    x ∈ s.caches.entries ∨ (s.cached? request = none ∧ value = .ok x.2.value ∧
      Fingerprint.ofRequest? request s.store.view = some x.1) := by
  cases h with
  | hit | failed => exact .inl (s.entries_lookedUp request hx)
  | answered hmiss =>
    dsimp only [stored] at hx
    cases hf : Fingerprint.ofRequest? request s.store.view with
    | none =>
      rw [hf] at hx
      exact .inl (s.entries_lookedUp request hx)
    | some f =>
      rw [hf] at hx
      rcases Caches.mem_put hx with hold | rfl
      · exact .inl (s.entries_lookedUp request hold)
      · exact .inr ⟨hmiss, rfl, rfl⟩

/-! ## 4. Resets -/

/-- Clears the memory or merges a document into it. -/
inductive Reset where
  | clear
  | document (json : Json)
  | documentText (text : String)

namespace Reset

def operation : Reset → Operation
  | clear => .clear
  | document json => .document json
  | documentText text => .documentText text

/-- Makes a reset. What a merged document held is left out of the answer. -/
def course (now : Moment) : Reset → Course (Except Store.ImportError Unit)
  | clear => Except.mapError .store <$> Session.clear now
  | document json => Except.map (fun _ => ()) <$> importJson json now
  | documentText text => Except.map (fun _ => ()) <$> importText text now

/-- The memory after a reset, unless it is refused. -/
def effect (r : Reset) (now : Moment) (s : Session) : Option Memory :=
  r.operation.effect s.store.root now s.store.memory

end Reset

/-- All that a reset can come to: the results of its writes, its answer, and the session it
leaves. -/
inductive ResetEnds (s : Session) (effect : Option Memory) :
    List (Except StoreError Unit) → Except Store.ImportError Unit → Session → Prop
  | refused {refusal : ImportRefusal} (h : effect = none) :
      ResetEnds s effect [] (.error (.refused refusal)) s
  | unwritten {memory : Memory} {disk : Disk} {dirty : Bool} {e : StoreError}
      (h : effect = some memory) :
      ResetEnds s effect [.error e] (.error (.store e))
        { s with store := { s.store with memory, disk, dirty } }
  | written {memory : Memory} {disk : Disk} {dirty : Bool} (h : effect = some memory) :
      ResetEnds s effect [.ok ()] (.ok ())
        { s with store := { s.store with memory, disk, dirty } }.clearCaches

theorem clearingCaches_reaches {c : Course (Except ε α)} {value : Except ε α}
    (h : (clearingCaches c s).Reaches writes value t) :
    ∃ u, (c s).Reaches writes value u ∧
      ((∃ a, value = .ok a ∧ t = u.clearCaches) ∨ ∃ e, value = .error e ∧ t = u) := by
  unfold clearingCaches at h
  obtain ⟨before, after, result, u, hc, hrest, rfl⟩ := reaches_bind.1 h
  cases result with
  | error e =>
    obtain ⟨rfl, rfl, rfl⟩ := reaches_pure.1 hrest
    exact ⟨_, by rwa [append_nil], .inr ⟨e, rfl, rfl⟩⟩
  | ok a =>
    obtain ⟨before, after, done, v, hmodify, hend, rfl⟩ := reaches_bind.1 hrest
    obtain ⟨rfl, -, rfl⟩ := reaches_modify.1 hmodify
    obtain ⟨rfl, rfl, rfl⟩ := reaches_pure.1 hend
    exact ⟨u, by simpa using hc, .inl ⟨a, rfl, rfl⟩⟩

/-- An update that clears the caches is refused, or it is made and written once. -/
theorem clearing_ends {u : Store → Store.Update ε α}
    {f : Except ε α → Except Store.ImportError Unit}
    (hu : (∃ e refusal, u s.store = .idle (.error e) ∧ f (.error e) = .error (.refused refusal)) ∨
      ∃ change answer failure, u s.store = .change change answer failure ∧
        (∀ a, f (.ok a) = .ok ()) ∧ ∀ e, f (.error (failure e)) = .error (.store e))
    (h : ((f <$> clearingCaches (Course.update u now)) s).Reaches writes value t) :
    ResetEnds s ((u s.store).effect now s.store.memory) writes value t := by
  obtain ⟨result, hclearing, rfl⟩ := reaches_map.1 h
  obtain ⟨v, hupdate, hcleared⟩ := clearingCaches_reaches hclearing
  rcases hu with ⟨e, refusal, hidle, hrefused⟩ | ⟨change, answer, failure, hchange, hok, herror⟩
  · obtain ⟨rfl, rfl, rfl⟩ := update_idle_reaches hidle hupdate
    rcases hcleared with ⟨a, hvalue, -⟩ | ⟨_, -, rfl⟩
    · cases hvalue
    · rw [hrefused, hidle]
      exact .refused rfl
  · obtain ⟨written, disk, dirty, rfl, rfl, rfl⟩ := update_change_reaches hchange hupdate
    rw [hchange]
    cases written with
    | ok =>
      rcases hcleared with ⟨a, -, rfl⟩ | ⟨e, hvalue, -⟩
      · rw [answerOf, hok]
        exact .written rfl
      · cases hvalue
    | error e =>
      rcases hcleared with ⟨a, hvalue, -⟩ | ⟨_, -, rfl⟩
      · cases hvalue
      · rw [answerOf, herror]
        exact .unwritten rfl

theorem document_cases (root : List String) (json : Json) (now : Moment) :
    (∃ refusal, Store.Update.document root json now = .idle (.error (.refused refusal))) ∨
      ∃ change answer, Store.Update.document root json now = .change change answer .store := by
  unfold Store.Update.document
  cases CheckedImport.ofJson json root now with
  | error refusal => exact .inl ⟨refusal, rfl⟩
  | ok checked => exact .inr ⟨_, _, rfl⟩

theorem documentText_cases (root : List String) (text : String) (now : Moment) :
    (∃ refusal, Store.Update.documentText root text now = .idle (.error (.refused refusal))) ∨
      ∃ change answer, Store.Update.documentText root text now = .change change answer .store := by
  unfold Store.Update.documentText
  cases Json.read text with
  | none => exact .inl ⟨_, rfl⟩
  | some json => exact document_cases root json now

theorem import_ends {u : Store → Store.Update Store.ImportError ImportSummary}
    (hu : (∃ refusal, u s.store = .idle (.error (.refused refusal))) ∨
      ∃ change answer, u s.store = .change change answer .store)
    (h : ((Except.map (fun _ => ()) <$> clearingCaches (Course.update u now)) s).Reaches
      writes value t) :
    ResetEnds s ((u s.store).effect now s.store.memory) writes value t := by
  refine clearing_ends ?_ h
  rcases hu with ⟨refusal, hidle⟩ | ⟨change, answer, hchange⟩
  · exact .inl ⟨_, refusal, hidle, rfl⟩
  · exact .inr ⟨change, answer, _, hchange, fun _ => rfl, fun _ => rfl⟩

theorem Reset.ends {r : Reset} (h : (r.course now s).Reaches writes value t) :
    ResetEnds s (r.effect now s) writes value t := by
  cases r with
  | clear => exact clearing_ends (.inr ⟨_, _, _, rfl, fun _ => rfl, fun _ => rfl⟩) h
  | document json => exact import_ends (document_cases s.store.root json now) h
  | documentText text => exact import_ends (documentText_cases s.store.root text now) h

/-! ## 5. Runs -/

/-- What may be done in a session, one thing after the other. -/
inductive Deed where
  | file (path content : String)
  | edit (patch : EditPatch)
  | ask (request : Request)
  | diagnoseLast
  | reset (how : Reset)
  | recordCompilation (output : CompileOutput)
  | recordExecution (output : RunOutput)
  | compile (source : String)
  | run (source : String)
  | health
  | pass (ms : Nat)
  | close

/-- An answer that came from the providers, with its request and what that was seen against. -/
structure Given where
  request : Request
  view : View
  answer : Answer

def Given.fingerprint? (g : Given) : Option Fingerprint :=
  Fingerprint.ofRequest? g.request g.view

namespace Deed

/-- Does something that answers no request. -/
def silently (c : Course α) : Course (Option (Except AssistError Answer)) := do
  let _ ← c
  return none

/-- A deed as a course, with what the request came to if it was one. -/
def course (now : Moment) : Deed → Course (Option (Except AssistError Answer))
  | ask request => some <$> assist request now
  | diagnoseLast => diagnoseLastError now
  | file path content => silently (updateFile path content now)
  | edit patch => silently (updateEditing patch now)
  | reset how => silently (how.course now)
  | recordCompilation output => silently (Session.recordCompilation output now)
  | recordExecution output => silently (Session.recordExecution output now)
  | compile source => silently (Session.compile source now)
  | run source => silently (Session.run source now)
  | health => silently providerHealth
  | pass ms => silently (modify fun s => { s with clock := s.clock + ms })
  | close => silently Session.close

def request? (s : Session) : Deed → Option Request
  | ask request => some request
  | diagnoseLast => s.lastErrorRequest?
  | _ => none

/-- The answer that came from the providers, if one did. -/
def given (d : Deed) (s : Session) (result : Option (Except AssistError Answer)) : List Given :=
  match d.request? s, result with
  | some request, some (.ok answer) =>
    if (s.cached? request).isSome then [] else [⟨request, s.store.view, answer⟩]
  | _, _ => []

end Deed

/-- A session is used alone, with writes that may fail. The answers that came from the providers are
kept. -/
inductive Runs : Session → List Given → Session → Prop
  | done {s : Session} : Runs s [] s
  | step {s t u : Session} {d : Deed} {now : Moment} {writes : List (Except StoreError Unit)}
      {result : Option (Except AssistError Answer)} {given : List Given}
      (h : (d.course now s).Reaches writes result t) (hrest : Runs t given u) :
      Runs s (d.given s result ++ given) u

/-- An entry of the caches comes from before, or it is what the providers gave. -/
def Sourced (s : Session) (given : List Given) (x : Fingerprint × Cache.Entry Answer) : Prop :=
  x ∈ s.caches.entries ∨ ∃ g ∈ given, g.answer = x.2.value ∧ g.fingerprint? = some x.1

theorem silently_reaches {c : Course α} (h : (Deed.silently c s).Reaches writes result t) :
    result = none ∧ ∃ value, (c s).Reaches writes value t := by
  unfold Deed.silently at h
  obtain ⟨before, after, value, u, hc, hend, rfl⟩ := reaches_bind.1 h
  obtain ⟨rfl, rfl, rfl⟩ := reaches_pure.1 hend
  exact ⟨rfl, value, by rwa [append_nil]⟩

/-- All that can become of a session in a deed that is no request. -/
inductive DeedEnds (s : Session) : Deed → Session → Prop
  | beside {d : Deed} {t : Session} (h : s.Beside t) : DeedEnds s d t
  | reset {how : Reset} {store : Store} (hstore : s.store.Follows store) :
      DeedEnds s (.reset how) { s with store }.clearCaches
  | close {store : Store} (hstore : s.store.Follows store) :
      DeedEnds s .close { s.retire with store }

theorem DeedEnds.entries_subset {d : Deed} (h : DeedEnds s d t) :
    t.caches.entries ⊆ s.caches.entries := by
  cases h with
  | beside hbeside =>
    obtain ⟨store, compiles, runs, ms, -, rfl⟩ := hbeside
    exact Subset.refl _
  | reset => exact nil_subset _
  | close => exact retire_entries s

/-- A deed that is no request has no answer and ends in one of these ways, and one that is a request
ends as that does. -/
theorem Deed.ends {d : Deed} (h : (d.course now s).Reaches writes result t) :
    (d.request? s = none ∧ result = none ∧ DeedEnds s d t) ∨
    ∃ request value, d.request? s = some request ∧ result = some value ∧
      AssistEnds s request value t := by
  have hquiet : ∀ {α : Type} {c : Course α}, d.request? s = none → c.Quiet →
      (silently c s).Reaches writes result t →
      (d.request? s = none ∧ result = none ∧ DeedEnds s d t) ∨
      ∃ request value, d.request? s = some request ∧ result = some value ∧
        AssistEnds s request value t := by
    intro α c hnone hc hsilently
    obtain ⟨hresult, value, hreaches⟩ := silently_reaches hsilently
    exact .inl ⟨hnone, hresult, .beside (hc hreaches)⟩
  cases d with
  | ask request =>
    obtain ⟨value, hassist, rfl⟩ := reaches_map.1 h
    exact .inr ⟨request, value, rfl, rfl, assist_reaches hassist⟩
  | diagnoseLast =>
    unfold Deed.course diagnoseLastError at h
    obtain ⟨_, _, seen, u, hget, hrest, -⟩ := reaches_bind.1 h
    obtain ⟨-, rfl, rfl⟩ := reaches_get.1 hget
    cases hrequest : u.lastErrorRequest? with
    | none =>
      simp only [hrequest] at hrest
      obtain ⟨-, rfl, rfl⟩ := reaches_pure.1 hrest
      exact .inl ⟨hrequest, rfl, .beside (.refl _)⟩
    | some request =>
      simp only [hrequest] at hrest
      obtain ⟨_, _, value, v, hassist, hend, -⟩ := reaches_bind.1 hrest
      obtain ⟨-, rfl, rfl⟩ := reaches_pure.1 hend
      exact .inr ⟨request, value, hrequest, rfl, assist_reaches hassist⟩
  | file path content => exact hquiet rfl (quiet_updateFile path content now) h
  | edit patch => exact hquiet rfl (quiet_updateEditing patch now) h
  | reset how =>
    obtain ⟨hresult, value, hreset⟩ := silently_reaches h
    refine .inl ⟨rfl, hresult, ?_⟩
    cases how.ends hreset with
    | refused => exact .beside (.refl _)
    | unwritten heffect => exact .beside ⟨_, _, _, 0, .step (.refl _) heffect, rfl⟩
    | written heffect => exact .reset (.step (.refl _) heffect)
  | recordCompilation output | recordExecution output =>
    exact hquiet rfl (quiet_logBuild _ _ _ now) h
  | compile source | run source =>
    exact hquiet rfl (quiet_useToolchain (fun _ => ⟨_, _, _, 0, .refl _, rfl⟩)
      (fun _ => quiet_logBuild _ _ _ now) now) h
  | health => exact hquiet rfl quiet_providerHealth h
  | pass ms => exact hquiet rfl (quiet_modify fun _ => ⟨_, _, _, ms, .refl _, rfl⟩) h
  | close =>
    obtain ⟨hresult, value, hclose⟩ := silently_reaches h
    obtain ⟨disk, dirty, rfl⟩ := close_reaches hclose
    exact .inl ⟨rfl, hresult, .close .same⟩

theorem step_sourced {d : Deed} (h : (d.course now s).Reaches writes result t)
    (hx : x ∈ t.caches.entries) :
    s.Sourced (d.given s result) x := by
  rcases Deed.ends h with ⟨-, -, hends⟩ | ⟨request, value, hrequest, rfl, hends⟩
  · exact .inl (hends.entries_subset hx)
  · rcases hends.stores hx with hold | ⟨hmiss, rfl, hf⟩
    · exact .inl hold
    · refine .inr ⟨⟨request, s.store.view, x.2.value⟩, ?_, rfl, hf⟩
      simp [Deed.given, hrequest, hmiss]

/-- Whatever is done, the caches hold what they held and what the providers gave since. -/
theorem runs_sourced {s u : Session} {given : List Given} (h : Runs s given u)
    (hx : x ∈ u.caches.entries) : s.Sourced given x := by
  induction h with
  | done => exact .inl hx
  | step hstep _ ih =>
    rcases ih hx with hkept | ⟨g, hg, hanswer, hf⟩
    · rcases step_sourced hstep hkept with hold | ⟨g, hg, hanswer, hf⟩
      · exact .inl hold
      · exact .inr ⟨g, mem_append_left _ hg, hanswer, hf⟩
    · exact .inr ⟨g, mem_append_right _ hg, hanswer, hf⟩

/-- From empty caches on, a request is answered with what the providers gave to a request of the
same fingerprint. -/
theorem cached?_given {s u : Session} {given : List Given} (hempty : s.caches.entries = [])
    (h : Runs s given u) (hcached : u.cached? request = some answer) :
    ∃ g ∈ given, g.answer = answer ∧ ∃ f, g.fingerprint? = some f ∧
      Fingerprint.ofRequest? request u.store.view = some f := by
  obtain ⟨f, e, hf, hmem, rfl⟩ := mem_of_cached? hcached
  rcases runs_sourced h hmem with hold | ⟨g, hg, hanswer, hgiven⟩
  · rw [hempty] at hold
    cases hold
  · exact ⟨g, hg, hanswer, f, hgiven, hf⟩

theorem runs_alone (d : Deed) (now : Moment) (s : Session) :
    Runs s (d.given s ((d.course now).run s).1) ((d.course now).run s).2 := by
  obtain ⟨writes, h⟩ := (d.course now).run_reaches s
  simpa using Runs.step h .done

/-! ## 6. The main statements -/

/-- Against any view, requests that may be cached share their fingerprint exactly when they are
alike. Plain ones that are alike are the same. And a request of a session is answered from a cache
only with what the providers gave to a request that is alike. -/
theorem shared_fingerprints_alike (r r' : Request) (view : View) :
    (r.action ≠ .generation →
      (Fingerprint.ofRequest? r view = Fingerprint.ofRequest? r' view ↔ r.Alike r')) ∧
    (r.Alike r' → r.Plain → r'.Plain → r = r') ∧
    (∀ (store : Store) (chain : Chain) (toolchain : Toolchain) (prompts : Prompt.Config)
      (tuning : Tuning) (requestId : Ticket → String) (given : List Given) (u : Session)
      (answer : Answer), Runs (.start store chain toolchain prompts tuning requestId) given u →
      u.cached? r = some answer →
      ∃ g ∈ given, g.answer = answer ∧ g.request.Alike r) := by
  refine ⟨fun hcached => ⟨fun hsame => ?_, fun halike => ?_⟩, fun halike => ?_, ?_⟩
  · obtain ⟨f, hf⟩ := Fingerprint.exists_ofRequest? hcached view
    exact Fingerprint.alike_of_ofRequest? hf (hsame ▸ hf)
  · exact Fingerprint.ofRequest?_eq_of_alike halike view
  · exact halike.eq_of_plain
  · intro store chain toolchain prompts tuning requestId given u answer hruns hcached
    obtain ⟨g, hg, hanswer, f, hgiven, hf⟩ := cached?_given rfl hruns hcached
    exact ⟨g, hg, hanswer, Fingerprint.alike_of_ofRequest? hgiven hf⟩

/-- A provider that says whether it was called before. -/
def counting : Provider where
  name := "counting"
  isLocal := true
  complete := fun earlier _ =>
    .answers 0 (.ok ⟨"counting", if earlier = 0 then "first" else "second", [], .null⟩)
  health := .silent

/-- A session on a disk, after a build that failed. -/
def afterFailure (disk : Disk) : Session :=
  let fresh := Memory.fresh [] .epoch
  .start ⟨[], { fresh with editing := { fresh.editing with lastError := some "boom" } }, false,
    disk⟩ [counting] (.scripted [] []) .standard {} fun _ => "1"

def completing : Request :=
  .completion ⟨0, 0⟩ "x"

/-- The answer with a reply of the provider. -/
def saying (text : String) : Answer :=
  .completion ⟨"counting", text, [], .null⟩

def doing (d : Deed) (s : Session) : Session :=
  ((d.course .epoch).run s).2

/-- The session after a request for a completion. -/
def askedOnce (disk : Disk) : Session :=
  doing (.ask completing) (afterFailure disk)

/-- The session after a request for a completion, with its memory cleared. -/
def cleared (disk : Disk) : Session :=
  doing (.reset .clear) (askedOnce disk)

/-- Reviews with a comma in an area, or between two. -/
def commaReviews : Request × Request :=
  (.review "int x;" ["a,b"], .review "int x;" ["a", "b"])

theorem commaReviews_share :
    Fingerprint.ofRequest? commaReviews.1 (afterFailure .empty).store.view =
      Fingerprint.ofRequest? commaReviews.2 (afterFailure .empty).store.view := by
  decide +kernel

/-- Two reviews that share a fingerprint, and a completion that is found in the cache. -/
theorem shared_fingerprints_alike_comma :
    commaReviews.1.Alike commaReviews.2 ∧
      (askedOnce .empty).cached? completing = some (saying "first") ∧
      ∃ given, Runs (afterFailure .empty) given (askedOnce .empty) ∧
        ∃ g ∈ given, g.answer = saying "first" ∧ g.request.Alike completing := by
  have hruns := runs_alone (.ask completing) .epoch (afterFailure .empty)
  have hcached : (askedOnce .empty).cached? completing = some (saying "first") := rfl
  obtain ⟨hshared, -, -⟩ := shared_fingerprints_alike commaReviews.1 commaReviews.2 _
  obtain ⟨-, -, hserved⟩ := shared_fingerprints_alike completing completing
    (afterFailure .empty).store.view
  exact ⟨(hshared (by decide)).1 commaReviews_share, hcached, _, hruns,
    hserved _ _ _ _ _ _ _ _ _ hruns hcached⟩

/-- Two reviews are not the same and share a fingerprint, so that the answer to one is what the
other is answered with. -/
theorem review_answered_as_another :
    let answer := Answer.review ⟨"first", [], [], "counting"⟩
    commaReviews.1 ≠ commaReviews.2 ∧
      Fingerprint.ofRequest? commaReviews.1 (afterFailure .empty).store.view =
        Fingerprint.ofRequest? commaReviews.2 (afterFailure .empty).store.view ∧
      ∃ job, ((afterFailure .empty).enter commaReviews.1).1 = .dispatched job ∧
        (((afterFailure .empty).enter commaReviews.1).2.settle job
          (.answered answer default [])).2.cached? commaReviews.2 = some answer := by
  intro answer
  refine ⟨by decide, commaReviews_share, ?_⟩
  obtain ⟨f, hf, haction⟩ : ∃ f, Fingerprint.ofRequest? commaReviews.1
      (afterFailure .empty).store.view = some f ∧ f.action = .review := ⟨_, rfl, rfl⟩
  have hshared := commaReviews_share.symm.trans hf
  refine ⟨_, rfl, settled_cached (f := f) ?current ?job ?ttl ?room ?shared answer default []⟩
  case current => rfl
  case job => exact hf
  case ttl => decide
  case room =>
    rw [haction]
    exact ⟨_, rfl, by decide⟩
  case shared => exact hshared

/-- A reset that is not refused changes the memory. If that is written, the caches forget: what a
later request gets from them is what the providers gave since. If it cannot be written, the caches
answer as they did before. -/
theorem resets_forget_when_written (r : Reset) (now : Moment) (s t : Session)
    (writes : List (Except StoreError Unit)) (value : Except Store.ImportError Unit)
    (h : (r.course now s).Reaches writes value t) :
    match r.effect now s with
    | none => t = s ∧ ∃ refusal, value = .error (.refused refusal)
    | some memory =>
      t.store.memory = memory ∧
      ((writes = [.ok ()] ∧ value = .ok () ∧
        ∀ (given : List Given) (u : Session) (request : Request) (answer : Answer),
          Runs t given u → u.cached? request = some answer →
          ∃ g ∈ given, g.answer = answer ∧
            g.fingerprint? = Fingerprint.ofRequest? request u.store.view) ∨
      (∃ e, writes = [.error e] ∧ value = .error (.store e) ∧
        ∀ request request' : Request,
          Fingerprint.ofRequest? request t.store.view =
            Fingerprint.ofRequest? request' s.store.view →
          t.cached? request = s.cached? request')) := by
  have hends := r.ends h
  cases heffect : r.effect now s with
  | none =>
    rw [heffect] at hends
    cases hends with
    | refused => exact ⟨rfl, _, rfl⟩
    | unwritten hsome => cases hsome
    | written hsome => cases hsome
  | some memory =>
    rw [heffect] at hends
    cases hends with
    | refused hnone => cases hnone
    | @unwritten _ _ _ e hsome =>
      cases hsome
      refine ⟨rfl, .inr ⟨e, rfl, rfl, fun request request' hsame => ?_⟩⟩
      rw [cached?_eq, cached?_eq, hsame]
    | written hsome =>
      cases hsome
      refine ⟨rfl, .inl ⟨rfl, rfl, fun given u request answer hruns hcached => ?_⟩⟩
      obtain ⟨g, hg, hanswer, f, hgiven, hf⟩ :=
        cached?_given (clearCaches_entries _) hruns hcached
      exact ⟨g, hg, hanswer, hgiven.trans hf.symm⟩

/-- A completion that is asked for again after the memory was cleared. -/
theorem resets_forget_when_written_asked_again :
    let again := doing (.ask completing) (cleared .empty)
    (askedOnce .empty).cached? completing = some (saying "first") ∧
      again.cached? completing = some (saying "second") ∧
      ∃ given, Runs (cleared .empty) given again ∧ ∃ g ∈ given, g.answer = saying "second" ∧
        g.fingerprint? = Fingerprint.ofRequest? completing again.store.view := by
  have hruns := runs_alone (.ask completing) .epoch (cleared .empty)
  have hcached : (doing (.ask completing) (cleared .empty)).cached? completing =
      some (saying "second") := rfl
  have hwritten : ((Reset.clear.course .epoch).run (askedOnce .empty)).1 = .ok () := rfl
  obtain ⟨writes, h⟩ := (Reset.clear.course .epoch).run_reaches (askedOnce .empty)
  refine ⟨rfl, hcached, _, hruns, ?_⟩
  obtain ⟨-, hends⟩ := resets_forget_when_written .clear .epoch _ _ writes _ h
  rcases hends with ⟨-, -, hforget⟩ | ⟨e, -, hvalue, -⟩
  · exact hforget _ _ _ _ hruns hcached
  · rw [hwritten] at hvalue
    cases hvalue

/-- That the memory was cleared fails to be written. A completion that was asked for before is still
answered from the cache. -/
theorem cleared_memory_cached_answer :
    ((Session.clear .epoch).run (askedOnce brokenDisk)).1 =
        .error (.write [memoryDirectory] .notADirectory) ∧
      (askedOnce brokenDisk).store.memory.editing.lastError = some "boom" ∧
      (cleared brokenDisk).store.memory.editing.lastError = none ∧
      ((assist completing .epoch).run (cleared brokenDisk)).1 = .ok (saying "first") ∧
      ((assist completing .epoch).run (cleared brokenDisk)).2.tally =
        (askedOnce brokenDisk).tally :=
  ⟨rfl, rfl, rfl, rfl, rfl⟩

end Session

end CodeAssist
