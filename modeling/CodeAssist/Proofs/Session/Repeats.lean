import CodeAssist.Proofs.Memory.Sound
import CodeAssist.Proofs.Session.Cached

/-!
Requests that are answered again.

A history of a session is a list of occasions, each with the session before and after it. For the
cache of one kind of action, every occasion is a few moves: a look-up, some time, and an answer that
is stored when a provider gave one. So what a cache gives out over a run of moves
(`Cache.stored_of_get`, `Cache.get_of_stored`) tells which occasion an answer comes from that cost
no call.
-/

namespace CodeAssist

open Course List Option Fingerprint

variable {answer : Answer} {value : Except AssistError Answer} {request : Request}

namespace Session

/-! ## 1. Occasions -/

/-- Something that was done in a session: the session before it, what the request came to if it was
one, and the session after it. -/
structure Occasion where
  deed : Deed
  before : Session
  result : Option (Except AssistError Answer)
  after : Session

variable {earlier later : List Occasion}

namespace Occasion

/-- It was done alone. Its writes may have failed. -/
def Happened (o : Occasion) : Prop :=
  ∃ now writes, (o.deed.course now o.before).Reaches writes o.result o.after

def request? (o : Occasion) : Option Request :=
  o.deed.request? o.before

/-- The fingerprint of the request, against what was seen when it was made. -/
def fingerprint? (o : Occasion) : Option Fingerprint :=
  o.request?.bind fun request => ofRequest? request o.before.store.view

def CallsNobody (o : Occasion) : Prop :=
  o.after.tally = o.before.tally

/-- The answer that a call of the providers gave, with the fingerprint of its request. -/
def provided? (o : Occasion) : Option (Fingerprint × Answer) :=
  match o.fingerprint?, o.result with
  | some f, some (.ok answer) =>
    if o.after.tally = o.before.tally then none else some (f, answer)
  | _, _ => none

theorem ends {o : Occasion} (h : o.Happened) :
    (o.request? = none ∧ o.result = none ∧ DeedEnds o.before o.deed o.after) ∨
    ∃ request value, o.request? = some request ∧ o.result = some value ∧
      AssistEnds o.before request value o.after := by
  obtain ⟨now, writes, h⟩ := h
  exact Deed.ends h

end Occasion

/-- One thing after the other is done in a session. -/
inductive History : Session → List Occasion → Session → Prop
  | done {s : Session} : History s [] s
  | step {o : Occasion} {rest : List Occasion} {u : Session} (h : o.Happened)
      (hrest : History o.after rest u) : History o.before (o :: rest) u

/-- A later session of the same history. -/
structure Steady (s t : Session) : Prop where
  chain : t.chain = s.chain
  tuning : t.tuning = s.tuning
  tally : t.tally.length = s.tally.length
  clock : s.clock ≤ t.clock
  store : s.store.Follows t.store

theorem Steady.refl (s : Session) : s.Steady s :=
  ⟨rfl, rfl, rfl, Nat.le_refl _, .refl _⟩

theorem Steady.trans {s t u : Session} (h : s.Steady t) (h' : t.Steady u) : s.Steady u :=
  ⟨h'.chain.trans h.chain, h'.tuning.trans h.tuning, h'.tally.trans h.tally,
    Nat.le_trans h.clock h'.clock, h.store.trans h'.store⟩

variable {s t : Session}

theorem Steady.ttlOf_eq (h : s.Steady t) (action : Action) :
    t.ttlOf action = s.ttlOf action := by
  unfold ttlOf
  rw [h.tuning]

theorem Steady.counted (h : s.Steady t) (hcounted : s.tally.length = s.chain.length) :
    t.tally.length = t.chain.length := by
  rw [h.tally, h.chain, hcounted]

theorem DeedEnds.steady {d : Deed} (h : DeedEnds s d t) : s.Steady t := by
  cases h with
  | beside hbeside =>
    obtain ⟨store, compiles, runs, ms, hstore, rfl⟩ := hbeside
    exact ⟨rfl, rfl, rfl, Nat.le_add_right .., hstore⟩
  | reset hstore | close hstore => exact ⟨rfl, rfl, rfl, Nat.le_refl _, hstore⟩

theorem AssistEnds.steady (h : AssistEnds s request value t) : s.Steady t := by
  cases h with
  | hit => exact ⟨rfl, rfl, rfl, Nat.le_refl _, .refl _⟩
  | answered _ hstore hgrown _ =>
    exact ⟨rfl, rfl, hgrown.length_eq, Nat.le_add_right .., hstore.follows⟩
  | failed _ hgrown => exact ⟨rfl, rfl, hgrown.length_eq, Nat.le_add_right .., .refl _⟩

theorem Occasion.Happened.steady {o : Occasion} (h : o.Happened) : o.before.Steady o.after := by
  rcases Occasion.ends h with ⟨-, -, hends⟩ | ⟨request, value, -, -, hends⟩
  · exact hends.steady
  · exact hends.steady

theorem History.steady {past : List Occasion} (h : History s past t) :
    s.Steady t := by
  induction h with
  | done => exact .refl _
  | step ho _ ih => exact ho.steady.trans ih

theorem History.split {o : Occasion} (h : History s (earlier ++ o :: later) t) :
    History s earlier o.before ∧ o.Happened ∧ History o.after later t := by
  induction earlier generalizing s with
  | nil =>
    cases h with
    | step ho hlater => exact ⟨.done, ho, hlater⟩
  | cons first earlier ih =>
    cases h with
    | step hfirst hrest =>
      obtain ⟨hearlier, ho, hlater⟩ := ih hrest
      exact ⟨.step hfirst hearlier, ho, hlater⟩

end Session

/-! ## 2. One cache -/

namespace Caches

theorem exists_of? (c : Caches) {action : Action} (h : action ≠ .generation) :
    ∃ cache, c.of? action = some cache := by
  cases action with
  | generation => exact absurd rfl h
  | _ => exact ⟨_, rfl⟩

theorem of?_get (c : Caches) (now : Nat) (f : Fingerprint) (action : Action) :
    (c.get now f).2.of? action =
      if f.action = action then (c.of? action).map fun cache => (cache.get now f).2
      else c.of? action := by
  unfold get
  cases hkind : f.action <;> cases action <;> simp [of?, set]

theorem of?_put (c : Caches) (now : Nat) (f : Fingerprint) (answer : Answer) (ttl : Nat)
    (action : Action) :
    (c.put now f answer ttl).of? action =
      if f.action = action then (c.of? action).map fun cache => cache.put now f answer ttl
      else c.of? action := by
  unfold put
  cases hkind : f.action <;> cases action <;> simp [of?, set]

theorem get_fst (c : Caches) (now : Nat) (f : Fingerprint) :
    (c.get now f).1 = (c.of? f.action).bind fun cache => (cache.get now f).1 := by
  unfold get
  cases c.of? f.action <;> rfl

end Caches

namespace Session

variable {earlier later : List Occasion} {source : Occasion}

/-- The cache of a kind of action, at the time of the session. The one for generations stays
empty. -/
def timed (s : Session) (action : Action) : Cache.Timed Fingerprint Answer :=
  ⟨(s.caches.of? action).getD (.empty 0), s.clock⟩

theorem timed_start (store : Store) (chain : Chain) (toolchain : Toolchain)
    (prompts : Prompt.Config) (tuning : Tuning) (requestId : Ticket → String) {action : Action}
    (h : action ≠ .generation) :
    (start store chain toolchain prompts tuning requestId).timed action =
      .start tuning.cacheCapacity 0 := by
  cases action with
  | generation => exact absurd rfl h
  | _ => rfl

variable {f : Fingerprint}

theorem cached?_timed {s : Session} (hf : ofRequest? request s.store.view = some f) :
    s.cached? request = ((s.timed f.action).cache.get (s.timed f.action).clock f).1 := by
  obtain ⟨cache, hcache⟩ := s.caches.exists_of? (action_ne_generation hf)
  rw [cached?_eq, hf]
  simp [Caches.get_fst, timed, hcache]

/-- The fingerprint of a request, if it is one for the cache of a kind of action. -/
def key? (s : Session) (request : Request) (action : Action) : Option Fingerprint :=
  (ofRequest? request s.store.view).filter (·.action = action)

theorem key?_eq_some {s : Session} {action : Action} :
    s.key? request action = some f ↔
      ofRequest? request s.store.view = some f ∧ f.action = action := by
  simp [key?, filter_eq_some_iff]

theorem key?_eq_none {s : Session} {action : Action} (h : s.key? request action = none)
    (hf : ofRequest? request s.store.view = some f) :
    f.action ≠ action :=
  fun haction => by simp [key?, hf, haction] at h

theorem of?_lookedUp (s : Session) (request : Request) (action : Action) :
    (⟨((s.lookedUp request).of? action).getD (.empty 0), s.clock⟩ :
        Cache.Timed Fingerprint Answer) =
      (s.timed action).run ((s.key? request action).toList.map .get) := by
  unfold lookedUp
  cases hkey : s.key? request action with
  | none =>
    cases hf : ofRequest? request s.store.view with
    | none => rfl
    | some f =>
      dsimp only
      rw [Caches.of?_get, if_neg (key?_eq_none hkey hf)]
      rfl
  | some f =>
    obtain ⟨hf, rfl⟩ := key?_eq_some.1 hkey
    obtain ⟨cache, hcache⟩ := s.caches.exists_of? (action_ne_generation hf)
    simp [hf, Caches.of?_get, hcache, timed, Cache.Timed.run, Cache.Timed.step]

/-- Storing the answer to a request stores it in the cache of its kind. -/
theorem of?_stored (s : Session) (request : Request) (clock : Nat) (answer : Answer)
    (action : Action) :
    (⟨((s.stored request clock answer).of? action).getD (.empty 0), clock⟩ :
        Cache.Timed Fingerprint Answer) =
      Cache.Timed.run ⟨((s.lookedUp request).of? action).getD (.empty 0), clock⟩
        ((s.key? request action).toList.map fun f => .put f answer (s.ttlOf action)) := by
  unfold stored
  cases hkey : s.key? request action with
  | none =>
    cases hf : ofRequest? request s.store.view with
    | none => rfl
    | some f =>
      dsimp only
      rw [Caches.of?_put, if_neg (key?_eq_none hkey hf)]
      rfl
  | some f =>
    obtain ⟨hf, rfl⟩ := key?_eq_some.1 hkey
    have haction := (ofRequest?_eq_some hf).2.1
    obtain ⟨cache, hcache⟩ :=
      (s.lookedUp request).exists_of? (action_ne_generation hf)
    simp [hf, Caches.of?_put, hcache, ← haction, Cache.Timed.run, Cache.Timed.step]

theorem timed_run_append (s : Session) (action : Action)
    (moves rest : List (Cache.Move Fingerprint Answer)) :
    (s.timed action).run (moves ++ rest) = ((s.timed action).run moves).run rest :=
  foldl_append

/-! ## 3. Moves -/

theorem DeedEnds.moves {s t : Session} {d : Deed} (h : DeedEnds s d t) (action : Action) :
    ∃ moves, t.timed action = (s.timed action).run moves ∧ Cache.storedKeys moves = [] ∧
      (.clear ∈ moves → ∃ how, d = .reset how) := by
  cases h with
  | beside hbeside =>
    obtain ⟨store, compiles, runs, ms, -, rfl⟩ := hbeside
    exact ⟨[.advance ms], rfl, rfl, by simp⟩
  | @reset how =>
    refine ⟨[.clear], ?_, rfl, fun _ => ⟨how, rfl⟩⟩
    unfold timed clearCaches
    cases action <;> rfl
  | close =>
    refine ⟨[.evict], ?_, rfl, by simp⟩
    unfold timed retire
    cases action <;> rfl

/-- A request looks up and takes its time, and at last its answer is stored, if it comes from the
providers. -/
theorem AssistEnds.moves {s t : Session} (h : AssistEnds s request value t) (action : Action) :
    ∃ front puts, t.timed action = (s.timed action).run (front ++ puts) ∧
      Cache.storedKeys front = [] ∧ .clear ∉ front ∧
      ((puts = [] ∧ (t.tally = s.tally ∨ ∃ e, value = .error e)) ∨
      ∃ answer, value = .ok answer ∧
        (s.tally.length = s.chain.length → t.tally ≠ s.tally) ∧
        puts = (s.key? request action).toList.map fun f => .put f answer (s.ttlOf action)) := by
  have hlook : Cache.storedKeys ((s.key? request action).toList.map .get :
      List (Cache.Move Fingerprint Answer)) = [] := by
    cases s.key? request action <;> rfl
  cases h with
  | hit =>
    refine ⟨(s.key? request action).toList.map .get, [], ?_, hlook, by simp, .inl ⟨rfl, .inl rfl⟩⟩
    rw [append_nil, ← of?_lookedUp]
    rfl
  | @answered answer gate store tally ms _ _ _ hcalled =>
    refine ⟨(s.key? request action).toList.map .get ++ [.advance ms], _, ?_, ?_, by simp,
      .inr ⟨answer, rfl, hcalled, rfl⟩⟩
    · rw [timed_run_append, timed_run_append, ← of?_lookedUp]
      exact of?_stored s request (s.clock + ms) answer action
    · rw [Cache.storedKeys_append, hlook]
      rfl
  | @failed e gate tally ms =>
    refine ⟨(s.key? request action).toList.map .get ++ [.advance ms], [], ?_, ?_, by simp,
      .inl ⟨rfl, .inr ⟨e, rfl⟩⟩⟩
    · rw [append_nil, timed_run_append, ← of?_lookedUp]
      rfl
    · rw [Cache.storedKeys_append, hlook]
      rfl

namespace Occasion

variable {o : Occasion} {action : Action}

theorem provided?_of_callsNobody (h : o.CallsNobody) : o.provided? = none := by
  unfold provided?
  split
  · exact if_pos h
  · rfl

theorem provided?_of_unanswered (h : ∀ answer, o.result ≠ some (.ok answer)) :
    o.provided? = none := by
  unfold provided?
  split
  · rename_i answer _ hresult
    exact absurd hresult (h answer)
  · rfl

theorem provided?_of_called (hresult : o.result = some (.ok answer)) (hcalled : ¬ o.CallsNobody) :
    o.provided? = o.fingerprint?.map fun f => (f, answer) := by
  unfold provided?
  rw [hresult]
  cases o.fingerprint? with
  | none => rfl
  | some f => exact if_neg hcalled

theorem fingerprint?_of_provided? {f : Fingerprint} (h : o.provided? = some (f, answer)) :
    o.fingerprint? = some f := by
  unfold provided? at h
  split at h
  · rename_i g said hf _
    split at h
    · cases h
    · cases h
      exact hf
  · cases h

/-- The move that stores what the providers gave, if they gave something of a kind. -/
def put? (o : Occasion) (action : Action) : Option (Cache.Move Fingerprint Answer) :=
  (o.provided?.filter (·.1.action = action)).map fun given =>
    .put given.1 given.2 (o.before.ttlOf action)

theorem put?_eq_some {f : Fingerprint} {ttl : Nat} :
    o.put? action = some (.put f answer ttl) ↔
      o.provided? = some (f, answer) ∧ f.action = action ∧ ttl = o.before.ttlOf action := by
  unfold put?
  constructor
  · intro h
    obtain ⟨given, hgiven, hput⟩ := map_eq_some_iff.1 h
    obtain ⟨hprovided, haction⟩ := filter_eq_some_iff.1 hgiven
    cases hput
    exact ⟨hprovided, of_decide_eq_true haction, rfl⟩
  · rintro ⟨hprovided, haction, rfl⟩
    simp [hprovided, haction]

theorem mem_storedKeys_put? {f : Fingerprint} :
    f ∈ Cache.storedKeys (o.put? action).toList ↔
      (∃ answer, o.provided? = some (f, answer)) ∧ f.action = action := by
  unfold put?
  cases o.provided? with
  | none => simp [Cache.storedKeys]
  | some given =>
    obtain ⟨g, said⟩ := given
    by_cases haction : g.action = action <;>
      simp [haction, Cache.storedKeys, Cache.Move.key?] <;> grind

/-- What an occasion does to the cache of a kind of action: some moves that store nothing, and then
what the providers gave is stored. -/
structure Moves (action : Action) (o : Occasion) (front : List (Cache.Move Fingerprint Answer)) :
    Prop where
  run : o.after.timed action = (o.before.timed action).run (front ++ (o.put? action).toList)
  stores : Cache.storedKeys front = []
  clears : .clear ∈ front → ∃ how, o.deed = .reset how

theorem exists_moves (h : o.Happened) (hcounted : o.before.tally.length = o.before.chain.length)
    (action : Action) : ∃ front, o.Moves action front := by
  rcases ends h with ⟨-, hresult, hends⟩ | ⟨request, value, hrequest, hresult, hends⟩
  · obtain ⟨moves, hrun, hstores, hclears⟩ := hends.moves action
    have hput : o.put? action = none := by
      rw [put?, provided?_of_unanswered (by simp [hresult])]
      rfl
    exact ⟨moves, by rw [hput]; simpa using hrun, hstores, hclears⟩
  · obtain ⟨front, puts, hrun, hstores, hkept, hputs⟩ := hends.moves action
    have hput : puts = (o.put? action).toList := by
      rcases hputs with ⟨rfl, hnobody | ⟨e, rfl⟩⟩ | ⟨answer, rfl, hcalled, rfl⟩
      · rw [put?, provided?_of_callsNobody hnobody]
        rfl
      · rw [put?, provided?_of_unanswered (by simp [hresult])]
        rfl
      · have hfingerprint : o.fingerprint? =
            ofRequest? request o.before.store.view := by
          rw [fingerprint?, hrequest]
          rfl
        rw [put?, provided?_of_called hresult (hcalled hcounted), hfingerprint, key?]
        cases ofRequest? request o.before.store.view with
        | none => rfl
        | some f => by_cases haction : f.action = action <;> simp [Option.filter, haction]
    exact ⟨front, hput ▸ hrun, hstores, fun hclear => absurd hclear hkept⟩

end Occasion

/-- The moves that some occasions make in the cache of a kind of action. -/
inductive Plays (action : Action) :
    List Occasion → List (Cache.Move Fingerprint Answer) → Prop
  | nil : Plays action [] []
  | cons {o : Occasion} {past : List Occasion}
      {front moves : List (Cache.Move Fingerprint Answer)} (ho : o.Moves action front)
      (hpast : Plays action past moves) :
      Plays action (o :: past) (front ++ (o.put? action).toList ++ moves)

/-- The fingerprints of the requests that the providers answered. -/
def provisions (past : List Occasion) : List Fingerprint :=
  past.filterMap fun o => o.provided?.map (·.1)

theorem mem_provisions {past : List Occasion} :
    f ∈ provisions past ↔ ∃ o ∈ past, ∃ answer, o.provided? = some (f, answer) := by
  simp [provisions]

theorem History.exists_plays {s t : Session} {past : List Occasion} (h : History s past t)
    (hcounted : s.tally.length = s.chain.length) (action : Action) :
    ∃ moves, Plays action past moves := by
  induction h with
  | done => exact ⟨[], .nil⟩
  | step ho _ ih =>
    obtain ⟨front, hfront⟩ := Occasion.exists_moves ho hcounted action
    obtain ⟨moves, hmoves⟩ := ih (ho.steady.counted hcounted)
    exact ⟨_, .cons hfront hmoves⟩

namespace Plays

variable {action : Action} {past : List Occasion} {moves : List (Cache.Move Fingerprint Answer)}

/-- The moves lead from the cache before the occasions to the cache after them. -/
theorem run_eq (h : Plays action past moves) {s t : Session} (hhistory : History s past t) :
    t.timed action = (s.timed action).run moves := by
  induction h generalizing s with
  | nil =>
    cases hhistory
    rfl
  | cons ho _ ih =>
    cases hhistory with
    | step _ hrest =>
      rw [ih hrest, ho.run]
      exact (timed_run_append ..).symm

theorem clock_eq (h : Plays action past moves) {s t : Session} (hhistory : History s past t) :
    t.clock = s.clock + Cache.elapsed moves :=
  calc t.clock = (t.timed action).clock := rfl
    _ = ((s.timed action).run moves).clock := by rw [h.run_eq hhistory]
    _ = s.clock + Cache.elapsed moves := Cache.Timed.run_clock ..

theorem mem_storedKeys (h : Plays action past moves) {f : Fingerprint} :
    f ∈ Cache.storedKeys moves ↔ f ∈ provisions past ∧ f.action = action := by
  induction h with
  | nil => simp [Cache.storedKeys, provisions]
  | cons ho _ ih =>
    rw [Cache.storedKeys_append, Cache.storedKeys_append, ho.stores, nil_append,
      mem_append, ih, Occasion.mem_storedKeys_put?, mem_provisions, mem_provisions]
    simp only [exists_mem_cons_iff]
    exact or_and_right.symm

theorem reset_of_clear (h : Plays action past moves) (hclear : .clear ∈ moves) :
    ∃ o ∈ past, ∃ how, o.deed = .reset how := by
  induction h with
  | nil => cases hclear
  | @cons o past front moves ho _ ih =>
    rcases mem_append.1 hclear with hclear | hclear
    · rcases mem_append.1 hclear with hclear | hclear
      · exact ⟨o, mem_cons_self, ho.clears hclear⟩
      · simp [Occasion.put?] at hclear
    · obtain ⟨o', ho', hreset⟩ := ih hclear
      exact ⟨o', mem_cons_of_mem _ ho', hreset⟩

end Plays

/-! ## 4. Sources -/

theorem eq_last_of_append {front before after : List α} {last : Option α} {x : α}
    (hx : x ∉ front) (h : front ++ last.toList = before ++ x :: after) :
    last = some x ∧ after = [] := by
  have hsplit := append_eq_append_iff.1 h
  rcases hsplit with ⟨more, rfl, hlast⟩ | ⟨more, rfl, hrest⟩
  · cases last with
    | none => simp at hlast
    | some y =>
      cases more with
      | nil =>
        obtain ⟨rfl, hafter⟩ := cons.inj hlast
        exact ⟨rfl, hafter.symm⟩
      | cons z more => simp at hlast
  · cases more with
    | nil =>
      cases last with
      | none => simp at hrest
      | some y =>
        obtain ⟨rfl, hafter⟩ := cons.inj hrest
        exact ⟨rfl, hafter⟩
    | cons z more =>
      obtain ⟨rfl, -⟩ := cons.inj hrest
      exact absurd (by simp) hx

/-- Where a value was stored, the providers gave it, at an occasion that ends there. -/
theorem Plays.exists_source {action : Action} {past : List Occasion}
    {moves before since : List (Cache.Move Fingerprint Answer)} {ttl : Nat}
    (h : Plays action past moves) (hput : moves = before ++ .put f answer ttl :: since) :
    ∃ earlier source later, past = earlier ++ source :: later ∧ Plays action later since ∧
      source.provided? = some (f, answer) ∧ ttl = source.before.ttlOf action := by
  induction h generalizing before with
  | nil => simp at hput
  | @cons o past front moves ho hpast ih =>
    have hfurther : ∀ before', moves = before' ++ .put f answer ttl :: since →
        ∃ earlier source later, o :: past = earlier ++ source :: later ∧ Plays action later since ∧
          source.provided? = some (f, answer) ∧ ttl = source.before.ttlOf action := by
      intro before' hmoves
      obtain ⟨earlier, source, later, rfl, hsource⟩ := ih hmoves
      exact ⟨o :: earlier, source, later, rfl, hsource⟩
    rcases append_eq_append_iff.1 hput with ⟨before', -, hmoves⟩ | ⟨own, howns, hsince⟩
    · exact hfurther before' hmoves
    · cases own with
      | nil => exact hfurther [] hsince.symm
      | cons move own =>
        obtain ⟨rfl, rfl⟩ := cons.inj hsince
        have hfront : .put f answer ttl ∉ front := by
          intro hmem
          have hkey : f ∈ Cache.storedKeys front := mem_filterMap.2 ⟨_, hmem, rfl⟩
          rw [ho.stores] at hkey
          cases hkey
        obtain ⟨hlast, rfl⟩ := eq_last_of_append hfront howns
        obtain ⟨hprovided, -, httl⟩ := Occasion.put?_eq_some.1 hlast
        exact ⟨[], o, past, rfl, hpast, hprovided, httl⟩

theorem History.clock_le {s t : Session} {past : List Occasion} (h : History s past t)
    {o : Occasion} (ho : o ∈ past) : s.clock ≤ o.after.clock := by
  obtain ⟨earlier, later, rfl⟩ := append_of_mem ho
  obtain ⟨hearlier, hhappened, -⟩ := h.split
  exact (hearlier.steady.trans hhappened.steady).clock

section Start

variable {store : Store} {chain : Chain} {toolchain : Toolchain} {prompts : Prompt.Config}
  {tuning : Tuning} {requestId : Ticket → String} {past : List Occasion} {t : Session}

theorem counted_start :
    (start store chain toolchain prompts tuning requestId).tally.length =
      (start store chain toolchain prompts tuning requestId).chain.length := by
  simp [start, Tally.start]

/-- What a cache gives out is what the providers gave last, and not too long ago. -/
theorem exists_source_of_cached
    (h : History (start store chain toolchain prompts tuning requestId) past t)
    (hcached : t.cached? request = some answer) :
    ∃ earlier source later f, past = earlier ++ source :: later ∧
      ofRequest? request t.store.view = some f ∧
      source.provided? = some (f, answer) ∧ f ∉ provisions later ∧
      t.clock < source.after.clock + t.ttlOf f.action := by
  obtain ⟨f, -, hf, -⟩ := mem_of_cached? hcached
  obtain ⟨moves, hplays⟩ := h.exists_plays counted_start f.action
  have hrun := hplays.run_eq h
  rw [timed_start _ _ _ _ _ _ (action_ne_generation hf)] at hrun
  rw [cached?_timed hf, hrun] at hcached
  obtain ⟨ttl, since, hstored, htime⟩ := Cache.stored_of_get hcached
  obtain ⟨before, hput⟩ := hstored.put
  obtain ⟨earlier, source, later, rfl, hlater, hprovided, rfl⟩ := hplays.exists_source hput
  obtain ⟨hearlier, hsource, hrest⟩ := h.split
  refine ⟨earlier, source, later, f, rfl, hf, hprovided, fun hlast => ?_, ?_⟩
  · exact hstored.last (hlater.mem_storedKeys.2 ⟨hlast, rfl⟩)
  · rw [hlater.clock_eq hrest, (hsource.steady.trans hrest.steady).ttlOf_eq]
    omega

/-- What the providers gave last is given out again, while its time lasts and there is room. -/
theorem cached_of_source {f : Fingerprint}
    (h : History (start store chain toolchain prompts tuning requestId)
      (earlier ++ source :: later) t)
    (hf : ofRequest? request t.store.view = some f)
    (hprovided : source.provided? = some (f, answer)) (hlast : f ∉ provisions later)
    (hkept : ∀ x ∈ later, ∀ how, x.deed ≠ .reset how)
    (htime : t.clock < source.after.clock + t.ttlOf f.action)
    (hroom : ((provisions later).filter (·.action = f.action)).toFinset.card <
      max tuning.cacheCapacity 1) :
    t.cached? request = some answer := by
  obtain ⟨hearlier, hsource, hrest⟩ := h.split
  have hcounted := hearlier.steady.counted counted_start
  obtain ⟨before, hbefore⟩ := hearlier.exists_plays counted_start f.action
  obtain ⟨front, hfront⟩ := Occasion.exists_moves hsource hcounted f.action
  obtain ⟨since, hsince⟩ := hrest.exists_plays (hsource.steady.counted hcounted) f.action
  have hput : source.put? f.action =
      some (.put f answer (source.before.ttlOf f.action)) :=
    Occasion.put?_eq_some.2 ⟨hprovided, rfl, rfl⟩
  have hrun : t.timed f.action = (Cache.Timed.start tuning.cacheCapacity 0).run
      ((before ++ front) ++ .put f answer (source.before.ttlOf f.action) :: since) := by
    rw [hsince.run_eq hrest, hfront.run, hbefore.run_eq hearlier,
      timed_start _ _ _ _ _ _ (action_ne_generation hf), hput]
    simp [Cache.Timed.run]
  rw [cached?_timed hf, hrun]
  refine Cache.get_of_stored ⟨⟨_, rfl⟩, ?last, ?kept⟩ ?time ?room
  case last =>
    intro hmem
    exact hlast (hsince.mem_storedKeys.1 hmem).1
  case kept =>
    intro hclear
    obtain ⟨x, hx, how, hreset⟩ := hsince.reset_of_clear hclear
    exact hkept x hx how hreset
  case time =>
    rw [hsince.clock_eq hrest, (hsource.steady.trans hrest.steady).ttlOf_eq] at htime
    omega
  case room =>
    refine Nat.lt_of_le_of_lt (Finset.card_le_card fun g hg => ?_) hroom
    obtain ⟨hprovision, hsame⟩ := hsince.mem_storedKeys.1 (mem_toFinset.1 hg)
    simp [hprovision, hsame]

/-- Once the providers have answered, later requests of the fingerprint are found, while the time of
that answer lasts and there is room. They may have answered again since: then it is a later answer
that is found, and it lasts longer. -/
theorem cached_since_source {f : Fingerprint}
    (h : History (start store chain toolchain prompts tuning requestId)
      (earlier ++ source :: later) t)
    (hf : ofRequest? request t.store.view = some f)
    (hprovided : source.provided? = some (f, answer))
    (hkept : ∀ x ∈ later, ∀ how, x.deed ≠ .reset how)
    (htime : t.clock < source.after.clock + t.ttlOf f.action)
    (hroom : ((provisions later).filter fun g => g.action = f.action ∧ g ≠ f).toFinset.card <
      max tuning.cacheCapacity 1) :
    ∃ said, t.cached? request = some said := by
  have hothers : ∀ rest : List Occasion, rest ⊆ later → f ∉ provisions rest →
      ((provisions rest).filter (·.action = f.action)).toFinset.card <
        max tuning.cacheCapacity 1 := by
    intro rest hsub hlast
    refine Nat.lt_of_le_of_lt (Finset.card_le_card fun g hg => ?_) hroom
    obtain ⟨hmem, haction⟩ := mem_filter.1 (mem_toFinset.1 hg)
    have hne : g ≠ f := by
      rintro rfl
      exact hlast hmem
    obtain ⟨x, hx, said, hsaid⟩ := mem_provisions.1 hmem
    have hlater : g ∈ provisions later := mem_provisions.2 ⟨x, hsub hx, said, hsaid⟩
    simpa [hlater, hne] using haction
  by_cases hagain : f ∈ provisions later
  · obtain ⟨front, last, rest, rfl, ⟨said, hsaid⟩, hnone⟩ := exists_last _ (mem_provisions.1 hagain)
    have hlast : f ∉ provisions rest := by
      intro hmem
      obtain ⟨x, hx, hprovided⟩ := mem_provisions.1 hmem
      exact hnone x hx hprovided
    have hsub : rest ⊆ front ++ last :: rest := fun x hx => by simp [hx]
    have hclock : source.after.clock ≤ last.after.clock :=
      h.split.2.2.clock_le (by simp)
    have hsplit : History (start store chain toolchain prompts tuning requestId)
        ((earlier ++ source :: front) ++ last :: rest) t := by simpa using h
    exact ⟨said, cached_of_source hsplit hf hsaid hlast
      (fun x hx => hkept x (hsub hx)) (by omega) (hothers rest hsub hlast)⟩
  · exact ⟨answer, cached_of_source h hf hprovided hagain hkept htime
      (hothers later (Subset.refl _) hagain)⟩

end Start

/-! ## 5. The main statement -/

/-- What a completion at a cursor is made from looks the same, as far as its fingerprint goes: the
path of the open file, its length in bytes, and the line up to the cursor. -/
structure SameScene (cursor : Cursor) (view view' : View) : Prop where
  path : (view.openFile.map (·.path)).getD "" = (view'.openFile.map (·.path)).getD ""
  length : (view.openFile.map (·.content.utf8ByteSize)).getD 0 =
    (view'.openFile.map (·.content.utf8ByteSize)).getD 0
  text : Prompt.beforeCursor view cursor = Prompt.beforeCursor view' cursor

theorem beforeCursor_eq (view : View) (cursor : Cursor) :
    Prompt.beforeCursor view cursor =
      String.ofList ((((Prompt.cursorLineText view cursor).map String.ofList).getD "").toList.take
        (cursor.column.toNat - 1)) := by
  unfold Prompt.beforeCursor
  cases Prompt.cursorLineText view cursor <;> simp

theorem sameScene_of_ofRequest? {cursor : Cursor} {selection : String} {view view' : View}
    (h : Fingerprint.ofRequest? (.completion cursor selection) view = some f)
    (h' : Fingerprint.ofRequest? (.completion cursor selection) view' = some f) :
    SameScene cursor view view' := by
  cases h
  simp only [Fingerprint.ofRequest?, Fingerprint.selectionOf, Prompt.cursorOf, map_some,
    some.injEq, Fingerprint.mk.injEq] at h'
  obtain ⟨-, hpath, -, -, -, hlength, hline⟩ := h'
  refine ⟨hpath.symm, hlength.symm, ?_⟩
  rw [beforeCursor_eq, beforeCursor_eq, hline]

/-- The request of an occasion repeats that of an earlier one. -/
structure Occasion.Repeats (o source : Occasion) (f : Fingerprint) : Prop where
  fingerprint : o.fingerprint? = some f
  source_fingerprint : source.fingerprint? = some f
  requests : ∃ request request', o.request? = some request ∧ source.request? = some request' ∧
    request.action = f.action ∧ request'.action = f.action ∧ f.action ≠ .generation
  completions : ∀ cursor selection, o.request? = some (.completion cursor selection) →
    source.request? = some (.completion cursor selection) ∧
      SameScene cursor o.before.store.view source.before.store.view

theorem Occasion.exists_request {o : Occasion} (h : o.fingerprint? = some f) :
    ∃ request, o.request? = some request ∧
      ofRequest? request o.before.store.view = some f :=
  bind_eq_some_iff.1 h

/-- Requests of one fingerprint are made with the same file open, as far as its path goes. -/
theorem Occasion.openPath_eq {o : Occasion} (h : o.fingerprint? = some f)
    (h' : source.fingerprint? = some f) :
    (o.before.store.view.openFile.map (·.path)).getD "" =
      (source.before.store.view.openFile.map (·.path)).getD "" := by
  obtain ⟨request, -, hf⟩ := exists_request h
  obtain ⟨request', -, hf'⟩ := exists_request h'
  obtain ⟨_, -, rfl⟩ := map_eq_some_iff.1 hf
  obtain ⟨_, -, hsame⟩ := map_eq_some_iff.1 hf'
  exact (congrArg file hsame).symm

theorem Occasion.repeats_of_fingerprint? {o : Occasion} (h : o.fingerprint? = some f)
    (h' : source.fingerprint? = some f) : o.Repeats source f := by
  obtain ⟨request, hrequest, hf⟩ := exists_request h
  obtain ⟨request', hrequest', hf'⟩ := exists_request h'
  obtain ⟨-, haction, -, -⟩ := ofRequest?_eq_some hf
  obtain ⟨-, haction', -, -⟩ := ofRequest?_eq_some hf'
  refine ⟨h, h', ⟨request, request', hrequest, hrequest', haction.symm, haction'.symm,
    action_ne_generation hf⟩, fun cursor selection hcompletion => ?_⟩
  obtain rfl : request = .completion cursor selection :=
    some.inj (hrequest.symm.trans hcompletion)
  have halike := alike_of_ofRequest? hf hf'
  cases request' with
  | completion cursor' selection' =>
    obtain ⟨rfl, rfl⟩ := halike
    exact ⟨hrequest', sameScene_of_ofRequest? hf hf'⟩
  | _ => exact halike.elim

/-- A request of an occasion is found in the caches exactly when it is answered and calls nobody. -/
theorem Occasion.Happened.cached_iff {o : Occasion} (h : o.Happened)
    (hcounted : o.before.tally.length = o.before.chain.length) :
    (∃ request, o.request? = some request ∧ o.before.cached? request = some answer) ↔
      o.result = some (.ok answer) ∧ o.CallsNobody := by
  rcases Occasion.ends h with ⟨hrequest, hresult, -⟩ | ⟨request, value, hrequest, hresult, hends⟩
  · simp [hrequest, hresult]
  · simp [hrequest, hresult, hends.cached_iff hcounted, CallsNobody]

/-- In every history of a session, an answer that cost no call is the one that the providers gave
last to a request of the same fingerprint, and they gave it less than the time of its kind ago. And
a request of the fingerprint of one that they answered costs no call, if that was less than this
time ago, the memory was neither cleared nor merged into since, and fewer others of its kind than
the cache has places were stored since. -/
theorem repeats_reuse_latest_answer (store : Store) (chain : Chain) (toolchain : Toolchain)
    (prompts : Prompt.Config) (tuning : Tuning) (requestId : Ticket → String)
    (past : List Occasion) (o : Occasion) (u : Session)
    (h : History (start store chain toolchain prompts tuning requestId) (past ++ [o]) u) :
    (∀ answer, o.result = some (.ok answer) → o.CallsNobody →
      ∃ earlier source later f, past = earlier ++ source :: later ∧
        source.provided? = some (f, answer) ∧ f ∉ provisions later ∧
        o.before.clock < source.after.clock + o.before.ttlOf f.action ∧
        o.Repeats source f ∧
        (store.memory.Sound store.root →
          o.before.store.view.openFile.map (·.path) =
            source.before.store.view.openFile.map (·.path))) ∧
    (∀ earlier source later f answer, past = earlier ++ source :: later →
      source.provided? = some (f, answer) → o.fingerprint? = some f →
      (∀ x ∈ later, ∀ how, x.deed ≠ .reset how) →
      o.before.clock < source.after.clock + o.before.ttlOf f.action →
      ((provisions later).filter fun g => g.action = f.action ∧ g ≠ f).toFinset.card <
        max tuning.cacheCapacity 1 →
      ∃ said, o.result = some (.ok said) ∧ o.CallsNobody) ∧
    o.before.tuning = tuning ∧
    ∀ action, (start store chain toolchain prompts {} requestId).ttlOf action =
      if action = .completion then 30000 else 300000 := by
  obtain ⟨hpast, ho, -⟩ := h.split
  have hsteady := hpast.steady
  have hcounted := hsteady.counted counted_start
  refine ⟨?_, ?_, hsteady.tuning, ?_⟩
  · intro answer hresult hnobody
    obtain ⟨request, hrequest, hcached⟩ := (ho.cached_iff hcounted).2 ⟨hresult, hnobody⟩
    obtain ⟨earlier, source, later, f, rfl, hf, hprovided, hlast, htime⟩ :=
      exists_source_of_cached hpast hcached
    have hfingerprint : o.fingerprint? = some f := by
      rw [Occasion.fingerprint?, hrequest]
      exact hf
    have hsource := Occasion.fingerprint?_of_provided? hprovided
    refine ⟨earlier, source, later, f, rfl, hprovided, hlast, htime,
      Occasion.repeats_of_fingerprint? hfingerprint hsource, fun hsound => ?_⟩
    have hbefore := hpast.split.1.steady.store.sound hsound
    exact (hsteady.store.sound hsound).openPath_eq hbefore
      (Occasion.openPath_eq hfingerprint hsource)
  · rintro earlier source later f answer rfl hprovided hfingerprint hkept htime hroom
    obtain ⟨request, hrequest, hf⟩ := Occasion.exists_request hfingerprint
    obtain ⟨said, hcached⟩ := cached_since_source hpast hf hprovided hkept htime hroom
    exact ⟨said, (ho.cached_iff hcounted).1 ⟨request, hrequest, hcached⟩⟩
  · intro action
    cases action <;> rfl

def happening (d : Deed) (s : Session) : Occasion :=
  ⟨d, s, ((d.course .epoch).run s).1, doing d s⟩

theorem happened (d : Deed) (s : Session) : (happening d s).Happened := by
  obtain ⟨writes, h⟩ := (d.course .epoch).run_reaches s
  exact ⟨.epoch, writes, h⟩

/-- A request for a completion, the last millisecond at which its answer is given again, and the
request once more. -/
theorem repeats_reuse_latest_answer_in_time :
    let asked := happening (.ask completing) (afterFailure .empty)
    let waited := happening (.pass 29999) asked.after
    let again := happening (.ask completing) waited.after
    History (afterFailure .empty) ([asked, waited] ++ [again]) again.after ∧
      again.result = some (.ok (saying "first")) ∧ again.CallsNobody ∧
      ∃ f, asked.provided? = some (f, saying "first") ∧ again.Repeats asked f := by
  intro asked waited again
  have h : History (afterFailure .empty) ([asked, waited] ++ [again]) again.after :=
    .step (happened _ _) (.step (happened _ _) (.step (happened _ _) .done))
  obtain ⟨hsource, hrepeat, -⟩ := repeats_reuse_latest_answer _ _ _ _ _ _ _ _ _ h
  obtain ⟨f, hprovided, hfingerprint, haction⟩ : ∃ f,
      asked.provided? = some (f, saying "first") ∧ again.fingerprint? = some f ∧
        f.action = .completion := ⟨_, rfl, rfl, rfl⟩
  have hwaited : waited.provided? = none := rfl
  have hnone : provisions [waited] = [] := by simp [provisions, hwaited]
  have hagain := hrepeat [] asked [waited] f _ rfl hprovided hfingerprint ?_ ?_ ?_
  · obtain ⟨said, hresult, hnobody⟩ := hagain
    obtain ⟨earlier, source, later, g, hpast, hgiven, -, -, hrepeats, -⟩ :=
      hsource said hresult hnobody
    -- The answer can only come from the first request: nobody was called while time passed.
    have hmem : source ∈ [asked, waited] := by simp [hpast]
    rcases List.mem_cons.1 hmem with rfl | hmem
    · rw [hprovided] at hgiven
      cases hgiven
      exact ⟨h, hresult, hnobody, f, hprovided, hrepeats⟩
    · obtain rfl := List.mem_singleton.1 hmem
      rw [hwaited] at hgiven
      cases hgiven
  · intro x hx how
    obtain rfl := List.mem_singleton.1 hx
    nofun
  · rw [haction]
    decide
  · rw [hnone]
    simp

end Session

end CodeAssist
