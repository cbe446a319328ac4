import CodeAssist.Cache
import Mathlib.Data.Finset.Card
import Mathlib.Data.List.Nodup
import Mathlib.Data.List.Induction

/-!
What a cache gives out over a run.

A run is a list of moves: values are stored and looked up, stale entries are dropped, the cache is
cleared, and time passes. Whatever the run, a look-up gives the value that was stored last for its
key, if that is not too old and the cache was not cleared since (`stored_of_get`); and it does give
it unless as many other keys as the cache has places were stored since (`get_of_stored`).
-/

namespace CodeAssist.Cache

open List

variable {ttl now : Nat}

variable {κ ν : Type}

/-! ## 1. Runs -/

/-- Something that is done to a cache, or time that passes. -/
inductive Move (κ ν : Type) where
  | put (key : κ) (value : ν) (ttl : Nat)
  | get (key : κ)
  | evict
  | clear
  | advance (ms : Nat)
  deriving DecidableEq

namespace Move

/-- The key that a move stores a value for. -/
def key? : Move κ ν → Option κ
  | put key _ _ => some key
  | _ => none

def duration : Move κ ν → Nat
  | advance ms => ms
  | _ => 0

def isGet : Move κ ν → Bool
  | get _ => true
  | _ => false

end Move

def elapsed : List (Move κ ν) → Nat
  | [] => 0
  | move :: rest => move.duration + elapsed rest

/-- The keys that some moves store values for. -/
def storedKeys (moves : List (Move κ ν)) : List κ :=
  moves.filterMap Move.key?

/-- In a run, a value was stored for a key, and in the moves since then neither was another value
stored for it nor was the cache cleared. -/
structure Stored (moves : List (Move κ ν)) (key : κ) (value : ν) (ttl : Nat)
    (since : List (Move κ ν)) : Prop where
  put : ∃ before, moves = before ++ .put key value ttl :: since
  last : key ∉ storedKeys since
  kept : .clear ∉ since

/-- A cache at some time. -/
structure Timed (κ ν : Type) where
  cache : Cache κ ν
  clock : Nat

namespace Timed

variable [BEq κ]

def step (s : Timed κ ν) : Move κ ν → Timed κ ν
  | .put key value ttl => { s with cache := s.cache.put s.clock key value ttl }
  | .get key => { s with cache := (s.cache.get s.clock key).2 }
  | .evict => { s with cache := s.cache.evict s.clock }
  | .clear => { s with cache := s.cache.clear }
  | .advance ms => { s with clock := s.clock + ms }

def run (s : Timed κ ν) (moves : List (Move κ ν)) : Timed κ ν :=
  moves.foldl step s

def start (capacity clock : Nat) : Timed κ ν :=
  ⟨empty capacity, clock⟩

theorem run_concat (s : Timed κ ν) (moves : List (Move κ ν)) (move : Move κ ν) :
    s.run (moves ++ [move]) = (s.run moves).step move := by
  simp [run]

@[simp] theorem step_clock (s : Timed κ ν) (move : Move κ ν) :
    (s.step move).clock = s.clock + move.duration := by
  cases move <;> rfl

end Timed

@[simp] theorem elapsed_nil : elapsed ([] : List (Move κ ν)) = 0 :=
  rfl

@[simp] theorem elapsed_cons (move : Move κ ν) (rest : List (Move κ ν)) :
    elapsed (move :: rest) = move.duration + elapsed rest :=
  rfl

@[simp] theorem elapsed_append (moves rest : List (Move κ ν)) :
    elapsed (moves ++ rest) = elapsed moves + elapsed rest := by
  induction moves with
  | nil => simp
  | cons move moves ih => simp [ih, Nat.add_assoc]

@[simp] theorem storedKeys_append (moves rest : List (Move κ ν)) :
    storedKeys (moves ++ rest) = storedKeys moves ++ storedKeys rest := by
  simp [storedKeys]

theorem storedKeys_idle {move : Move κ ν} (h : move.key? = none) : storedKeys [move] = [] := by
  simp [storedKeys, h]

@[simp] theorem mem_storedKeys_singleton {key : κ} {move : Move κ ν} :
    key ∈ storedKeys [move] ↔ move.key? = some key := by
  simp [storedKeys]

theorem Timed.run_clock [BEq κ] (s : Timed κ ν) (moves : List (Move κ ν)) :
    (s.run moves).clock = s.clock + elapsed moves := by
  induction moves using reverseRecOn with
  | nil => rfl
  | append_singleton moves move ih =>
    rw [run_concat, step_clock, ih]
    simp [Nat.add_assoc]

/-- Another move makes no difference to what was stored last, unless it stores for the key or
clears. -/
theorem Stored.concat {moves since : List (Move κ ν)} {key : κ} {value : ν}
    (h : Stored moves key value ttl since) {move : Move κ ν} (hkey : move.key? ≠ some key)
    (hclear : move ≠ .clear) :
    Stored (moves ++ [move]) key value ttl (since ++ [move]) := by
  obtain ⟨before, rfl⟩ := h.put
  refine ⟨⟨before, by simp⟩, ?_, ?_⟩
  · simp [h.last, hkey]
  · simp [h.kept, hclear.symm]

/-! ## 2. Entries -/

variable [DecidableEq κ]

section Entries

variable {c : Cache κ ν} {key : κ}

theorem mem_without {entries : List (κ × Entry ν)} {x : κ × Entry ν} :
    x ∈ without key entries ↔ x ∈ entries ∧ x.1 ≠ key := by
  simp [without]

theorem without_split {front back : List (κ × Entry ν)} {x : κ × Entry ν} (h : x.1 ≠ key) :
    without key (front ++ x :: back) = without key front ++ x :: without key back := by
  simp [without, h]

/-- All that a look-up can do to a cache. A stale entry of the key goes. -/
theorem get_cases (c : Cache κ ν) (now : Nat) (key : κ) :
    (∃ e, (key, e) ∈ c.entries ∧ e.isFresh now = true ∧
      c.get now key = (some e.value, { c with hits := c.hits + 1 })) ∨
    (∃ e, (key, e) ∈ c.entries ∧ e.isFresh now = false ∧
      c.get now key =
        (none, { c with entries := without key c.entries, misses := c.misses + 1 })) ∨
    ((∀ e, (key, e) ∉ c.entries) ∧ c.get now key = (none, { c with misses := c.misses + 1 })) := by
  rw [get]
  split
  · rename_i k e hfind
    have hmem := mem_of_find?_eq_some hfind
    have hkey : k = key := by simpa using find?_some hfind
    subst hkey
    cases hfresh : e.isFresh now with
    | true => exact .inl ⟨e, hmem, hfresh, by simp⟩
    | false => exact .inr (.inl ⟨e, hmem, hfresh, by simp⟩)
  · rename_i hfind
    refine .inr (.inr ⟨fun e he => ?_, rfl⟩)
    simpa using find?_eq_none.1 hfind _ he

theorem get_capacity (c : Cache κ ν) (now : Nat) (key : κ) :
    (c.get now key).2.capacity = c.capacity := by
  rcases get_cases c now key with ⟨e, -, -, hget⟩ | ⟨e, -, -, hget⟩ | ⟨-, hget⟩ <;> simp [hget]

theorem get_sublist (c : Cache κ ν) (now : Nat) (key : κ) :
    (c.get now key).2.entries.Sublist c.entries := by
  rcases get_cases c now key with ⟨e, -, -, hget⟩ | ⟨e, -, -, hget⟩ | ⟨-, hget⟩ <;>
    simp [hget, without]

theorem get_counts (c : Cache κ ν) (now : Nat) (key : κ) :
    (c.get now key).2.hits + (c.get now key).2.misses = c.hits + c.misses + 1 := by
  rcases get_cases c now key with ⟨e, -, -, hget⟩ | ⟨e, -, -, hget⟩ | ⟨-, hget⟩ <;>
    simp only [hget] <;> omega

theorem mem_of_get {value : ν} (h : (c.get now key).1 = some value) :
    ∃ e, (key, e) ∈ c.entries ∧ e.isFresh now = true ∧ e.value = value := by
  rcases get_cases c now key with ⟨e, hmem, hfresh, hget⟩ | ⟨e, -, -, hget⟩ | ⟨-, hget⟩
  · simp only [hget, Option.some.injEq] at h
    exact ⟨e, hmem, hfresh, h⟩
  · simp [hget] at h
  · simp [hget] at h

/-- With one entry for a key, a look-up gives its value if it is not stale. -/
theorem get_of_mem {e : Entry ν} (hone : ∀ e', (key, e') ∈ c.entries → e' = e)
    (hmem : (key, e) ∈ c.entries) (hfresh : e.isFresh now = true) :
    (c.get now key).1 = some e.value := by
  rcases get_cases c now key with ⟨e', hmem', -, hget⟩ | ⟨e', hmem', hstale, -⟩ | ⟨hnone, -⟩
  · rw [hget, hone e' hmem']
  · rw [hone e' hmem', hfresh] at hstale
    cases hstale
  · exact absurd hmem (hnone e)

end Entries

/-- Where an entry of a cache after a move comes from: it was there before, and the move neither
stored for its key nor cleared the cache; or it is the one that the move stored. -/
theorem step_entries {s : Timed κ ν} {move : Move κ ν} {x : κ × Entry ν}
    (h : x ∈ (s.step move).cache.entries) :
    (x ∈ s.cache.entries ∧ move.key? ≠ some x.1 ∧ move ≠ .clear) ∨
    (∃ key value ttl, move = .put key value ttl ∧ x = (key, ⟨value, s.clock, ttl⟩)) := by
  cases move with
  | put key value ttl =>
    have hmem := mem_of_mem_drop h
    rcases mem_append.1 hmem with hold | hnew
    · obtain ⟨hold, hne⟩ := mem_without.1 hold
      refine .inl ⟨hold, ?_, nofun⟩
      simpa [Move.key?] using hne.symm
    · exact .inr ⟨key, value, ttl, rfl, by simpa using hnew⟩
  | get key => exact .inl ⟨(get_sublist _ _ key).subset h, nofun, nofun⟩
  | evict => exact .inl ⟨mem_of_mem_filter h, nofun, nofun⟩
  | clear => simp [Timed.step, clear] at h
  | advance ms => exact .inl ⟨h, nofun, nofun⟩

/-! ## 3. Order -/

/-- A cache is within its capacity and has one entry for a key. -/
structure Ordered (capacity : Nat) (c : Cache κ ν) : Prop where
  capacity_eq : c.capacity = max capacity 1
  bounded : c.entries.length ≤ c.capacity
  nodup : (c.entries.map Prod.fst).Nodup

section Ordered

variable {capacity : Nat} {c : Cache κ ν}

omit [DecidableEq κ] in
theorem ordered_start (capacity start : Nat) :
    Ordered capacity (Timed.start capacity start : Timed κ ν).cache :=
  ⟨rfl, Nat.zero_le _, nodup_nil⟩

omit [DecidableEq κ] in
theorem Ordered.of_sublist (h : Ordered capacity c) {c' : Cache κ ν}
    (hcapacity : c'.capacity = c.capacity) (hentries : c'.entries.Sublist c.entries) :
    Ordered capacity c' where
  capacity_eq := hcapacity.trans h.capacity_eq
  bounded := hcapacity ▸ hentries.length_le.trans h.bounded
  nodup := h.nodup.sublist (hentries.map _)

theorem nodup_stored {entries : List (κ × Entry ν)} (h : (entries.map Prod.fst).Nodup) (key : κ)
    (e : Entry ν) : ((without key entries ++ [(key, e)]).map Prod.fst).Nodup := by
  have hothers : ((without key entries).map Prod.fst).Nodup :=
    h.sublist (filter_sublist.map _)
  have hnew : key ∉ (without key entries).map Prod.fst := by
    intro hmem
    obtain ⟨x, hx, hkey⟩ := mem_map.1 hmem
    exact (mem_without.1 hx).2 hkey
  simpa [nodup_append] using ⟨hothers, fun a b hab ha => hnew (mem_map.2 ⟨_, hab, ha⟩)⟩

theorem Ordered.put (h : Ordered capacity c) (now : Nat) (key : κ) (value : ν) (ttl : Nat) :
    Ordered capacity (c.put now key value ttl) where
  capacity_eq := h.capacity_eq
  bounded := by
    unfold Cache.put
    simp only [length_drop]
    omega
  nodup := (nodup_stored h.nodup key _).sublist ((drop_sublist _ _).map _)

theorem Ordered.step {s : Timed κ ν} (h : Ordered capacity s.cache) (move : Move κ ν) :
    Ordered capacity (s.step move).cache := by
  cases move with
  | put key value ttl => exact h.put s.clock key value ttl
  | get key => exact h.of_sublist (get_capacity _ _ key) (get_sublist _ _ key)
  | evict => exact h.of_sublist rfl filter_sublist
  | clear => exact h.of_sublist rfl (nil_sublist _)
  | advance ms => exact h

theorem Ordered.run {s : Timed κ ν} (h : Ordered capacity s.cache) (moves : List (Move κ ν)) :
    Ordered capacity (s.run moves).cache := by
  induction moves using reverseRecOn with
  | nil => exact h
  | append_singleton moves move ih =>
    rw [Timed.run_concat]
    exact ih.step move

end Ordered

/-! ## 4. Origin -/

theorem stored_of_mem {capacity start : Nat} {moves : List (Move κ ν)} {x : κ × Entry ν}
    (h : x ∈ ((Timed.start capacity start).run moves).cache.entries) :
    ∃ since, Stored moves x.1 x.2.value x.2.ttl since ∧
      x.2.storedAt + elapsed since = start + elapsed moves := by
  induction moves using reverseRecOn with
  | nil => simp [Timed.run, Timed.start, empty] at h
  | append_singleton moves move ih =>
    rw [Timed.run_concat] at h
    rcases step_entries h with ⟨hold, hkey, hclear⟩ | ⟨key, value, ttl, rfl, rfl⟩
    · obtain ⟨since, hstored, htime⟩ := ih hold
      refine ⟨since ++ [move], hstored.concat hkey hclear, ?_⟩
      simp only [elapsed_append]
      omega
    · refine ⟨[], ⟨⟨moves, rfl⟩, by simp [storedKeys], by simp⟩, ?_⟩
      simp [Timed.run_clock, Timed.start, Move.duration]

/-- A look-up gives the value that was stored last for its key, if its time has not passed. -/
theorem stored_of_get {capacity start : Nat} {moves : List (Move κ ν)} {key : κ} {value : ν}
    (h : (((Timed.start capacity start).run moves).cache.get
      ((Timed.start capacity start : Timed κ ν).run moves).clock key).1 = some value) :
    ∃ ttl since, Stored moves key value ttl since ∧ elapsed since < ttl := by
  obtain ⟨e, hmem, hfresh, rfl⟩ := mem_of_get h
  obtain ⟨since, hstored, htime⟩ := stored_of_mem hmem
  refine ⟨e.ttl, since, hstored, ?_⟩
  simp only [Entry.isFresh, Timed.run_clock, Timed.start, decide_eq_true_eq] at hfresh
  simp only at htime
  omega

/-! ## 5. Survival -/

/-- An entry stands in a list of entries, and the keys behind it are among some keys. -/
def Stands (entries : List (κ × Entry ν)) (x : κ × Entry ν) (others : List κ) : Prop :=
  ∃ front back, entries = front ++ x :: back ∧ ∀ y ∈ back, y.1 ∈ others

section Stands

variable {capacity : Nat} {entries : List (κ × Entry ν)} {x : κ × Entry ν} {others : List κ}

omit [DecidableEq κ] in
theorem Stands.mem (h : Stands entries x others) : x ∈ entries := by
  obtain ⟨front, back, rfl, -⟩ := h
  simp

omit [DecidableEq κ] in
theorem Stands.filter (h : Stands entries x others) {p : κ × Entry ν → Bool} (hkeep : p x = true) :
    Stands (entries.filter p) x others := by
  obtain ⟨front, back, rfl, hback⟩ := h
  refine ⟨front.filter p, back.filter p, ?_, fun y hy => hback y (mem_of_mem_filter hy)⟩
  simp [hkeep]

omit [DecidableEq κ] in
/-- Dropping the oldest entries past the capacity leaves an entry with fewer than that behind it. -/
theorem drop_excess {front back : List (κ × Entry ν)} {places : Nat} (h : back.length < places) :
    (front ++ x :: back).drop ((front ++ x :: back).length - places) =
      front.drop ((front ++ x :: back).length - places) ++ x :: back := by
  refine drop_append_of_le_length ?_
  simp only [length_append, length_cons]
  omega

theorem stands_put {c : Cache κ ν} (hcapacity : 0 < c.capacity) (now : Nat) (key : κ) (value : ν)
    (ttl : Nat) : Stands (c.put now key value ttl).entries (key, ⟨value, now, ttl⟩) [] :=
  ⟨_, [], drop_excess hcapacity, by simp⟩

theorem get_put {c : Cache κ ν} (hcapacity : 0 < c.capacity) (now : Nat) (key : κ) (value : ν)
    (httl : 0 < ttl) : ((c.put now key value ttl).get now key).1 = some value := by
  have hone : ∀ e, (key, e) ∈ (c.put now key value ttl).entries → e = ⟨value, now, ttl⟩ := by
    intro e he
    rcases mem_append.1 (mem_of_mem_drop he) with hold | hnew
    · exact absurd rfl (mem_without.1 hold).2
    · simpa using hnew
  exact get_of_mem hone (stands_put hcapacity now key value ttl).mem (by simp [Entry.isFresh, httl])

/-- An entry stays when a value is stored for another key, as long as the keys behind it are fewer
than there are places. -/
theorem Stands.put {c : Cache κ ν} (h : Stands c.entries x others) (hordered : Ordered capacity c)
    {key : κ} (hkey : x.1 ≠ key) (hroom : (others ++ [key]).toFinset.card < max capacity 1)
    (now : Nat) (value : ν) (ttl : Nat) :
    Stands (c.put now key value ttl).entries x (others ++ [key]) := by
  obtain ⟨front, back, hsplit, hback⟩ := h
  let new : κ × Entry ν := (key, ⟨value, now, ttl⟩)
  have hstored : without key c.entries ++ [new] =
      without key front ++ x :: (without key back ++ [new]) := by
    simp [hsplit, without_split hkey]
  have hbehind : ∀ y ∈ without key back ++ [new], y.1 ∈ others ++ [key] := by
    intro y hy
    rcases mem_append.1 hy with hold | hnew
    · simp [hback y (mem_without.1 hold).1]
    · simp [mem_singleton.1 hnew, new]
  -- The keys behind the entry are distinct, so there are no more entries than keys.
  have hdistinct : ((without key back ++ [new]).map Prod.fst).Nodup := by
    have hnodup := nodup_stored hordered.nodup key ⟨value, now, ttl⟩
    rw [hstored] at hnodup
    refine hnodup.sublist (Sublist.map _ ?_)
    exact (sublist_cons_self _ _).trans (sublist_append_right _ _)
  have hfew : (without key back ++ [new]).length < c.capacity := by
    calc (without key back ++ [new]).length
      _ = ((without key back ++ [new]).map Prod.fst).toFinset.card := by
          rw [toFinset_card_of_nodup hdistinct, length_map]
      _ ≤ (others ++ [key]).toFinset.card := by
          refine Finset.card_le_card fun k hk => ?_
          obtain ⟨y, hy, rfl⟩ := mem_map.1 (mem_toFinset.1 hk)
          exact mem_toFinset.2 (hbehind y hy)
      _ < c.capacity := hordered.capacity_eq ▸ hroom
  have hentries : (c.put now key value ttl).entries =
      (without key c.entries ++ [new]).drop
        ((without key c.entries ++ [new]).length - c.capacity) := rfl
  rw [hentries, hstored, drop_excess hfew]
  exact ⟨_, _, rfl, hbehind⟩

/-- A fresh entry stands after a step that neither replaces it nor clears, while there is room. -/
theorem Stands.step {s : Timed κ ν} (h : Stands s.cache.entries x others)
    (hordered : Ordered capacity s.cache) {move : Move κ ν} (hkey : move.key? ≠ some x.1)
    (hclear : move ≠ .clear) (hfresh : x.2.isFresh s.clock = true)
    (hroom : (others ++ storedKeys [move]).toFinset.card < max capacity 1) :
    Stands (s.step move).cache.entries x (others ++ storedKeys [move]) := by
  cases move with
  | put key value ttl =>
    refine h.put hordered (fun hsame => hkey ?_) hroom s.clock value ttl
    simp [Move.key?, hsame]
  | get key =>
    rw [storedKeys_idle rfl, append_nil]
    rcases get_cases s.cache s.clock key with
      ⟨e, -, -, hget⟩ | ⟨e, hmem, hstale, hget⟩ | ⟨-, hget⟩
    · simpa only [Timed.step, hget] using h
    · -- The entry that goes is stale, so it is not the one that stands.
      have hne : x.1 ≠ key := by
        rintro rfl
        have hsame := inj_on_of_nodup_map hordered.nodup h.mem hmem rfl
        rw [hsame, hstale] at hfresh
        cases hfresh
      simp only [Timed.step, hget]
      exact h.filter (by simpa using hne)
    · simpa only [Timed.step, hget] using h
  | evict =>
    rw [storedKeys_idle rfl, append_nil]
    exact h.filter hfresh
  | clear => exact absurd rfl hclear
  | advance ms =>
    rw [storedKeys_idle rfl, append_nil]
    exact h

/-- A stored entry stays while its time has not passed, nothing else is stored for its key, the
cache is not cleared, and fewer other keys are stored than there are places. -/
theorem stands_since {s : Timed κ ν} (hordered : Ordered capacity s.cache) {key : κ} (value : ν)
    {since : List (Move κ ν)} (hlast : key ∉ storedKeys since) (hkept : .clear ∉ since)
    (htime : elapsed since < ttl) (hroom : (storedKeys since).toFinset.card < max capacity 1) :
    Stands ((s.step (.put key value ttl)).run since).cache.entries (key, ⟨value, s.clock, ttl⟩)
      (storedKeys since) := by
  induction since using reverseRecOn with
  | nil =>
    refine stands_put ?_ s.clock key value ttl
    rw [hordered.capacity_eq]
    omega
  | append_singleton since move ih =>
    simp only [storedKeys_append, mem_append, not_or, mem_storedKeys_singleton]
      at hlast hroom ⊢
    simp only [mem_append, mem_singleton, not_or] at hkept
    simp only [elapsed_append] at htime
    have hsmaller : (storedKeys since).toFinset.card ≤
        (storedKeys since ++ storedKeys [move]).toFinset.card :=
      Finset.card_le_card (by simp)
    have hstands := ih hlast.1 hkept.1 (by omega) (by omega)
    rw [Timed.run_concat]
    refine hstands.step ((hordered.step _).run since) hlast.2 (Ne.symm hkept.2) ?_ hroom
    simp only [Entry.isFresh, Timed.run_clock, Timed.step_clock, Move.duration, decide_eq_true_eq]
    omega

end Stands

/-- A look-up gives the value that was stored last for its key, if its time has not passed and fewer
other keys were stored since than there are places. -/
theorem get_of_stored {capacity start : Nat} {moves since : List (Move κ ν)} {key : κ} {value : ν}
    (h : Stored moves key value ttl since) (htime : elapsed since < ttl)
    (hroom : (storedKeys since).toFinset.card < max capacity 1) :
    (((Timed.start capacity start).run moves).cache.get
      ((Timed.start capacity start : Timed κ ν).run moves).clock key).1 = some value := by
  obtain ⟨before, rfl⟩ := h.put
  have hordered := (ordered_start capacity start).run before
  have hstands := stands_since hordered value h.last h.kept htime hroom
  have hcache : ((Timed.start capacity start).run (before ++ .put key value ttl :: since)) =
      (((Timed.start capacity start).run before).step (.put key value ttl)).run since := by
    simp [Timed.run]
  rw [hcache]
  have hnodup := ((hordered.step (.put key value ttl)).run since).nodup
  refine get_of_mem (fun e he => ?_) hstands.mem ?_
  · have hsame := inj_on_of_nodup_map hnodup he hstands.mem rfl
    simpa using hsame
  · simp only [Entry.isFresh, Timed.run_clock, Timed.step_clock, Move.duration, decide_eq_true_eq]
    omega

/-! ## 6. The main statement -/

theorem run_counts (capacity start : Nat) (moves : List (Move κ ν)) :
    ((Timed.start capacity start).run moves).cache.hits +
      ((Timed.start capacity start).run moves).cache.misses = moves.countP Move.isGet := by
  induction moves using reverseRecOn with
  | nil => rfl
  | append_singleton moves move ih =>
    rw [Timed.run_concat, countP_append, ← ih]
    cases move with
    | get key => exact get_counts _ _ key
    | _ => rfl

/-- Whatever is done to a cache, it stays within its capacity with one entry for a key, a look-up
gives only what was stored last for its key and is not too old, it gives that if not too many other
keys were stored since, and every look-up is counted. -/
theorem look_ups_give_latest (capacity start : Nat) (moves : List (Move κ ν)) :
    let s := (Timed.start capacity start).run moves
    s.cache.size ≤ max capacity 1 ∧
    (s.cache.entries.map Prod.fst).Nodup ∧
    (∀ key value, (s.cache.get s.clock key).1 = some value →
      ∃ ttl since, Stored moves key value ttl since ∧ elapsed since < ttl) ∧
    (∀ key value ttl since, Stored moves key value ttl since → elapsed since < ttl →
      (storedKeys since).toFinset.card < max capacity 1 →
        (s.cache.get s.clock key).1 = some value) ∧
    s.cache.hits + s.cache.misses = moves.countP Move.isGet := by
  intro s
  have hordered : Ordered capacity s.cache := (ordered_start capacity start).run moves
  exact ⟨hordered.capacity_eq ▸ hordered.bounded, hordered.nodup, fun _ _ => stored_of_get,
    fun _ _ _ _ => get_of_stored, run_counts capacity start moves⟩

/-- What happens to a cache after `3` was stored for `a`. -/
def afterwards : List (Move Char Nat) :=
  [.get 'b', .advance 29, .put 'c' 4 300, .evict]

/-- Two places for three keys. A key is stored again, and so outlasts one that was stored after it
at first. -/
def crowded : List (Move Char Nat) :=
  [.put 'a' 1 300, .put 'b' 2 30, .put 'a' 3 30] ++ afterwards

/-- The value that was stored again is found in its last millisecond, and the other is gone. -/
theorem look_ups_give_latest_crowded :
    let s := (Timed.start 2 0).run crowded
    (Stored crowded 'a' 3 30 afterwards ∧ elapsed afterwards < 30 ∧
      (storedKeys afterwards).toFinset.card < max 2 1) ∧
    (s.cache.get s.clock 'a').1 = some 3 ∧ (s.cache.get s.clock 'b').1 = none ∧
    s.cache.hits + s.cache.misses = 1 := by
  intro s
  have hstored : Stored crowded 'a' 3 30 afterwards :=
    ⟨⟨[.put 'a' 1 300, .put 'b' 2 30], rfl⟩, by decide, by decide⟩
  have htime : elapsed afterwards < 30 := by decide
  have hroom : (storedKeys afterwards).toFinset.card < max 2 1 := by decide
  obtain ⟨-, -, -, hfound, hcounted⟩ := look_ups_give_latest 2 0 crowded
  have hlatest := hfound 'a' 3 30 afterwards hstored htime hroom
  exact ⟨⟨hstored, htime, hroom⟩, hlatest, by decide, hcounted⟩

end CodeAssist.Cache
