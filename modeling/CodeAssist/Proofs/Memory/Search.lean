import CodeAssist.Memory.Change
import CodeAssist.Memory.Search
import CodeAssist.Proofs.Text.Finding
import Mathlib.Data.List.Forall2

/-!
What a search finds.

A memory has places that can be searched: the lines of its files, the functions and variables of
their facts, its events and its exchanges. A search gives the hits of the places in its scope that
match, each place once, in the order of the places: by section, then by file and line, or by index.
Inside one file the functions come before the variables, each in the order of the facts, so symbols
are not ordered by their lines (`symbols_not_by_line`).
-/

namespace CodeAssist

open Text List Option

variable {hit : SearchHit} {text query : String}

/-! ## 1. Places -/

/-- A place of a memory, by its indices. -/
inductive Place where
  | line (file index : Nat)
  | function (file index : Nat)
  | variable_ (file index : Nat)
  | event (index : Nat)
  | exchange (index : Nat)
  deriving DecidableEq, Repr

variable {place : Nat → Place} {p q : Place}

namespace Place

def scope : Place → SearchScope
  | line _ _ => .files
  | function _ _ => .symbols
  | variable_ _ _ => .symbols
  | event _ => .events
  | exchange _ => .exchanges

/-- Where a place stands in the order: its section, then its file and line, or its index. Functions
of a file stand before its variables. -/
def rank : Place → List Nat
  | line file index => [0, file, index]
  | function file index => [1, file, 0, index]
  | variable_ file index => [1, file, 1, index]
  | event index => [2, index]
  | exchange index => [3, index]

end Place

namespace Memory

/-- What is looked for: the query trimmed and in lower case. -/
def needleOf (query : String) : List Char :=
  lowerChars (strip query.toList)

/-- Whether a text in lower case holds a needle. -/
def Holds (needle : List Char) (text : String) : Prop :=
  needle <:+: lowerChars text.toList

/-- A place that matches a needle, and its hit. -/
inductive HitAt (m : Memory) (needle : List Char) : Place → SearchHit → Prop
  | line {file index : Nat} {path text : String} {f : SourceFile}
    (hfile : m.files.entries[file]? = some (path, f))
    (hline : (linesOf f.content)[index]? = some text) (hholds : Holds needle text) :
    HitAt m needle (.line file index) (.file path (index + 1) (trim text))
  | function {file index : Nat} {path : String} {f : SourceFile} {fn : FunctionFact}
    (hfile : m.files.entries[file]? = some (path, f)) (hfact : f.facts.functions[index]? = some fn)
    (hholds : Holds needle fn.name) :
    HitAt m needle (.function file index) (.function path fn.name fn.returnType fn.line)
  | variable_ {file index : Nat} {path : String} {f : SourceFile} {v : VariableFact}
    (hfile : m.files.entries[file]? = some (path, f)) (hfact : f.facts.vars[index]? = some v)
    (hholds : Holds needle v.name) :
    HitAt m needle (.variable_ file index) (.variable_ path v.name v.type v.line)
  | event {index : Nat} {e : Event} (hevent : m.events[index]? = some e)
    (hholds : Holds needle e.kind.name ∨ Holds needle e.details.render) :
    HitAt m needle (.event index) (.event index e.kind e.moment)
  | exchange {index : Nat} {e : Exchange} (hexchange : m.exchanges[index]? = some e)
    (hholds : Holds needle e.prompt ∨ Holds needle e.response) :
    HitAt m needle (.exchange index)
      (.exchange index e.action (String.ofList (e.prompt.toList.take 120)))

theorem mentions_iff {needle : List Char} :
    mentions needle text = true ↔ Holds needle text :=
  occurs_iff_isInfix

theorem Holds.of_part {short long : List Char} (h : Holds long text) (hpart : short <:+: long) :
    Holds short text :=
  hpart.trans h

/-- A place that matches a longer needle matches a shorter one, with the same hit. -/
theorem HitAt.of_part {m : Memory} {short long : List Char} (h : m.HitAt long p hit)
    (hpart : short <:+: long) : m.HitAt short p hit := by
  cases h with
  | line hfile hline hholds => exact .line hfile hline (hholds.of_part hpart)
  | function hfile hfact hholds => exact .function hfile hfact (hholds.of_part hpart)
  | variable_ hfile hfact hholds => exact .variable_ hfile hfact (hholds.of_part hpart)
  | event hevent hholds =>
    exact .event hevent (hholds.imp (·.of_part hpart) (·.of_part hpart))
  | exchange hexchange hholds =>
    exact .exchange hexchange (hholds.imp (·.of_part hpart) (·.of_part hpart))

def hitAt? (m : Memory) (needle : List Char) : Place → Option SearchHit
  | .line file index => do
    let (path, f) ← m.files.entries[file]?
    let text ← (linesOf f.content)[index]?
    if mentions needle text then some (.file path (index + 1) (trim text)) else none
  | .function file index => do
    let (path, f) ← m.files.entries[file]?
    let fn ← f.facts.functions[index]?
    if mentions needle fn.name then some (.function path fn.name fn.returnType fn.line) else none
  | .variable_ file index => do
    let (path, f) ← m.files.entries[file]?
    let v ← f.facts.vars[index]?
    if mentions needle v.name then some (.variable_ path v.name v.type v.line) else none
  | .event index => do
    let e ← m.events[index]?
    searchEvent needle e index
  | .exchange index => do
    let e ← m.exchanges[index]?
    searchExchange needle e index

/-- The hit at a place is computed as it is specified. -/
theorem hitAt?_eq_some_iff {m : Memory} {needle : List Char} :
    m.hitAt? needle p = some hit ↔ m.HitAt needle p hit := by
  constructor
  · intro h
    cases p with
    | line file index =>
      obtain ⟨⟨path, f⟩, hfile, h⟩ := bind_eq_some_iff.1 h
      obtain ⟨text, hline, h⟩ := bind_eq_some_iff.1 h
      obtain ⟨hmentions, hhit⟩ := ite_none_right_eq_some.1 h
      cases hhit
      exact .line hfile hline (mentions_iff.1 hmentions)
    | function file index =>
      obtain ⟨⟨path, f⟩, hfile, h⟩ := bind_eq_some_iff.1 h
      obtain ⟨fn, hfact, h⟩ := bind_eq_some_iff.1 h
      obtain ⟨hmentions, hhit⟩ := ite_none_right_eq_some.1 h
      cases hhit
      exact .function hfile hfact (mentions_iff.1 hmentions)
    | variable_ file index =>
      obtain ⟨⟨path, f⟩, hfile, h⟩ := bind_eq_some_iff.1 h
      obtain ⟨v, hfact, h⟩ := bind_eq_some_iff.1 h
      obtain ⟨hmentions, hhit⟩ := ite_none_right_eq_some.1 h
      cases hhit
      exact .variable_ hfile hfact (mentions_iff.1 hmentions)
    | event index =>
      obtain ⟨e, hevent, h⟩ := bind_eq_some_iff.1 h
      obtain ⟨hmentions, hhit⟩ := ite_none_right_eq_some.1 h
      cases hhit
      rw [Bool.or_eq_true, mentions_iff, mentions_iff] at hmentions
      exact .event hevent hmentions
    | exchange index =>
      obtain ⟨e, hexchange, h⟩ := bind_eq_some_iff.1 h
      obtain ⟨hmentions, hhit⟩ := ite_none_right_eq_some.1 h
      cases hhit
      rw [Bool.or_eq_true, mentions_iff, mentions_iff] at hmentions
      exact .exchange hexchange hmentions
  · intro h
    cases h with
    | line hfile hline hholds => simp [hitAt?, hfile, hline, mentions_iff.2 hholds]
    | function hfile hfact hholds | variable_ hfile hfact hholds =>
      simp [hitAt?, hfile, hfact, mentions_iff.2 hholds]
    | event hevent hholds =>
      simp only [hitAt?, hevent, searchEvent, bind_eq_bind, bind_some]
      rw [if_pos (by rwa [Bool.or_eq_true, mentions_iff, mentions_iff])]
    | exchange hexchange hholds =>
      simp only [hitAt?, hexchange, searchExchange, bind_eq_bind, bind_some]
      rw [if_pos (by rwa [Bool.or_eq_true, mentions_iff, mentions_iff])]
      rfl

/-! ## 2. Searching -/

def placesOf (place : Nat → Place) (xs : List α) : List Place :=
  xs.zipIdx.map fun e => place e.2

/-- The places of the lines of the files, in their order. -/
def linePlaces (m : Memory) : List Place :=
  m.files.entries.zipIdx.flatMap fun e => placesOf (.line e.2) (linesOf e.1.2.content)

/-- The places of the functions and variables of the files, in their order. -/
def symbolPlaces (m : Memory) : List Place :=
  m.files.entries.zipIdx.flatMap fun e =>
    placesOf (.function e.2) e.1.2.facts.functions ++ placesOf (.variable_ e.2) e.1.2.facts.vars

/-- The places of a memory, in their order. -/
def places (m : Memory) : List Place :=
  m.linePlaces ++ m.symbolPlaces ++ placesOf .event m.events ++ placesOf .exchange m.exchanges

theorem pairwise_zipIdx (xs : List α) : xs.zipIdx.Pairwise fun a b => a.2 < b.2 := by
  have h : (xs.zipIdx.map Prod.snd).Pairwise (· < ·) := by
    rw [zipIdx_map_snd]
    exact pairwise_lt_range' 1
  exact pairwise_map.1 h

theorem mem_placesOf {xs : List α} :
    p ∈ placesOf place xs ↔ ∃ i, place i = p ∧ ∃ x, xs[i]? = some x := by
  rw [placesOf, List.mem_map]
  constructor
  · rintro ⟨e, he, rfl⟩
    exact ⟨e.2, rfl, e.1, mem_zipIdx_iff_getElem?.1 he⟩
  · rintro ⟨i, rfl, x, hx⟩
    exact ⟨(x, i), mk_mem_zipIdx_iff_getElem?.2 hx, rfl⟩

theorem placesOf_pairwise (xs : List α) (h : ∀ i j, i < j → (place i).rank < (place j).rank) :
    (placesOf place xs).Pairwise fun p q => p.rank < q.rank :=
  pairwise_map.2 ((pairwise_zipIdx xs).imp fun hlt => h _ _ hlt)

theorem linePlaces_pairwise (m : Memory) : m.linePlaces.Pairwise fun p q => p.rank < q.rank := by
  refine pairwise_flatMap.2 ⟨fun e _ => ?_, (pairwise_zipIdx m.files.entries).imp fun hlt => ?_⟩
  · exact placesOf_pairwise _ fun i j hij => by simp [Place.rank, cons_lt_cons_iff, hij]
  · intro p hp q hq
    obtain ⟨_, rfl, -⟩ := mem_placesOf.1 hp
    obtain ⟨_, rfl, -⟩ := mem_placesOf.1 hq
    simp [Place.rank, cons_lt_cons_iff, hlt]

theorem symbolPlaces_pairwise (m : Memory) :
    m.symbolPlaces.Pairwise fun p q => p.rank < q.rank := by
  refine pairwise_flatMap.2 ⟨fun e _ => ?_, (pairwise_zipIdx m.files.entries).imp fun hlt => ?_⟩
  · refine pairwise_append.2 ⟨placesOf_pairwise _ fun i j hij => ?_,
      placesOf_pairwise _ fun i j hij => ?_, fun p hp q hq => ?_⟩
    · simp [Place.rank, cons_lt_cons_iff, hij]
    · simp [Place.rank, cons_lt_cons_iff, hij]
    · obtain ⟨_, rfl, -⟩ := mem_placesOf.1 hp
      obtain ⟨_, rfl, -⟩ := mem_placesOf.1 hq
      simp [Place.rank, cons_lt_cons_iff]
  · intro p hp q hq
    rcases mem_append.1 hp with hp | hp <;> obtain ⟨_, rfl, -⟩ := mem_placesOf.1 hp <;>
      rcases mem_append.1 hq with hq | hq <;> obtain ⟨_, rfl, -⟩ := mem_placesOf.1 hq <;>
      simp [Place.rank, cons_lt_cons_iff, hlt]

theorem scope_linePlaces (m : Memory) : ∀ p ∈ m.linePlaces, p.scope = .files := by
  intro p h
  obtain ⟨_, -, h⟩ := mem_flatMap.1 h
  obtain ⟨_, rfl, -⟩ := mem_placesOf.1 h
  rfl

theorem scope_symbolPlaces (m : Memory) : ∀ p ∈ m.symbolPlaces, p.scope = .symbols := by
  intro p h
  obtain ⟨_, -, h⟩ := mem_flatMap.1 h
  rcases mem_append.1 h with h | h <;> obtain ⟨_, rfl, -⟩ := mem_placesOf.1 h <;> rfl

theorem scope_eventPlaces (m : Memory) : ∀ p ∈ placesOf .event m.events, p.scope = .events := by
  intro p h
  obtain ⟨i, rfl, -⟩ := mem_placesOf.1 h
  rfl

theorem scope_exchangePlaces (m : Memory) :
    ∀ p ∈ placesOf .exchange m.exchanges, p.scope = .exchanges := by
  intro p h
  obtain ⟨i, rfl, -⟩ := mem_placesOf.1 h
  rfl

theorem rank_lt_of_scope
    (h : (p.scope, q.scope) ∈ [(SearchScope.files, SearchScope.symbols), (.files, .events),
      (.symbols, .events), (.files, .exchanges), (.symbols, .exchanges), (.events, .exchanges)]) :
    p.rank < q.rank := by
  cases p <;> cases q <;> simp_all [Place.scope, Place.rank, cons_lt_cons_iff]

/-- Places are listed in their order. -/
theorem places_pairwise (m : Memory) : m.places.Pairwise fun p q => p.rank < q.rank := by
  have hevents : (placesOf .event m.events).Pairwise fun p q => p.rank < q.rank :=
    placesOf_pairwise _ fun i j hij => by simp [Place.rank, cons_lt_cons_iff, hij]
  have hexchanges : (placesOf .exchange m.exchanges).Pairwise fun p q => p.rank < q.rank :=
    placesOf_pairwise _ fun i j hij => by simp [Place.rank, cons_lt_cons_iff, hij]
  refine pairwise_append.2 ⟨pairwise_append.2 ⟨pairwise_append.2
    ⟨m.linePlaces_pairwise, m.symbolPlaces_pairwise, ?_⟩, hevents, ?_⟩, hexchanges, ?_⟩
  all_goals
    intro p hp q hq
    apply rank_lt_of_scope
  · simp [m.scope_linePlaces p hp, m.scope_symbolPlaces q hq]
  · rcases mem_append.1 hp with hp | hp
    · simp [m.scope_linePlaces p hp, m.scope_eventPlaces q hq]
    · simp [m.scope_symbolPlaces p hp, m.scope_eventPlaces q hq]
  · rw [mem_append, mem_append] at hp
    rcases hp with (hp | hp) | hp
    · simp [m.scope_linePlaces p hp, m.scope_exchangePlaces q hq]
    · simp [m.scope_symbolPlaces p hp, m.scope_exchangePlaces q hq]
    · simp [m.scope_eventPlaces p hp, m.scope_exchangePlaces q hq]

theorem HitAt.mem_places {m : Memory} {needle : List Char} (h : m.HitAt needle p hit) :
    p ∈ m.places := by
  rw [places, mem_append, mem_append, mem_append, linePlaces, symbolPlaces]
  cases h with
  | line hfile hline _ =>
    refine .inl (.inl (.inl (mem_flatMap.2 ⟨_, mk_mem_zipIdx_iff_getElem?.2 hfile, ?_⟩)))
    exact mem_placesOf.2 ⟨_, rfl, _, hline⟩
  | function hfile hfact _ =>
    refine .inl (.inl (.inr (mem_flatMap.2 ⟨_, mk_mem_zipIdx_iff_getElem?.2 hfile, ?_⟩)))
    exact mem_append_left _ (mem_placesOf.2 ⟨_, rfl, _, hfact⟩)
  | variable_ hfile hfact _ =>
    refine .inl (.inl (.inr (mem_flatMap.2 ⟨_, mk_mem_zipIdx_iff_getElem?.2 hfile, ?_⟩)))
    exact mem_append_right _ (mem_placesOf.2 ⟨_, rfl, _, hfact⟩)
  | event hevent _ => exact .inl (.inr (mem_placesOf.2 ⟨_, rfl, _, hevent⟩))
  | exchange hexchange _ => exact .inr (mem_placesOf.2 ⟨_, rfl, _, hexchange⟩)

section Hits

variable {m : Memory} {needle : List Char}

/-- Going through the places of a list is going through the list with its indices. -/
theorem filterMap_placesOf {xs : List α} {hit? : α × Nat → Option SearchHit}
    (h : ∀ x i, xs[i]? = some x → m.hitAt? needle (place i) = hit? (x, i)) :
    (placesOf place xs).filterMap (m.hitAt? needle) = xs.zipIdx.filterMap hit? := by
  rw [placesOf, filterMap_map]
  exact filterMap_congr fun e he => h _ _ (mem_zipIdx_iff_getElem?.1 he)

/-- Going through places whose hits do not show their indices is filtering. -/
theorem filterMap_placesOf_fst {xs : List α} {p : α → Bool} {hit : α → SearchHit}
    (h : ∀ x i, xs[i]? = some x →
      m.hitAt? needle (place i) = if p x then some (hit x) else none) :
    (placesOf place xs).filterMap (m.hitAt? needle) = (xs.filter p).map hit := by
  have hindexed : (placesOf place xs).filterMap (m.hitAt? needle) =
      xs.zipIdx.filterMap fun e => if p e.1 then some (hit e.1) else none :=
    filterMap_placesOf h
  have hplain :
      (xs.filter p).map hit = xs.filterMap fun x => if p x then some (hit x) else none := by
    rw [← filterMap_eq_map, filterMap_filter]
    rfl
  rw [hindexed, hplain]
  conv_rhs => rw [← zipIdx_map_fst 0 xs, filterMap_map]
  rfl

theorem filterMap_linePlaces (m : Memory) : m.linePlaces.filterMap (m.hitAt? needle) =
    m.files.entries.flatMap fun e => searchFile needle e.1 e.2 := by
  rw [linePlaces, filterMap_flatMap]
  conv_rhs => rw [← zipIdx_map_fst 0 m.files.entries, flatMap_map]
  refine flatMap_congr fun e he => ?_
  have hfile := mem_zipIdx_iff_getElem?.1 he
  exact filterMap_placesOf fun text index hline => by simp [hitAt?, hfile, hline]

theorem filterMap_symbolPlaces (m : Memory) : m.symbolPlaces.filterMap (m.hitAt? needle) =
    m.files.entries.flatMap fun e => searchSymbols needle e.1 e.2 := by
  rw [symbolPlaces, filterMap_flatMap]
  conv_rhs => rw [← zipIdx_map_fst 0 m.files.entries, flatMap_map]
  refine flatMap_congr fun e he => ?_
  have hfile := mem_zipIdx_iff_getElem?.1 he
  rw [filterMap_append, searchSymbols]
  congr 1
  · exact filterMap_placesOf_fst fun fn index hfact => by simp [hitAt?, hfile, hfact]
  · exact filterMap_placesOf_fst fun v index hfact => by simp [hitAt?, hfile, hfact]

theorem filter_scope {ps : List Place} {s : SearchScope} (h : ∀ p ∈ ps, p.scope = s)
    (scope : SearchScope) :
    ps.filter (fun p => scope.includes p.scope) = if scope.includes s then ps else [] := by
  split
  · rename_i hs
    exact filter_eq_self.2 fun p hp => (h p hp).symm ▸ hs
  · rename_i hs
    exact filter_eq_nil_iff.2 fun p hp => (h p hp).symm ▸ hs

/-- A search gives the hits of the places in its scope, in their order. -/
theorem search_eq_places (m : Memory) (hneedle : needleOf query ≠ []) (scope : SearchScope) :
    m.search query scope =
      (m.places.filter fun p => scope.includes p.scope).filterMap (m.hitAt? (needleOf query)) := by
  have hevents : (placesOf .event m.events).filterMap (m.hitAt? (needleOf query)) =
      m.events.zipIdx.filterMap fun e => searchEvent (needleOf query) e.1 e.2 :=
    filterMap_placesOf fun e index hevent => by simp [hitAt?, hevent]
  have hexchanges : (placesOf .exchange m.exchanges).filterMap (m.hitAt? (needleOf query)) =
      m.exchanges.zipIdx.filterMap fun e => searchExchange (needleOf query) e.1 e.2 :=
    filterMap_placesOf fun e index hexchange => by simp [hitAt?, hexchange]
  have hsection : ∀ {ps : List Place} {s : SearchScope}, (∀ p ∈ ps, p.scope = s) →
      (ps.filter fun p => scope.includes p.scope).filterMap (m.hitAt? (needleOf query)) =
        if scope.includes s then ps.filterMap (m.hitAt? (needleOf query)) else [] := by
    intro ps s h
    rw [filter_scope h]
    split <;> rfl
  rw [places, filter_append, filter_append, filter_append, filterMap_append,
    filterMap_append, filterMap_append, hsection m.scope_linePlaces,
    hsection m.scope_symbolPlaces, hsection m.scope_eventPlaces, hsection m.scope_exchangePlaces,
    m.filterMap_linePlaces, m.filterMap_symbolPlaces, hevents, hexchanges]
  exact if_neg fun hempty => hneedle (isEmpty_iff.1 hempty)

end Hits

/-! ## 3. The main result -/

theorem filterMap_sublist {f g : α → Option β} (h : ∀ x y, f x = some y → g x = some y)
    (xs : List α) : (xs.filterMap f).Sublist (xs.filterMap g) := by
  induction xs with
  | nil => exact .slnil
  | cons x rest ih =>
    cases hf : f x with
    | none =>
      rw [filterMap_cons_none hf]
      cases hg : g x with
      | none => rwa [filterMap_cons_none hg]
      | some y =>
        rw [filterMap_cons_some hg]
        exact ih.cons y
    | some y =>
      rw [filterMap_cons_some hf, filterMap_cons_some (h x y hf)]
      exact ih.cons_cons y

theorem forall₂_filterMap (f : α → Option β) (xs : List α) :
    Forall₂ (fun x y => f x = some y) (xs.filter fun x => (f x).isSome) (xs.filterMap f) := by
  induction xs with
  | nil => exact .nil
  | cons x rest ih =>
    cases hf : f x with
    | none => simpa [hf] using ih
    | some y => simpa [hf] using ih

theorem search_empty (m : Memory) (h : needleOf query = []) (scope : SearchScope) :
    m.search query scope = [] := by
  rw [search]
  exact if_pos (isEmpty_iff.2 h)

theorem search_everything (m : Memory) (query : String) :
    m.search query .everything =
      m.search query .files ++ m.search query .symbols ++ m.search query .events ++
        m.search query .exchanges := by
  by_cases h : needleOf query = []
  · simp only [m.search_empty h, append_nil]
  · have hneedle : lowerChars (strip query.toList) ≠ [] := h
    simp [search, SearchScope.includes, hneedle]

/-- What a hit says about the place that it is from. -/
def Shows (m : Memory) (p : Place) : SearchHit → Prop
  | .file path n _ => ∃ file f, m.files.entries[file]? = some (path, f) ∧ p = .line file (n - 1)
  | .function _ _ _ _ => p.scope = .symbols
  | .variable_ _ _ _ _ => p.scope = .symbols
  | .event index _ _ => p = .event index
  | .exchange index _ _ => p = .exchange index

theorem HitAt.shows {m : Memory} {needle : List Char} (h : m.HitAt needle p hit) :
    m.Shows p hit := by
  cases h with
  | line hfile _ _ => exact ⟨_, _, hfile, rfl⟩
  | function _ _ _ => rfl
  | variable_ _ _ _ => rfl
  | event _ _ => rfl
  | exchange _ _ => rfl

/-- The paths of the files being distinct, a hit that is no symbol is from one place only. -/
theorem Shows.unique {m : Memory} (hp : m.Shows p hit)
    (hq : m.Shows q hit) (hscope : p.scope ≠ .symbols) : p = q := by
  cases hit with
  | file path n text =>
    obtain ⟨i, f, hi, rfl⟩ := hp
    obtain ⟨j, g, hj, rfl⟩ := hq
    have hkey : ∀ {k : Nat} {f : SourceFile}, m.files.entries[k]? = some (path, f) →
        (m.files.entries.map (·.1))[k]? = some path := by
      intro k f hk
      rw [getElem?_map, hk]
      rfl
    have hlt : i < (m.files.entries.map (·.1)).length := (List.getElem?_eq_some_iff.1 (hkey hi)).1
    rw [(getElem?_inj hlt m.files.distinct).1 ((hkey hi).trans (hkey hj).symm)]
  | function _ _ _ _ => exact absurd hp hscope
  | variable_ _ _ _ _ => exact absurd hp hscope
  | event index _ _ => exact hp.trans hq.symm
  | exchange index _ _ => exact hp.trans hq.symm

/-- No hit that is a line, an event or an exchange comes twice. -/
theorem search_nodup {m : Memory} (query : String)
    {scope : SearchScope} (hscope : scope ∈ [SearchScope.files, .events, .exchanges]) :
    (m.search query scope).Nodup := by
  by_cases hneedle : needleOf query = []
  · rw [m.search_empty hneedle]
    exact .nil
  · rw [m.search_eq_places hneedle]
    refine pairwise_filterMap.2 ((m.places_pairwise.filter _).imp_of_mem ?_)
    rintro p q hp - hrank hit hhit other hother rfl
    have hincluded := (mem_filter.1 hp).2
    have hsymbols : p.scope ≠ .symbols := by
      intro hsymbols
      rw [hsymbols] at hincluded
      simp only [mem_cons, not_mem_nil, or_false] at hscope
      rcases hscope with rfl | rfl | rfl <;> cases hincluded
    have hsame : p = q := (hitAt?_eq_some_iff.1 hhit).shows.unique
      (hitAt?_eq_some_iff.1 hother).shows hsymbols
    rw [hsame] at hrank
    exact List.lt_irrefl _ hrank

/-- An empty needle finds nothing. Any other finds the hits of the places in the scope that match:
each of these places once, in the order of the places. No hit that is a line, an event or an
exchange comes twice. A search of everything is the four searches one
after the other, and a query whose needle holds that of another finds some of the same, in the same
order. -/
theorem search_finds_places (m : Memory) (query : String) (scope : SearchScope) :
    (needleOf query = [] → m.search query scope = []) ∧
    (needleOf query ≠ [] → ∃ found : List Place,
      (found.Pairwise fun p q => p.rank < q.rank) ∧
      (∀ p, p ∈ found ↔ scope.includes p.scope = true ∧ ∃ hit, m.HitAt (needleOf query) p hit) ∧
      List.Forall₂ (m.HitAt (needleOf query)) found (m.search query scope)) ∧
    (∀ s ∈ [SearchScope.files, .events, .exchanges], (m.search query s).Nodup) ∧
    m.search query .everything =
      m.search query .files ++ m.search query .symbols ++ m.search query .events ++
        m.search query .exchanges ∧
    ∀ narrower, needleOf query ≠ [] → needleOf query <:+: needleOf narrower →
      (m.search narrower scope).Sublist (m.search query scope) := by
  refine ⟨fun h => m.search_empty h scope, fun hneedle => ?_, fun s hs =>
    search_nodup query hs, m.search_everything query, fun narrower hneedle hpart => ?_⟩
  · refine ⟨(m.places.filter fun p => scope.includes p.scope).filter
      fun p => (m.hitAt? (needleOf query) p).isSome, ?_, fun p => ?_, ?_⟩
    · exact (m.places_pairwise.filter _).filter _
    · rw [List.mem_filter, List.mem_filter, Option.isSome_iff_exists]
      simp only [hitAt?_eq_some_iff]
      exact ⟨fun h => ⟨h.1.2, h.2⟩, fun ⟨hscope, hit, hhit⟩ =>
        ⟨⟨hhit.mem_places, hscope⟩, hit, hhit⟩⟩
    · rw [m.search_eq_places hneedle]
      exact (forall₂_filterMap (m.hitAt? (needleOf query)) _).imp fun p hit =>
        hitAt?_eq_some_iff.1
  · have hnarrower : needleOf narrower ≠ [] := by
      intro hempty
      rw [hempty, List.infix_nil] at hpart
      exact hneedle hpart
    rw [m.search_eq_places hneedle, m.search_eq_places hnarrower]
    refine filterMap_sublist (fun p hit hhit => ?_) _
    exact hitAt?_eq_some_iff.2 ((hitAt?_eq_some_iff.1 hhit).of_part hpart)

/-- A memory with one file, in which a variable stands above a function. -/
def declared : Memory :=
  { fresh ["p"] .epoch with
    files := Table.empty.put "a.c" (record "a.c" "int ab;\nint abc() \x7b\n\x7d\n" .epoch) }

theorem search_declared : declared.search " AB" .symbols =
    [.function "a.c" "abc" "int" 2, .variable_ "a.c" "ab" "int" 1] := by
  decide +kernel

theorem search_finds_places_declared :
    needleOf " AB" ≠ [] ∧ needleOf " AB" <:+: needleOf "abc\t" ∧
    (declared.search " AB" .files).Nodup ∧
    (declared.search "abc\t" .everything).Sublist (declared.search " AB" .everything) ∧
    ∃ found : List Place, (found.Pairwise fun p q => p.rank < q.rank) ∧
      List.Forall₂ (declared.HitAt (needleOf " AB")) found
        [.function "a.c" "abc" "int" 2, .variable_ "a.c" "ab" "int" 1] := by
  have hneedle : needleOf " AB" ≠ [] := by decide +kernel
  have hpart : needleOf " AB" <:+: needleOf "abc\t" := by decide +kernel
  obtain ⟨-, hfound, hnodup, -, -⟩ := declared.search_finds_places " AB" .symbols
  obtain ⟨-, -, -, -, hnarrower⟩ := declared.search_finds_places " AB" .everything
  obtain ⟨found, hrank, -, hhits⟩ := hfound hneedle
  refine ⟨hneedle, hpart, hnodup _ (by simp), hnarrower _ hneedle hpart,
    found, hrank, ?_⟩
  rwa [search_declared] at hhits

/-- The path of the file that a hit is from. -/
def hitPath? : SearchHit → Option String
  | .file path _ _ => some path
  | .function path _ _ _ => some path
  | .variable_ path _ _ _ => some path
  | .event _ _ _ => none
  | .exchange _ _ _ => none

/-- The line or the index that a hit shows. -/
def hitNumber : SearchHit → Nat
  | .file _ n _ => n
  | .function _ _ _ n => n
  | .variable_ _ _ _ n => n
  | .event n _ _ => n
  | .exchange n _ _ => n

/-- Hits of one section and one file do not come by their lines: the function below stands before
the variable above. -/
theorem symbols_not_by_line :
    ¬ ∀ (m : Memory) (query : String) (scope : SearchScope), scope ≠ .everything →
      (m.search query scope).Pairwise fun a b =>
        hitPath? a = hitPath? b → hitNumber a ≤ hitNumber b := by
  intro h
  have hlines := h declared " AB" .symbols (by decide)
  rw [search_declared] at hlines
  have hfirst := (List.pairwise_cons.1 hlines).1 _ List.mem_cons_self rfl
  exact absurd hfirst (by decide)

end Memory

end CodeAssist
