import CodeAssist.Table
import Mathlib.Data.List.Forall2

/-!
Tables, and what is found in them.

A look-up finds the one entry of its key (`lookup_eq_some_iff`), so the order of the entries does
not matter to it. Entries that are put into a table one after the other come back as they were if
their keys are distinct (`putAll_entries`), so a table is made anew from what is made of each of its
values, under the same keys in the same order (`traverse?_eq_some_iff`).
-/

namespace CodeAssist

open List Option

/-! ## 1. Lists that are read -/

theorem mapM_eq_some_iff {f : α → Option β} {xs : List α} {ys : List β} :
    xs.mapM f = some ys ↔ Forall₂ (fun x y => f x = some y) xs ys := by
  induction xs generalizing ys with
  | nil =>
    rw [mapM_nil, forall₂_nil_left_iff]
    exact ⟨fun h => (some.inj h).symm, fun h => congrArg some h.symm⟩
  | cons x rest ih =>
    rw [mapM_cons, forall₂_cons_left_iff]
    constructor
    · intro h
      obtain ⟨y, hy, h⟩ := bind_eq_some_iff.1 h
      obtain ⟨more, hmore, h⟩ := bind_eq_some_iff.1 h
      exact ⟨y, more, hy, ih.1 hmore, (some.inj h).symm⟩
    · rintro ⟨y, more, hy, hmore, rfl⟩
      rw [hy, ih.2 hmore]
      rfl

theorem mapM_eq_self_iff {f : α → Option α} {xs : List α} :
    xs.mapM f = some xs ↔ ∀ x ∈ xs, f x = some x := by
  rw [mapM_eq_some_iff, forall₂_same]

theorem mapM_entries_iff {f : α → Option β} {xs : List (String × α)} {ys : List (String × β)} :
    (xs.mapM fun e => (f e.2).map fun v => (e.1, v)) = some ys ↔
      Forall₂ (fun x y => y.1 = x.1 ∧ f x.2 = some y.2) xs ys := by
  have hentry : ∀ (x : String × α) (y : String × β),
      ((f x.2).map fun v => (x.1, v)) = some y ↔ y.1 = x.1 ∧ f x.2 = some y.2 := by
    rintro ⟨k, a⟩ ⟨k', b⟩
    rw [map_eq_some_iff]
    constructor
    · rintro ⟨v, hv, hpair⟩
      cases hpair
      exact ⟨rfl, hv⟩
    · rintro ⟨rfl, hv⟩
      exact ⟨b, hv, rfl⟩
  rw [mapM_eq_some_iff]
  exact ⟨fun h => h.imp fun x y => (hentry x y).1, fun h => h.imp fun x y => (hentry x y).2⟩

theorem mapM_entries_keys {f : α → Option β} {xs : List (String × α)} {ys : List (String × β)}
    (h : (xs.mapM fun e => (f e.2).map fun v => (e.1, v)) = some ys) :
    ys.map (·.1) = xs.map (·.1) := by
  have hread := mapM_entries_iff.1 h
  clear h
  induction hread with
  | nil => rfl
  | cons hhead _ ih => rw [map_cons, map_cons, hhead.1, ih]

namespace Table

variable {t : Table α} {key : String} {value : α} {entries : List (String × α)}

/-! ## 2. Putting entries in -/

theorem putEntry_new (h : key ∉ entries.map (·.1)) (value : α) :
    putEntry key value entries = entries ++ [(key, value)] := by
  induction entries with
  | nil => rfl
  | cons e rest ih =>
    rw [map_cons, mem_cons, not_or] at h
    rw [putEntry, if_neg (by simpa using Ne.symm h.1), ih h.2, cons_append]

theorem entries_putAll (h : ((t.entries ++ entries).map (·.1)).Nodup) :
    (t.putAll entries).entries = t.entries ++ entries := by
  induction entries generalizing t with
  | nil => exact (append_nil _).symm
  | cons e rest ih =>
    have hnew : e.1 ∉ t.entries.map (·.1) := by
      rw [map_append, map_cons] at h
      exact fun hmem => (nodup_append.1 h).2.2 _ hmem _ mem_cons_self rfl
    have hput : (t.put e.1 e.2).entries = t.entries ++ [e] := putEntry_new hnew e.2
    rw [append_cons, ← hput] at h
    rw [putAll, foldl_cons]
    exact (ih h).trans (by rw [hput, ← append_cons])

/-- A table is what comes of putting its entries into an empty one. -/
theorem putAll_entries (t : Table α) : empty.putAll t.entries = t :=
  Table.ext (entries_putAll t.distinct)

theorem mem_putAll {e : String × α} (h : e ∈ (t.putAll entries).entries) :
    e ∈ entries ∨ e ∈ t.entries := by
  induction entries generalizing t with
  | nil => exact .inr h
  | cons f rest ih =>
    rcases ih h with hrest | hput
    · exact .inl (mem_cons_of_mem _ hrest)
    · rcases mem_putEntry hput with rfl | hold
      · exact .inl mem_cons_self
      · exact .inr hold

theorem map_put (f : α → β) (t : Table α) (key : String) (value : α) :
    (t.put key value).map f = (t.map f).put key (f value) := by
  have hentries : ∀ entries : List (String × α),
      (putEntry key value entries).map (fun e => (e.1, f e.2)) =
        putEntry key (f value) (entries.map fun e => (e.1, f e.2)) := by
    intro entries
    induction entries with
    | nil => rfl
    | cons e rest ih =>
      rw [putEntry, map_cons, putEntry]
      split
      · rfl
      · rw [map_cons, ih]
  exact Table.ext (hentries t.entries)

theorem map_putAll (f : α → β) (t : Table α) (entries : List (String × α)) :
    (t.putAll entries).map f = (t.map f).putAll (entries.map fun e => (e.1, f e.2)) := by
  induction entries generalizing t with
  | nil => rfl
  | cons e rest ih =>
    rw [putAll, foldl_cons, map_cons, putAll, foldl_cons, ← map_put]
    exact ih _

theorem map_sorted (f : α → β) (t : Table α) : t.sorted.map f = (t.map f).sorted :=
  Table.ext (map_mergeSort fun _ _ _ _ => rfl)

/-! ## 3. Looking up -/

theorem lookup_entry (key k : String) (value : α) (entries : List (String × α)) :
    ((k, value) :: entries).lookup key = if key = k then some value else entries.lookup key := by
  by_cases h : key = k
  · rw [h, lookup_cons_self, if_pos rfl]
  · rw [lookup_cons, beq_false_of_ne h, if_neg h]

theorem lookup_eq_some_iff : t.lookup key = some value ↔ (key, value) ∈ t.entries := by
  obtain ⟨entries, hdistinct⟩ := t
  change entries.lookup key = some value ↔ (key, value) ∈ entries
  induction entries with
  | nil => simp
  | cons e rest ih =>
    obtain ⟨k, v⟩ := e
    obtain ⟨hk, hrest⟩ := nodup_cons.1 hdistinct
    rw [lookup_entry, mem_cons, Prod.mk.injEq]
    split
    · rename_i hkey
      have hnone : (key, value) ∉ rest := fun hmem => hk (List.mem_map.2 ⟨_, hmem, hkey⟩)
      rw [some.injEq, or_iff_left hnone, and_iff_right hkey, eq_comm]
    · rename_i hkey
      rw [ih hrest, or_iff_right fun h => hkey h.1]

theorem lookup_map (f : α → β) (t : Table α) (key : String) :
    (t.map f).lookup key = (t.lookup key).map f := by
  obtain ⟨entries, hdistinct⟩ := t
  change (entries.map fun e => (e.1, f e.2)).lookup key = (entries.lookup key).map f
  clear hdistinct
  induction entries with
  | nil => rfl
  | cons e rest ih =>
    rw [map_cons, lookup_entry, lookup_entry, ih]
    split <;> rfl

theorem lookup_put (key k : String) (value : α) (t : Table α) :
    (t.put k value).lookup key = if key = k then some value else t.lookup key := by
  obtain ⟨entries, hdistinct⟩ := t
  change (putEntry k value entries).lookup key = if key = k then some value else entries.lookup key
  clear hdistinct
  induction entries with
  | nil => rw [putEntry, lookup_entry]
  | cons e rest ih =>
    obtain ⟨k', v⟩ := e
    rw [putEntry]
    by_cases hsame : k' = k
    · rw [if_pos (beq_iff_eq.2 hsame), lookup_entry, lookup_entry, hsame]
      split <;> rfl
    · rw [if_neg (by simpa using hsame), lookup_entry, lookup_entry, ih]
      split
      · rename_i hfirst
        rw [if_neg (hfirst ▸ hsame)]
      · rfl

theorem lookup_putAll_absent (t : Table α) (h : ∀ e ∈ entries, e.1 ≠ key) :
    (t.putAll entries).lookup key = t.lookup key := by
  induction entries generalizing t with
  | nil => rfl
  | cons e rest ih =>
    obtain ⟨hfirst, hrest⟩ := forall_mem_cons.1 h
    rw [putAll, foldl_cons]
    exact (ih _ hrest).trans (by rw [lookup_put, if_neg (Ne.symm hfirst)])

/-- Of the entries of one key that are put in, the last one counts. -/
theorem lookup_putAll_last {before after : List (String × α)} (t : Table α) (value : α)
    (h : ∀ e ∈ after, e.1 ≠ key) :
    (t.putAll (before ++ (key, value) :: after)).lookup key = some value := by
  rw [putAll, foldl_append, foldl_cons]
  exact (lookup_putAll_absent _ h).trans (by rw [lookup_put, if_pos rfl])

theorem lookup_sorted (t : Table α) (key : String) : t.sorted.lookup key = t.lookup key := by
  refine Option.ext fun value => ?_
  rw [lookup_eq_some_iff, lookup_eq_some_iff]
  exact (mergeSort_perm _ _).mem_iff

/-! ## 4. Tables that are read -/

/-- The table of what `f` makes of each value, unless it makes nothing of one of them. -/
def traverse? (f : α → Option β) (t : Table α) : Option (Table β) :=
  (t.entries.mapM fun e => (f e.2).map fun b => (e.1, b)).map empty.putAll

theorem traverse?_eq_some_iff {f : α → Option β} {u : Table β} :
    t.traverse? f = some u ↔
      Forall₂ (fun e e' => e'.1 = e.1 ∧ f e.2 = some e'.2) t.entries u.entries := by
  rw [← mapM_entries_iff, traverse?, map_eq_some_iff]
  constructor
  · rintro ⟨read, hread, rfl⟩
    -- What was read has the same distinct keys, so putting it in moves nothing.
    have hdistinct : (read.map (·.1)).Nodup := by
      rw [mapM_entries_keys hread]
      exact t.distinct
    rwa [putAll_entries ⟨read, hdistinct⟩]
  · exact fun hread => ⟨_, hread, putAll_entries u⟩

theorem traverse?_eq_self_iff {f : α → Option α} :
    t.traverse? f = some t ↔ ∀ e ∈ t.entries, f e.2 = some e.2 := by
  rw [traverse?_eq_some_iff, forall₂_same]
  exact forall₂_congr fun _ _ => and_iff_right rfl

end Table

end CodeAssist
