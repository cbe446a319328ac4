/-!
Values under distinct keys.

A table keeps its entries in the order in which their keys came first, as an `IndexMap` does. That
no key comes twice is part of the table.
-/

namespace CodeAssist

@[ext] structure Table (α : Type) where
  entries : List (String × α)
  distinct : (entries.map (·.1)).Nodup
  deriving Repr

namespace Table

/-! ## 1. Entries -/

/-- Puts an entry at the place of an equal key, or at the end. -/
def putEntry (key : String) (value : α) : List (String × α) → List (String × α)
  | [] => [(key, value)]
  | (k, v) :: rest => if k == key then (k, value) :: rest else (k, v) :: putEntry key value rest

theorem mem_putEntry {key : String} {value : α} {entries : List (String × α)} {e : String × α}
    (h : e ∈ putEntry key value entries) : e = (key, value) ∨ e ∈ entries := by
  induction entries with
  | nil => exact .inl (List.mem_singleton.1 h)
  | cons f rest ih =>
    obtain ⟨k, v⟩ := f
    rw [putEntry] at h
    split at h
    · rename_i hk
      obtain rfl := beq_iff_eq.1 hk
      rcases List.mem_cons.1 h with rfl | hrest
      · exact .inl rfl
      · exact .inr (List.mem_cons_of_mem _ hrest)
    · rcases List.mem_cons.1 h with rfl | hrest
      · exact .inr List.mem_cons_self
      · exact (ih hrest).imp_right (List.mem_cons_of_mem _)

theorem putEntry_nodup {entries : List (String × α)} (h : (entries.map (·.1)).Nodup)
    (key : String) (value : α) : ((putEntry key value entries).map (·.1)).Nodup := by
  induction entries with
  | nil => exact List.pairwise_singleton _ _
  | cons f rest ih =>
    obtain ⟨k, v⟩ := f
    obtain ⟨hk, hrest⟩ := List.nodup_cons.1 h
    rw [putEntry]
    split
    · exact List.nodup_cons.2 ⟨hk, hrest⟩
    · rename_i hne
      refine List.nodup_cons.2 ⟨fun hmem => ?_, ih hrest⟩
      obtain ⟨e, he, hek⟩ := List.mem_map.1 hmem
      rcases mem_putEntry he with rfl | hold
      · exact hne (beq_iff_eq.2 hek.symm)
      · exact hk (hek ▸ List.mem_map_of_mem hold)

/-! ## 2. Tables -/

def empty : Table α :=
  ⟨[], .nil⟩

instance : Inhabited (Table α) :=
  ⟨empty⟩

def put (t : Table α) (key : String) (value : α) : Table α :=
  ⟨putEntry key value t.entries, putEntry_nodup t.distinct key value⟩

/-- The table with some entries put in, one after the other. -/
def putAll (t : Table α) (entries : List (String × α)) : Table α :=
  entries.foldl (fun done e => done.put e.1 e.2) t

def map (f : α → β) (t : Table α) : Table β :=
  ⟨t.entries.map fun e => (e.1, f e.2), by
    rw [List.map_map]
    exact t.distinct⟩

/-- The table with its keys ascending. -/
def sorted (t : Table α) : Table α :=
  ⟨t.entries.mergeSort fun a b => a.1 ≤ b.1,
    ((List.mergeSort_perm _ _).map _).nodup_iff.2 t.distinct⟩

abbrev lookup (t : Table α) (key : String) : Option α :=
  t.entries.lookup key

end Table

end CodeAssist
