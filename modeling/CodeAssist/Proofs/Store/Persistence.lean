import CodeAssist.Proofs.Memory.Reread
import CodeAssist.Proofs.Memory.Untimed

/-!
Runs of a store in which writes may fail.

The memory changes before it is written, so a failed write loses nothing: the memories of a run are
those of any other run of the same operations. The store is dirty exactly when the last attempt to
write failed. When it is not, its documents hold the current memory. And whatever fails, and at
every moment, the memory document is whole.
-/

namespace CodeAssist

open List Option Memory

variable {d d' : Disk} {t : Turn}

/-! ## 1. Documents -/

/-- The memory that opening takes from a text. -/
def Memory.understood? (text : String) : Option Memory :=
  (ofText? text).filter (·.schema ≤ schemaVersion)

/-- A text that was written for a memory, or that opening takes the memory from. -/
def Memory.Stands (text : String) (m : Memory) : Prop :=
  text = m.toJson.pretty ∨ understood? text = some m

namespace Store

/-- A memory is found in a document that is understood, and nothing is changed. -/
theorem load_some {disk : Disk} {root : List String} {m : Memory}
    (h : load disk root = .ok (some m, d)) :
    d = disk ∧ ∃ text, disk.read (documentOf root memoryDocument) = .ok text ∧
      understood? text = some m := by
  rw [load] at h
  cases hread : disk.read (documentOf root memoryDocument) with
  | error e =>
    rw [hread] at h
    cases e <;> cases h
  | ok text =>
    rw [hread] at h
    dsimp only at h
    cases hfound : (ofText? text).filter (·.schema ≤ schemaVersion) with
    | some found =>
      rw [hfound] at h
      cases h
      exact ⟨rfl, text, rfl, hfound⟩
    | none =>
      rw [hfound] at h
      dsimp only at h
      split at h <;> cases h

/-- No memory is found where there is no document, or one that is not understood. -/
theorem load_none {disk : Disk} {root : List String} (h : load disk root = .ok (none, d)) :
    (disk.read (documentOf root memoryDocument) = .error .notFound ∧
      d.read (documentOf root memoryDocument) = .error .notFound) ∨
    ∃ text, disk.read (documentOf root memoryDocument) = .ok text ∧
      understood? text = none ∧
      (d.read (documentOf root memoryDocument) = .error .notFound ∨
        d.read (documentOf root memoryDocument) = .ok text) := by
  rw [load] at h
  cases hread : disk.read (documentOf root memoryDocument) with
  | error e =>
    rw [hread] at h
    cases e <;> cases h
    exact .inl ⟨rfl, hread⟩
  | ok text =>
    rw [hread] at h
    dsimp only at h
    cases hfound : (ofText? text).filter (·.schema ≤ schemaVersion) with
    | some found =>
      rw [hfound] at h
      cases h
    | none =>
      rw [hfound] at h
      refine .inr ⟨text, rfl, hfound, ?_⟩
      dsimp only at h
      cases hmoved : disk.rename (documentOf root memoryDocument)
          (documentOf root (memoryDocument ++ ".corrupt")) with
      | error e =>
        rw [hmoved] at h
        cases h
        exact .inr hread
      | ok moved =>
        rw [hmoved] at h
        cases h
        obtain ⟨-, -, -, hgone, -⟩ := Disk.rename_find (by decide) hmoved
        exact .inl (by rw [Disk.read, documentOf, hgone])

theorem Undisturbed.read_memory {root : List String} (h : Undisturbed root d d') :
    d'.read (documentOf root memoryDocument) = d.read (documentOf root memoryDocument) :=
  Disk.read_congr h.memory

theorem Undisturbed.read_index {root : List String} (h : Undisturbed root d d') :
    d'.read (documentOf root indexDocument) = d.read (documentOf root indexDocument) :=
  Disk.read_congr h.index

theorem makeDirectories_root {disk below : Disk} {root : List String}
    (h : disk.makeDirectories root = .ok below) (name : String) :
    below.find (documentOf root name) = disk.find (documentOf root name) := by
  rw [documentOf, directoryOf, append_assoc]
  exact Disk.makeDirectories_find h memoryDirectory [name]

/-- Locating a memory makes its directory and loads it. -/
theorem exists_load_of_located {disk : Disk} {root : List String} {asked : String}
    {found : Option Memory} (h : located disk root asked = .ok (found, d)) :
    ∃ made, Undisturbed root disk made ∧ load made root = .ok (found, d) := by
  rw [located] at h
  cases hroot : disk.makeDirectories root with
  | error e =>
    rw [hroot] at h
    cases h
  | ok below =>
    rw [hroot] at h
    dsimp only at h
    cases hdirectory : below.makeDirectories (directoryOf root) with
    | error e =>
      rw [hdirectory] at h
      cases h
    | ok made =>
      rw [hdirectory] at h
      have hkept (name : String) :=
        (makeDirectories_document hdirectory name).trans (makeDirectories_root hroot name)
      exact ⟨made, ⟨hkept _, hkept _⟩, h⟩

theorem located_some {disk : Disk} {root : List String} {asked : String} {m : Memory}
    (h : located disk root asked = .ok (some m, d)) :
    ∃ text, disk.read (documentOf root memoryDocument) = .ok text ∧
      d.read (documentOf root memoryDocument) = .ok text ∧ understood? text = some m := by
  obtain ⟨made, hmade, hload⟩ := exists_load_of_located h
  obtain ⟨rfl, text, hread, htext⟩ := load_some hload
  exact ⟨text, hmade.read_memory.symm.trans hread, hread, htext⟩

theorem located_none {disk : Disk} {root : List String} {asked : String}
    (h : located disk root asked = .ok (none, d)) :
    d.read (documentOf root memoryDocument) = .error .notFound ∨
    ∃ text, disk.read (documentOf root memoryDocument) = .ok text ∧
      d.read (documentOf root memoryDocument) = .ok text ∧ understood? text = none := by
  obtain ⟨made, hmade, hload⟩ := exists_load_of_located h
  rcases load_none hload with ⟨-, habsent⟩ | ⟨text, hread, htext, habsent | hleft⟩
  · exact .inl habsent
  · exact .inl habsent
  · exact .inr ⟨text, hmade.read_memory.symm.trans hread, hleft, htext⟩

/-! ## 2. The memory document at every moment -/

section Runs

variable {disk : Disk} {root : List String} {asked : String} {now : Moment} {turns : List Turn}
  {memories : List Memory} {attempts : List (Except StoreError Unit)} {s : Store}

/-- The memory document is absent, or stands for a memory that the store has had, or is one that
opening found and could neither understand nor put aside. -/
def Whole (disk : Disk) (root : List String) (memories : List Memory) (d : Disk) : Prop :=
  d.read (documentOf root memoryDocument) = .error .notFound ∨
  (∃ text, d.read (documentOf root memoryDocument) = .ok text ∧
    ∃ m ∈ memories, Stands text m) ∨
  ∃ text, d.read (documentOf root memoryDocument) = .ok text ∧
    disk.read (documentOf root memoryDocument) = .ok text ∧ understood? text = none

theorem Whole.congr (h : Whole disk root memories d)
    (hread : d'.read (documentOf root memoryDocument) = d.read (documentOf root memoryDocument)) :
    Whole disk root memories d' := by
  rw [Whole, hread]
  exact h

theorem Whole.more (h : Whole disk root memories d) (more : List Memory) :
    Whole disk root (memories ++ more) d := by
  rcases h with habsent | ⟨text, hread, m, hm, hstands⟩ | hleft
  · exact .inl habsent
  · exact .inr (.inl ⟨text, hread, m, mem_append_left _ hm, hstands⟩)
  · exact .inr (.inr hleft)

theorem Whole.persisting {w : Store} (h : Whole disk w.root memories w.disk)
    (hwrite : Persisting w d) : Whole disk w.root (memories ++ [w.memory]) d := by
  rcases hwrite.memoryDocument with hsame | hread
  · exact (h.congr (Disk.read_congr hsame)).more _
  · exact .inr (.inl ⟨_, hread, w.memory, mem_append_right _ mem_cons_self, .inl rfl⟩)

theorem Whole.blank (h : located disk root asked = .ok (none, d)) :
    Whole disk root [] d := by
  rcases located_none h with habsent | ⟨text, hfound, hleft, htext⟩
  · exact .inl habsent
  · exact .inr (.inr ⟨text, hleft, hfound, htext⟩)

theorem persist_root (w : Store) : w.persist.2.root = w.root := by
  rcases w.persist_cases with ⟨e, d, h, -⟩ | ⟨d, h, -⟩ <;> rw [h]

theorem persist_memory (w : Store) : w.persist.2.memory = w.memory := by
  rcases w.persist_cases with ⟨e, d, h, -⟩ | ⟨d, h, -⟩ <;> rw [h]

theorem persist_moment (w : Store) : Persisting w w.persist.2.disk := by
  rcases w.persist_cases with ⟨e, d, h, hd⟩ | ⟨d, h, hd, -⟩
  · rw [h]
    exact hd
  · rw [h]
    exact hd

/-- A store to be written differs from the one before in its memory only. -/
theorem attempt?_frame {w : Store} (h : s.attempt? t = some w) :
    w.root = s.root ∧ w.disk = t.disk := by
  rcases toWrite?_some h with ⟨-, rfl⟩ | ⟨memory, -, rfl⟩
  · exact ⟨rfl, rfl⟩
  · exact ⟨rfl, rfl⟩

theorem turn_of_attempt {w : Store} (h : s.attempt? t = some w) :
    s.turn t = w.persist.2 := by
  rw [turn_eq, h]
  rfl

theorem turn_of_no_attempt (h : s.attempt? t = none) : s.turn t = s.facing t := by
  rw [turn_eq, h]
  rfl

theorem turn_root (s : Store) (t : Turn) : (s.turn t).root = s.root := by
  cases hattempt : s.attempt? t with
  | none =>
    rw [turn_of_no_attempt hattempt]
    rfl
  | some w => rw [turn_of_attempt hattempt, persist_root, (attempt?_frame hattempt).1]

theorem Runs.root_eq (h : Runs disk root asked now turns memories attempts s) : s.root = root := by
  induction h with
  | found => rfl
  | blank => exact persist_root _
  | turn _ t _ ih => rw [turn_root, ih]

/-- A run leaves the memory document whole. -/
theorem Runs.whole (h : Runs disk root asked now turns memories attempts s) :
    Whole disk root memories s.disk := by
  induction h with
  | found h =>
    obtain ⟨text, -, hread, htext⟩ := located_some h
    exact .inr (.inl ⟨text, hread, _, mem_cons_self, .inr htext⟩)
  | @blank d h =>
    exact Whole.persisting (w := Store.blank root now d) (Whole.blank h) (persist_moment _)
  | @turn turns memories attempts s hrun t hquiet ih =>
    have hfacing := ih.congr hquiet.read_memory
    cases hattempt : s.attempt? t with
    | none =>
      rw [turn_of_no_attempt hattempt]
      exact hfacing.more _
    | some w =>
      obtain ⟨hroot, hdisk⟩ := attempt?_frame hattempt
      obtain rfl : w.root = root := hroot.trans hrun.root_eq
      rw [turn_of_attempt hattempt, persist_memory]
      exact Whole.persisting (hdisk ▸ hfacing) (persist_moment w)

theorem Moments.whole (h : Moments disk root asked now memories d) :
    Whole disk root memories d := by
  cases h with
  | @opening d₀ _ h hwrite =>
    exact Whole.persisting (w := Store.blank root now d₀) (Whole.blank h) hwrite
  | resting h => exact h.whole
  | writing h t hquiet hattempt hwrite =>
    obtain ⟨hroot, hdisk⟩ := attempt?_frame hattempt
    obtain rfl := hroot.trans h.root_eq
    exact Whole.persisting (hdisk ▸ h.whole.congr hquiet.read_memory) hwrite

/-! ## 3. The current memory -/

/-- The store is dirty exactly when the last attempt to write failed, and when it is not dirty its
documents hold its memory. -/
structure Current (attempts : List (Except StoreError Unit)) (s : Store) : Prop where
  dirty : s.dirty = true ↔ ∃ e, attempts.getLast? = some (.error e)
  memory : s.dirty = false →
    ∃ text, s.disk.read s.memoryPath = .ok text ∧ Stands text s.memory
  index : s.dirty = false → .ok () ∈ attempts →
    s.disk.read s.indexPath = .ok s.memory.index.toJson.pretty

/-- A store that was just written is current, whether or not the write failed. -/
theorem current_persist (w : Store) (attempts : List (Except StoreError Unit)) :
    Current (attempts ++ [w.persist.1]) w.persist.2 := by
  rcases w.persist_cases with ⟨e, d, h, -⟩ | ⟨d, h, -, hmemory, hindex⟩
  · rw [h]
    refine ⟨⟨fun _ => ⟨e, getLast?_concat⟩, fun _ => rfl⟩, ?_, ?_⟩
    · intro hclean
      cases hclean
    · intro hclean
      cases hclean
  · rw [h]
    refine ⟨⟨fun hdirty => ?_, ?_⟩, fun _ => ⟨_, hmemory, .inl rfl⟩, fun _ _ => hindex⟩
    · cases hdirty
    · rintro ⟨e, he⟩
      rw [getLast?_concat] at he
      cases he

theorem Current.facing (h : Current attempts s) (hquiet : Undisturbed s.root s.disk t.disk) :
    Current attempts (s.facing t) := by
  refine ⟨h.dirty, fun hclean => ?_, fun hclean hok => ?_⟩
  · obtain ⟨text, hread, hstands⟩ := h.memory hclean
    exact ⟨text, hquiet.read_memory.trans hread, hstands⟩
  · exact hquiet.read_index.trans (h.index hclean hok)

/-- A run leaves its store current. -/
theorem Runs.current (h : Runs disk root asked now turns memories attempts s) :
    Current attempts s := by
  induction h with
  | found h =>
    obtain ⟨text, -, hread, htext⟩ := located_some h
    refine ⟨⟨fun hdirty => ?_, fun ⟨e, he⟩ => ?_⟩, fun _ => ⟨text, hread, .inr htext⟩,
      fun _ hok => ?_⟩
    · cases hdirty
    · cases he
    · cases hok
  | blank => exact current_persist _ []
  | @turn turns memories attempts s hrun t hquiet ih =>
    cases hattempt : s.attempt? t with
    | none =>
      rw [turn_of_no_attempt hattempt]
      rw [← hrun.root_eq] at hquiet
      simpa using ih.facing hquiet
    | some w =>
      rw [turn_of_attempt hattempt]
      exact current_persist w attempts

/-! ## 4. Two runs -/

theorem turn_memory (s : Store) (t : Turn) :
    (s.turn t).memory = (t.op.effect s.root t.now s.memory).getD s.memory := by
  cases hattempt : s.attempt? t with
  | none =>
    have heffect := effect_of_toWrite?_none (s := s.facing t) hattempt
    change t.op.effect s.root t.now s.memory = none at heffect
    rw [turn_of_no_attempt hattempt, heffect]
    rfl
  | some w =>
    rw [turn_of_attempt hattempt, persist_memory]
    rcases toWrite?_some hattempt with ⟨heffect, rfl⟩ | ⟨memory, heffect, rfl⟩
    · change t.op.effect s.root t.now s.memory = none at heffect
      rw [heffect]
      rfl
    · change t.op.effect s.root t.now s.memory = some memory at heffect
      rw [heffect]
      rfl

theorem Runs.getLast?_memories (h : Runs disk root asked now turns memories attempts s) :
    memories.getLast? = some s.memory := by
  cases h with
  | found => rfl
  | blank => rw [persist_memory]; rfl
  | turn => exact getLast?_concat

theorem head?_append_of_getLast? {xs ys : List α} {x : α} (h : xs.getLast? = some x) :
    (xs ++ ys).head? = xs.head? := by
  cases xs with
  | nil => cases h
  | cons => rfl

theorem turn_untimed {s s' : Store} (hroot : s.root = s'.root)
    (h : s.memory.untimed = s'.memory.untimed) {t' : Turn} (hop : t.op = t'.op) :
    (s.turn t).memory.untimed = (s'.turn t').memory.untimed := by
  have heffect := Operation.effect_untimed h s.root t.now t'.now t.op
  rw [turn_memory, turn_memory, ← hroot, ← hop]
  cases heffect₁ : t.op.effect s.root t.now s.memory <;>
    cases heffect₂ : t.op.effect s.root t'.now s'.memory <;>
    rw [heffect₁, heffect₂] at heffect
  · exact h
  · cases heffect
  · cases heffect
  · exact some.inj heffect

/-- Two runs of the same operations have the same memories, apart from moments, whichever of
their writes fail. -/
theorem Runs.untimed_eq (h : Runs disk root asked now turns memories attempts s) :
    ∀ {disk' : Disk} {asked' : String} {now' : Moment} {turns' : List Turn}
      {memories' : List Memory} {attempts' : List (Except StoreError Unit)} {s' : Store},
      Runs disk' root asked' now' turns' memories' attempts' s' →
      memories.head?.map untimed = memories'.head?.map untimed →
      turns.map (·.op) = turns'.map (·.op) →
      memories.map untimed = memories'.map untimed := by
  -- Both runs lose their last turn together.
  induction h with
  | found h | blank h =>
    intro disk' asked' now' turns' memories' attempts' s' h' hstart hops
    cases h' with
    | found => simpa using hstart
    | blank => simpa using hstart
    | turn => simp at hops
  | @turn turns memories attempts s hrun t hquiet ih =>
    intro disk' asked' now' turns' memories' attempts' s' h' hstart hops
    cases h' with
    | found => simp at hops
    | blank => simp at hops
    | @turn turns' memories' attempts' s' hrun' t' hquiet' =>
      rw [map_append, map_append, map_singleton, map_singleton,
        append_singleton_inj] at hops
      have hbefore := ih hrun' ?_ hops.1
      · have hlast := congrArg getLast? hbefore
        rw [getLast?_map, getLast?_map, hrun.getLast?_memories,
          hrun'.getLast?_memories] at hlast
        have hturn := turn_untimed (hrun.root_eq.trans hrun'.root_eq.symm) (some.inj hlast)
          hops.2
        rw [map_append, map_append, hbefore, map_singleton, map_singleton,
          hturn]
      · rwa [head?_append_of_getLast? hrun.getLast?_memories,
          head?_append_of_getLast? hrun'.getLast?_memories] at hstart

end Runs

/-! ## 5. The main statement -/

theorem ofText?_pretty_eq_self_iff {m : Memory} (h : m.Fits) :
    ofText? m.toJson.pretty = some m ↔ m.Kept := by
  rw [ofText?_pretty, reread?_eq_self_iff h]

theorem ofText?_of_stands {text : String} {m : Memory} (h : Stands text m)
    (hfits : m.Fits) (hkept : m.Kept) : ofText? text = some m := by
  rcases h with rfl | hunderstood
  · exact (ofText?_pretty_eq_self_iff hfits).2 hkept
  · exact (filter_eq_some_iff.1 hunderstood).1

/-- Failed writes do no harm, whichever they are. The memories of a run are those of every run of
the same operations, apart from moments. The store is dirty exactly when the last attempt to write
failed. When it is not dirty, the memory document was written for its memory or is the one that the
memory was taken from, and is read as that memory if each free value in it is read as itself; a
document that was written for it is read as it in no other case. Once something was written, the
index document is read as the facts of its files. At every moment the memory document is whole. -/
theorem runs_survive_failed_writes {disk : Disk} {root : List String} {asked : String}
    {now : Moment} {turns : List Turn} {memories : List Memory}
    {attempts : List (Except StoreError Unit)} {s : Store}
    (h : Runs disk root asked now turns memories attempts s) :
    (∀ {disk' : Disk} {asked' : String} {now' : Moment} {turns' : List Turn}
      {memories' : List Memory} {attempts' : List (Except StoreError Unit)} {s' : Store},
      Runs disk' root asked' now' turns' memories' attempts' s' →
      memories.head?.map Memory.untimed = memories'.head?.map Memory.untimed →
      turns.map (·.op) = turns'.map (·.op) →
      memories.map Memory.untimed = memories'.map Memory.untimed) ∧
    (s.dirty = true ↔ ∃ e, attempts.getLast? = some (.error e)) ∧
    (s.dirty = false → ∃ text, s.disk.read s.memoryPath = .ok text ∧
      Memory.Stands text s.memory ∧
      (s.memory.Fits → (s.memory.Kept → Memory.ofText? text = some s.memory) ∧
        (text = s.memory.toJson.pretty →
          (Memory.ofText? text = some s.memory ↔ s.memory.Kept)))) ∧
    (s.dirty = false → .ok () ∈ attempts → ∃ text, s.disk.read s.indexPath = .ok text ∧
      text = s.memory.index.toJson.pretty ∧
      (s.memory.Fits → ∃ index, (Json.parse text).bind FactIndex.ofJson? = some index ∧
        index.files = s.memory.facts)) ∧
    ∀ {memories : List Memory} {d : Disk}, Moments disk root asked now memories d →
      Whole disk root memories d := by
  have hcurrent := h.current
  refine ⟨h.untimed_eq, hcurrent.dirty, fun hclean => ?_, fun hclean hok => ?_,
    fun hmoment => hmoment.whole⟩
  · obtain ⟨text, hread, hstands⟩ := hcurrent.memory hclean
    refine ⟨text, hread, hstands, fun hfits => ⟨ofText?_of_stands hstands hfits, ?_⟩⟩
    rintro rfl
    exact ofText?_pretty_eq_self_iff hfits
  · exact ⟨_, hcurrent.index hclean hok, rfl, fun hfits => ⟨_, Memory.index_reads hfits, rfl⟩⟩

def someday : Moment :=
  { seconds := 1718000000, nanos := 0 }

/-- A disk with nothing but the directory of a memory. -/
def bareDisk : Disk :=
  { top := .directory [("p", .directory [(memoryDirectory, .directory [])])] }

def newcomer : Store :=
  (blank ["p"] someday bareDisk).persist.2

theorem runs_newcomer :
    Runs .empty ["p"] "/p" someday [] [.fresh ["p"] someday]
      [(blank ["p"] someday bareDisk).persist.1] newcomer :=
  .blank rfl

/-- The memory of a new project after one event. -/
def noted (details : Json) : Memory :=
  ((fresh ["p"] someday).logEvent ⟨.compilation, details, someday⟩).touch someday

theorem noted_events (details : Json) :
    (noted details).events = [⟨.compilation, details, someday⟩] := by
  simp [noted, touch, logEvent, latest, eventLimit, fresh]

theorem noted_fits (details : Json) : (noted details).Fits :=
  forall_mem_nil _

def blockedTurn : Turn :=
  { op := .event .compilation .null
    now := someday
    disk := { newcomer.disk with sealed := [documentOf ["p"] memoryDocument] } }

def flushTurn : Turn :=
  { op := .flush
    now := someday
    disk := { (newcomer.turn blockedTurn).disk with sealed := [] } }

/-- A failed write and a flush. -/
theorem runs_survive_failed_writes_flush :
    (newcomer.turn blockedTurn).dirty = true ∧
    ((newcomer.turn blockedTurn).turn flushTurn).dirty = false ∧
    ∃ text, ((newcomer.turn blockedTurn).turn flushTurn).disk.read
      (documentOf ["p"] memoryDocument) = .ok text ∧
      Memory.ofText? text = some ((newcomer.turn blockedTurn).turn flushTurn).memory := by
  have hrun := (runs_newcomer.turn blockedTurn ⟨rfl, rfl⟩).turn flushTurn ⟨rfl, rfl⟩
  obtain ⟨-, -, hmemory, -⟩ := runs_survive_failed_writes hrun
  have hclean : ((newcomer.turn blockedTurn).turn flushTurn).dirty = false := rfl
  obtain ⟨text, hread, -, hdecodes⟩ := hmemory hclean
  refine ⟨rfl, hclean, text, hread,
    (hdecodes (noted_fits .null)).1 ⟨fun e he => ?_, fun e he => ?_⟩⟩
  · obtain rfl := List.mem_singleton.1 he
    rfl
  · cases he

def numeral? : Json → Option Numeral
  | .number n => some n
  | _ => none

/-- A number that is printed with seventeen digits, which are read as its neighbour. -/
def unsteady : Json :=
  .number (.real (.finite false 5444517870735016 (-132)))

theorem unsteady_not_kept (depth : Nat) : ¬ Json.Kept depth unsteady := by
  intro hkept
  obtain ⟨j, hread, hcanonical⟩ := map_eq_some_iff.1 hkept
  have hneighbour : (Json.reread depth unsteady).bind numeral? =
      some (.real (.finite false 5444517870735015 (-132))) := by
    rw [unsteady, Json.reread]
    decide +kernel
  rw [hread, bind_some] at hneighbour
  cases j <;> cases hneighbour
  cases hcanonical

def unsteadyTurn : Turn :=
  { op := .event .compilation unsteady, now := someday, disk := newcomer.disk }

/-- A store that is not dirty and whose document is not read as its memory. -/
theorem clean_document_may_differ :
    ∃ turns memories attempts s, Runs .empty ["p"] "/p" someday turns memories attempts s ∧
      s.dirty = false ∧
      ¬ ∃ text, s.disk.read s.memoryPath = .ok text ∧ Memory.ofText? text = some s.memory := by
  refine ⟨_, _, _, _, runs_newcomer.turn unsteadyTurn ⟨rfl, rfl⟩, rfl, ?_⟩
  rintro ⟨text, hread, hdecodes⟩
  have hwritten : Except.ok text = .ok (noted unsteady).toJson.pretty := hread.symm
  rw [Except.ok.inj hwritten] at hdecodes
  have hkept := (ofText?_pretty_eq_self_iff (noted_fits unsteady)).1 hdecodes
  refine unsteady_not_kept 124 (hkept.events ⟨.compilation, unsteady, someday⟩ ?_)
  rw [noted_events]
  exact List.mem_singleton_self _

end Store

end CodeAssist
