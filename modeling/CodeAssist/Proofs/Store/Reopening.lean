import CodeAssist.Proofs.Memory.Plain
import CodeAssist.Proofs.Store.Reachable

/-!
Opening a project again.

A memory document that a store left on the disk is the text that was printed for one of its
memories, or the one that it was opened from. Opening takes the memory back from either, and leaves
the documents alone; a store that is not dirty has left its current memory there. The printed text
can be lost only through reals and through values that are nested too deeply.
-/

namespace CodeAssist

open List Memory

variable {m m' : Memory}

/-! ## 1. Schemas -/

theorem document_effect_schema {root : List String} {now : Moment} {json : Json}
    (h : (Store.Update.document root json now).effect now m = some m') :
    m'.schema = m.schema := by
  rw [Store.Update.document] at h
  cases hchecked : CheckedImport.ofJson json root now with
  | error e =>
    rw [hchecked] at h
    cases h
  | ok c =>
    rw [hchecked] at h
    cases h
    rfl

/-- No operation changes the version of a memory. -/
theorem Operation.effect_schema {root : List String} {now : Moment} {op : Operation}
    (h : op.effect root now m = some m') : m'.schema = m.schema := by
  cases op with
  | file path content =>
    simp only [effect, Store.Update.file] at h
    split at h
    · cases h
    · cases h
      rfl
  | editing p =>
    simp only [effect, Store.Update.editing] at h
    split at h
    · cases h
      simp only [touch, patch]
      split
      · rfl
      · rfl
    · cases h
  | event kind details =>
    cases h
    simp only [touch, logEvent]
  | exchange action prompt response metadata =>
    cases h
    simp only [touch, logExchange]
  | clear =>
    cases h
    rfl
  | document json => exact document_effect_schema h
  | documentText text =>
    simp only [effect, Store.Update.documentText] at h
    split at h
    · exact document_effect_schema h
    · cases h
  | flush => cases h

namespace Store

variable {disk : Disk} {root : List String} {asked : String} {now : Moment} {turns : List Turn}
  {memories : List Memory} {attempts : List (Except StoreError Unit)} {s : Store}

theorem turn_schema (s : Store) (t : Turn) : (s.turn t).memory.schema = s.memory.schema := by
  rw [turn_memory]
  cases heffect : t.op.effect s.root t.now s.memory with
  | none => rfl
  | some m => exact Operation.effect_schema heffect

theorem Runs.schema_le (h : Runs disk root asked now turns memories attempts s) :
    ∀ m ∈ memories, m.schema ≤ schemaVersion := by
  induction h with
  | found h =>
    obtain ⟨text, -, -, htext⟩ := located_some h
    have hschema := (Option.filter_eq_some_iff.1 htext).2
    simpa using hschema
  | blank h =>
    simp only [mem_singleton, forall_eq]
    exact UInt32.le_refl _
  | @turn turns memories attempts s h t hquiet ih =>
    have hlast := ih _ (mem_of_getLast? h.getLast?_memories)
    simp only [mem_append, mem_singleton]
    rintro m (hm | rfl)
    · exact ih m hm
    · rw [turn_schema]
      exact hlast

/-- The memories at a moment are those of a run, the one that is being written included. -/
theorem Moments.exists_runs {d : Disk} (h : Moments disk root asked now memories d) :
    ∃ turns attempts s, Runs disk root asked now turns memories attempts s := by
  cases h with
  | opening h hwrite => exact ⟨_, _, _, .blank h⟩
  | resting h => exact ⟨_, _, _, h⟩
  | @writing turns memories attempts s w d h t hquiet hattempt hwrite =>
    have hrun := h.turn t hquiet
    rw [turn_of_attempt hattempt, persist_memory] at hrun
    exact ⟨_, _, _, hrun⟩

/-! ## 2. Opening -/

/-- A plain memory within the depth is understood from the text that is printed for it. -/
theorem understood_of_plain (hfits : m.Fits) (hplain : m.Plain) (hdepth : m.toJson.nesting ≤ 127)
    (hschema : m.schema ≤ schemaVersion) :
    understood? m.toJson.pretty = some m := by
  rw [understood?, (hplain.ofText?_pretty_iff hfits).2 hdepth]
  simp [Option.filter, hschema]

/-- A text that stands for a memory is understood, if the printed one is. -/
theorem understood_of_stands {text : String} (h : Stands text m)
    (hprinted : understood? m.toJson.pretty = some m) :
    understood? text = some m := by
  rcases h with rfl | hunderstood
  · exact hprinted
  · exact hunderstood

/-- A project whose memory document stands for a memory is opened with it. -/
theorem openAt_stands {d left : Disk} {text : String}
    (hread : d.read (documentOf root memoryDocument) = .ok text) (hstands : Stands text m)
    (hprinted : understood? m.toJson.pretty = some m) (hquiet : Undisturbed root d left)
    (asked : String) (now : Moment) :
    ∃ made, Undisturbed root left made ∧
      openAt left root asked now = .ok { root, memory := m, dirty := false, disk := made } :=
  openAt_understood (hquiet.read_memory.trans hread) (understood_of_stands hstands hprinted)
    asked now

/-- A store that has left its memory on the disk, if only in the memory document, is opened
again. -/
theorem Runs.reopened (h : Runs disk root asked now turns memories attempts s)
    (hleft : s.dirty = false ∨ s.disk.read s.memoryPath = .ok s.memory.toJson.pretty)
    (hprinted : understood? s.memory.toJson.pretty = some s.memory) {left : Disk}
    (hquiet : Undisturbed root s.disk left) (asked' : String) (now' : Moment) :
    ∃ made, Undisturbed root left made ∧
      openAt left root asked' now' = .ok { s with dirty := false, disk := made } := by
  obtain ⟨text, hread, hstands⟩ :
      ∃ text, s.disk.read s.memoryPath = .ok text ∧ Stands text s.memory :=
    hleft.elim h.current.memory fun hread => ⟨_, hread, .inl rfl⟩
  rw [memoryPath, h.root_eq] at hread
  obtain ⟨made, hmade, hopen⟩ := openAt_stands hread hstands hprinted hquiet asked' now'
  exact ⟨made, hmade, by rw [hopen, h.root_eq]⟩

theorem fresh_fits (root : List String) (now : Moment) : (fresh root now).Fits :=
  forall_mem_nil _

theorem fresh_plain (root : List String) (now : Moment) : (fresh root now).Plain := by
  refine ⟨fun e he => ?_, fun e he => ?_⟩
  · cases he
  · cases he

theorem understood_fresh (root : List String) (now : Moment) :
    understood? (fresh root now).toJson.pretty = some (fresh root now) := by
  refine understood_of_plain (fresh_fits root now) (fresh_plain root now) ?_ (UInt32.le_refl _)
  rw [nesting_toJson_le_iff]
  refine ⟨fun e he => ?_, fun e he => ?_⟩
  · cases he
  · cases he

/-- A project that is opened again is as it was opened. -/
theorem openAt_openAt (hopen : openAt disk root asked now = .ok s)
    (hleft : s.dirty = false ∨ s.disk.read s.memoryPath = .ok s.memory.toJson.pretty)
    (asked' : String) (now' : Moment) :
    ∃ made, Undisturbed root s.disk made ∧
      openAt s.disk root asked' now' = .ok { s with dirty := false, disk := made } := by
  rw [openAt_eq] at hopen
  cases hlocated : located disk root asked with
  | error e =>
    rw [hlocated] at hopen
    cases hopen
  | ok found =>
    rw [hlocated] at hopen
    obtain ⟨_ | m, d⟩ := found
    · cases hopen
      have hmemory : (blank root now d).persist.2.memory = .fresh root now := persist_memory _
      have hprinted := understood_fresh root now
      rw [← hmemory] at hprinted
      exact (Runs.blank hlocated).reopened hleft hprinted ⟨rfl, rfl⟩ asked' now'
    · cases hopen
      -- the text need not be a printed one, but it is still there
      obtain ⟨text, -, hread, htext⟩ := located_some hlocated
      exact openAt_understood hread htext asked' now'

/-! ## 3. The main statement -/

/-- The text printed for a memory without reals is read as that memory, files in their order,
exactly when it is not nested deeper than the reader goes. So at every moment of a run, whichever
writes failed, a memory document that was printed for such a memory, or from which the memory was
taken, is opened as it, and the documents stay as they are. In particular a store is opened as it
was, if it is not dirty or its memory document was written and only the index document was not. And
to open a project twice is to open it once, as long as the first opening left its memory in the
memory document. -/
theorem memory_document_lossless :
    (∀ m : Memory, m.Fits → m.Plain →
      (Memory.ofText? m.toJson.pretty = some m ↔ m.toJson.nesting ≤ 127)) ∧
    (∀ {disk root asked now memories d}, Moments disk root asked now memories d →
      ∀ m ∈ memories, ∀ text, d.read (documentOf root memoryDocument) = .ok text →
        Memory.Stands text m → m.Fits → m.Plain → m.toJson.nesting ≤ 127 →
      ∀ left, Undisturbed root d left → ∀ asked' now',
        ∃ made, Undisturbed root left made ∧
          openAt left root asked' now' = .ok { root, memory := m, dirty := false, disk := made }) ∧
    (∀ {disk root asked now turns memories attempts s},
      Runs disk root asked now turns memories attempts s →
      (s.dirty = false ∨ s.disk.read s.memoryPath = .ok s.memory.toJson.pretty) →
      s.memory.Fits → s.memory.Plain → s.memory.toJson.nesting ≤ 127 →
      ∀ left, Undisturbed root s.disk left → ∀ asked' now',
        ∃ made, Undisturbed root left made ∧
          openAt left root asked' now' = .ok { s with dirty := false, disk := made }) ∧
    (∀ {disk root asked now s}, openAt disk root asked now = .ok s →
      (s.dirty = false ∨ s.disk.read s.memoryPath = .ok s.memory.toJson.pretty) → ∀ asked' now',
        ∃ made, Undisturbed root s.disk made ∧
          openAt s.disk root asked' now' = .ok { s with dirty := false, disk := made }) := by
  refine ⟨fun m hfits hplain => hplain.ofText?_pretty_iff hfits, ?_, ?_, ?_⟩
  · intro disk root asked now memories d hmoment m hm text hread hstands hfits hplain hdepth left
      hquiet
    obtain ⟨turns, attempts, s, hrun⟩ := hmoment.exists_runs
    have hprinted := understood_of_plain hfits hplain hdepth (hrun.schema_le m hm)
    exact openAt_stands hread hstands hprinted hquiet
  · intro disk root asked now turns memories attempts s hrun hleft hfits hplain hdepth left hquiet
    have hschema := hrun.schema_le _ (mem_of_getLast? hrun.getLast?_memories)
    have hprinted := understood_of_plain hfits hplain hdepth hschema
    exact hrun.reopened hleft hprinted hquiet
  · intro disk root asked now s hopen hleft
    exact openAt_openAt hopen hleft

/-- Details that are hard to print: quotes, a control character, a character beyond the first
plane, the least integer, an empty container and one inside another. -/
def knotted : Json :=
  .object [("", .array [.null, .bool true, .object []]),
    ("\"\\", .text "\u0001 \u2028 🧵"),
    ("ä", .number (.negative 9223372036854775808))]

theorem knotted_plain : knotted.Plain := by
  refine .object (by unfold Json.Ascending; decide +kernel) ?_
  simp only [forall_mem_cons]
  refine ⟨.array ?_, .text _, .number ⟨by decide, by decide⟩, forall_mem_nil _⟩
  simp only [forall_mem_cons]
  exact ⟨.null, .bool true, .object .nil (forall_mem_nil _), forall_mem_nil _⟩

/-- A turn in which the index document cannot be written. -/
def knottedTurn : Turn :=
  { op := .event .compilation knotted
    now := someday
    disk := { newcomer.disk with sealed := [documentOf ["p"] indexDocument] } }

/-- A new project logs that event, with its memory document alone written, and is opened again,
twice. -/
theorem memory_document_lossless_knotted :
    (newcomer.turn knottedTurn).dirty = true ∧
    ∃ first second, openAt (newcomer.turn knottedTurn).disk ["p"] "/p" someday = .ok first ∧
      openAt first.disk ["p"] "/p" someday = .ok second ∧
      first.memory = noted knotted ∧ second.memory = noted knotted ∧
      Memory.ofText? (noted knotted).toJson.pretty = some (noted knotted) := by
  have hplain : (noted knotted).Plain := by
    refine ⟨fun e he => ?_, fun e he => ?_⟩
    · rw [noted_events, List.mem_singleton] at he
      rw [he]
      exact knotted_plain
    · cases he
  have hdepth : (noted knotted).toJson.nesting ≤ 127 := by decide +kernel
  have hmoment := Moments.resting (runs_newcomer.turn knottedTurn ⟨rfl, rfl⟩)
  have hwritten : (newcomer.turn knottedTurn).disk.read (documentOf ["p"] memoryDocument) =
      .ok (noted knotted).toJson.pretty := rfl
  obtain ⟨hread, hreopen, -, hagain⟩ := memory_document_lossless
  obtain ⟨made, -, hfirst⟩ := hreopen hmoment (noted knotted) (mem_append_right _ mem_cons_self) _
    hwritten (.inl rfl) (noted_fits knotted) hplain hdepth _ ⟨rfl, rfl⟩ "/p" someday
  obtain ⟨made', -, hsecond⟩ := hagain hfirst (.inl rfl) "/p" someday
  exact ⟨rfl, _, _, hfirst, hsecond, rfl, rfl, (hread _ (noted_fits knotted) hplain).2 hdepth⟩

end Store

end CodeAssist
