import CodeAssist.Proofs.Memory.Key
import CodeAssist.Proofs.Memory.Reread
import CodeAssist.Proofs.Store.Runs

/-!
Sound memories.

In a sound memory the keys of the files ascend, each file is what its key and its content make it,
the logs are within their limits, and the project is that of its root. Every operation keeps a
memory sound, and so do writing it and reading it back.
-/

namespace CodeAssist

open List Option Memory

/-! ## 1. Files -/

/-- A file as its key and its content make it. -/
structure SourceFile.IsRecord (key : String) (f : SourceFile) : Prop where
  named : key ≠ ""
  plain : '\\' ∉ key.toList
  path : f.path = key
  size : f.size = f.content.utf8ByteSize
  facts : f.facts = .ofText f.content

variable {root : List String}

theorem record_isRecord {path : String} (h : (fileKey root path).isEmpty = false) (content : String)
    (moment : Moment) :
    (record (fileKey root path) content moment).IsRecord (fileKey root path) := by
  refine ⟨fun hempty => ?_, fileKey_plain root path, rfl, rfl, rfl⟩
  rw [hempty] at h
  cases h

section Files

variable {files : Table SourceFile} {new : List SourceFile}

theorem mem_putFiles {e : String × SourceFile} (h : e ∈ (putFiles files new).entries) :
    (∃ f ∈ new, e = (f.path, f)) ∨ e ∈ files.entries := by
  refine (Table.mem_putAll ((mergeSort_perm _ _).mem_iff.1 h)).imp_left fun hnew => ?_
  obtain ⟨f, hf, rfl⟩ := mem_map.1 hnew
  exact ⟨f, hf, rfl⟩

theorem ascending_sorted (t : Table α) : Json.Ascending t.sorted.entries := by
  have hsorted : t.sorted.entries.Pairwise fun a b => decide (a.1 ≤ b.1) = true := by
    refine pairwise_mergeSort (fun a b c hab hbc => ?_) (fun a b => ?_) _
    · rw [decide_eq_true_iff] at *
      exact String.le_trans hab hbc
    · rw [Bool.or_eq_true, decide_eq_true_iff, decide_eq_true_iff]
      exact String.le_total ..
  have hdistinct : t.sorted.entries.Pairwise fun a b => a.1 ≠ b.1 :=
    pairwise_map.1 t.sorted.distinct
  refine (hsorted.and hdistinct).imp fun ⟨hle, hne⟩ => ?_
  rw [decide_eq_true_iff] at hle
  exact Classical.byContradiction fun hnot => hne (String.le_antisymm hle (String.not_lt.1 hnot))

end Files

/-! ## 2. Logs -/

theorem length_latest_le (n : Nat) (entries : List α) : (latest n entries).length ≤ n := by
  rw [latest, length_drop]
  omega

/-! ## 3. Operations -/

/-- A memory of the project at a root as it should be. -/
structure Memory.Sound (root : List String) (m : Memory) : Prop where
  schema : m.schema = schemaVersion
  ascending : Json.Ascending m.files.entries
  records : ∀ e ∈ m.files.entries, e.2.IsRecord e.1
  events : m.events.length ≤ eventLimit
  exchanges : m.exchanges.length ≤ exchangeLimit
  id : m.project.id = Digest.hex (Path.textOf root)
  name : m.project.name = root.getLast?.getD (Path.textOf root)
  root : m.project.root = Path.textOf root

namespace Memory

variable {root : List String} {m : Memory}

theorem fresh_sound (root : List String) (now : Moment) : (fresh root now).Sound root :=
  ⟨rfl, .nil, forall_mem_nil _, Nat.zero_le _, Nat.zero_le _, rfl, rfl, rfl⟩

theorem Sound.touch (h : m.Sound root) (now : Moment) : (m.touch now).Sound root :=
  ⟨h.schema, h.ascending, h.records, h.events, h.exchanges, h.id, h.name, h.root⟩

theorem Sound.logEvent (h : m.Sound root) (events : List Event) (e : Event) :
    ({ m with events }.logEvent e).Sound root := by
  rw [Memory.logEvent]
  refine ⟨h.schema, h.ascending, h.records, ?_, h.exchanges, h.id, h.name, h.root⟩
  dsimp only
  exact length_latest_le ..

theorem Sound.logExchange (h : m.Sound root) (e : Exchange) : (m.logExchange e).Sound root := by
  rw [Memory.logExchange]
  refine ⟨h.schema, h.ascending, h.records, h.events, ?_, h.id, h.name, h.root⟩
  dsimp only
  exact length_latest_le ..

theorem Sound.putFiles (h : m.Sound root) {new : List SourceFile}
    (hnew : ∀ f ∈ new, f.IsRecord f.path) :
    { m with files := putFiles m.files new }.Sound root := by
  refine ⟨h.schema, ascending_sorted _, fun e he => ?_, h.events, h.exchanges, h.id,
    h.name, h.root⟩
  rcases mem_putFiles he with ⟨f, hf, rfl⟩ | hold
  · exact hnew f hf
  · exact h.records e hold

theorem Sound.patch (h : m.Sound root) (p : EditPatch) (now : Moment) :
    (m.patch p now).Sound root := by
  have hedited : ({ m with editing := p.apply m.editing } : Memory).Sound root :=
    ⟨h.schema, h.ascending, h.records, h.events, h.exchanges, h.id, h.name, h.root⟩
  rw [Memory.patch]
  dsimp only
  split
  · exact hedited
  · exact hedited.logEvent _ _

theorem Sound.clear (h : m.Sound root) (now : Moment) : (m.clear now).Sound root :=
  ⟨h.schema, .nil, forall_mem_nil _, (by decide : 1 ≤ eventLimit), Nat.zero_le _, h.id, h.name,
    h.root⟩

theorem Sound.merge (h : m.Sound root) {c : CheckedImport}
    (hnew : ∀ f ∈ c.files, f.IsRecord f.path) (now : Moment) : (m.merge c now).Sound root := by
  have hfiles := h.putFiles hnew
  rw [Memory.merge, Memory.logEvent]
  refine ⟨h.schema, hfiles.ascending, hfiles.records, ?_, ?_, h.id, h.name, h.root⟩
  · dsimp only
    exact length_latest_le ..
  · dsimp only
    exact length_latest_le ..

end Memory

/-- The files of a document that passes are made from their keys and contents. -/
theorem checkFiles_isRecord {now : Moment} :
    ∀ {files : List (String × ImportedFile)} {checked : List SourceFile},
      checkFiles root now files = .ok checked → ∀ f ∈ checked, f.IsRecord f.path
  | [], checked, h => by
    cases h
    exact fun f hf => by cases hf
  | (text, file) :: rest, checked, h => by
    rw [checkFiles] at h
    split at h
    · cases h
    split at h
    · cases h
    rename_i hkey
    obtain ⟨more, hmore, h⟩ := exists_of_bind_ok h
    cases h
    intro f hf
    rcases mem_cons.1 hf with rfl | hf
    · exact record_isRecord (Bool.eq_false_iff.2 hkey) _ _
    · exact checkFiles_isRecord hmore f hf

theorem ofJson_isRecord {now : Moment} {j : Json} {c : CheckedImport}
    (h : CheckedImport.ofJson j root now = .ok c) : ∀ f ∈ c.files, f.IsRecord f.path := by
  rw [CheckedImport.ofJson] at h
  split at h
  · split at h
    · rw [ImportDocument.check] at h
      split at h
      · cases h
      · obtain ⟨files, hfiles, h⟩ := exists_of_bind_ok h
        cases h
        exact checkFiles_isRecord hfiles
    · cases h
  · cases h

theorem document_effect_sound {now : Moment} {m m' : Memory} (h : m.Sound root) {j : Json}
    (heffect : (Store.Update.document root j now).effect now m = some m') : m'.Sound root := by
  rw [Store.Update.document] at heffect
  cases hchecked : CheckedImport.ofJson j root now with
  | error e =>
    rw [hchecked] at heffect
    cases heffect
  | ok c =>
    rw [hchecked] at heffect
    cases heffect
    exact (h.merge (ofJson_isRecord hchecked) now).touch now

/-- Every operation keeps a memory sound. -/
theorem Operation.effect_sound {now : Moment} {m m' : Memory} (h : m.Sound root) {op : Operation}
    (heffect : op.effect root now m = some m') :
    m'.Sound root := by
  cases op with
  | file path content =>
    simp only [effect, Store.Update.file] at heffect
    split at heffect
    · cases heffect
    · rename_i hkey
      cases heffect
      refine ((h.putFiles fun f hf => ?_).logEvent _ _).touch now
      rw [mem_singleton.1 hf]
      exact record_isRecord (Bool.eq_false_iff.2 hkey) content now
  | editing p =>
    simp only [effect, Store.Update.editing] at heffect
    split at heffect
    · cases heffect
      exact (h.patch p now).touch now
    · cases heffect
  | event kind details =>
    cases heffect
    exact (h.logEvent m.events _).touch now
  | exchange action prompt response metadata =>
    cases heffect
    exact (h.logExchange _).touch now
  | clear =>
    cases heffect
    exact (h.clear now).touch now
  | document json => exact document_effect_sound h heffect
  | documentText text =>
    simp only [effect, Store.Update.documentText] at heffect
    split at heffect
    · exact document_effect_sound h heffect
    · cases heffect
  | flush => cases heffect

/-- Operations one after the other keep the memory of a store sound. -/
theorem Store.Follows.sound {s t : Store} (h : s.Follows t) (hsound : s.memory.Sound s.root) :
    t.memory.Sound t.root := by
  induction h with
  | same => exact hsound
  | step _ heffect ih => exact Operation.effect_sound ih heffect

/-! ## 4. Reading back -/

theorem exists_of_forall₂ {R : α → β → Prop} {xs : List α} {ys : List β}
    (h : Forall₂ R xs ys) {y : β} (hy : y ∈ ys) : ∃ x ∈ xs, R x y := by
  induction h with
  | nil => cases hy
  | cons hxy hrest ih =>
    rcases mem_cons.1 hy with rfl | hy
    · exact ⟨_, mem_cons_self, hxy⟩
    · obtain ⟨x, hx, hxy⟩ := ih hy
      exact ⟨x, mem_cons_of_mem _ hx, hxy⟩

/-- A memory of the same stock as a sound one is sound: only moments and free values differ. -/
theorem Memory.Sound.of_sameStock {m m' : Memory} (h : m.Sound root) (hsame : m.SameStock m') :
    m'.Sound root := by
  have hkeys : m'.files.entries.map (·.1) = m.files.entries.map (·.1) :=
    forall₂_eq_eq_eq ▸ forall₂_map_left_iff.2
      (forall₂_map_right_iff.2 (hsame.files.flip.imp fun _ _ he => he.1))
  refine ⟨hsame.schema.trans h.schema, ?_, fun e' he' => ?_, hsame.events ▸ h.events,
    hsame.exchanges ▸ h.exchanges, hsame.id.trans h.id, hsame.name.trans h.name,
    hsame.root.trans h.root⟩
  · have hascending := pairwise_map.2 h.ascending
    rw [← hkeys] at hascending
    exact pairwise_map.1 hascending
  · obtain ⟨e, he, hkey, hfile⟩ := exists_of_forall₂ hsame.files he'
    obtain ⟨hnamed, hplain, hpath, hsize, hfacts⟩ := h.records e he
    rw [hkey, hfile]
    exact ⟨hnamed, hplain, hpath, hsize, hfacts⟩

theorem Memory.Sound.reread {m m' : Memory} (h : m.Sound root) (hread : m.reread? = some m') :
    m'.Sound root :=
  h.of_sameStock (sameStock_of_reread? hread)

/-! ## 5. Views -/

/-- A view whose files are those of its index, where the open file has the facts that it shows. -/
structure View.Coherent (v : View) : Prop where
  files : v.files = v.index.entries.map (·.1)
  openFile : ∀ f, v.openFile = some f → v.index.lookup f.path = some f.facts

theorem Memory.lookup_facts (m : Memory) (key : String) :
    m.facts.lookup key = (m.file? key).map (·.facts) :=
  Table.lookup_map _ m.files key

theorem Memory.Sound.path_of_file? {m : Memory} (h : m.Sound root) {key : String} {f : SourceFile}
    (hfound : m.file? key = some f) : f.path = key ∧ key ≠ "" := by
  have hrecord := h.records (key, f) (Table.lookup_eq_some_iff.1 hfound)
  exact ⟨hrecord.path, hrecord.named⟩

/-- The open file of a sound memory is the file of its path, which is not empty. -/
theorem Memory.Sound.exists_of_openFile {m : Memory} (h : m.Sound root) {f : OpenFile}
    (hopen : m.openFile = some f) :
    f.path ≠ "" ∧ ∃ file, m.file? f.path = some file ∧ f.facts = file.facts := by
  simp only [openFile, bind_eq_bind, bind_eq_some_iff, Option.pure_def,
    some.injEq] at hopen
  obtain ⟨path, -, file, hfile, rfl⟩ := hopen
  obtain ⟨hpath, hnamed⟩ := h.path_of_file? hfile
  exact ⟨hpath ▸ hnamed, file, hpath ▸ hfile, rfl⟩

theorem Memory.Sound.view_coherent {m : Memory} (h : m.Sound root) :
    m.view.Coherent := by
  refine ⟨?_, fun f hopen => ?_⟩
  · change m.files.entries.map (·.1) = m.facts.entries.map (·.1)
    rw [facts, Table.map, List.map_map]
    rfl
  · obtain ⟨-, file, hfile, hfacts⟩ := h.exists_of_openFile hopen
    change m.facts.lookup f.path = some f.facts
    rw [lookup_facts, hfile, hfacts]
    rfl

/-- Sound memories that show one path, or the empty one for no file, have the same file open or
none. -/
theorem Memory.Sound.openPath_eq {root root' : List String} {m m' : Memory} (h : m.Sound root)
    (h' : m'.Sound root')
    (hsame : (m.view.openFile.map (·.path)).getD "" = (m'.view.openFile.map (·.path)).getD "") :
    m.view.openFile.map (·.path) = m'.view.openFile.map (·.path) := by
  cases hopen : m.view.openFile with
  | none =>
    cases hopen' : m'.view.openFile with
    | none => rfl
    | some file' =>
      rw [hopen, hopen'] at hsame
      exact absurd hsame.symm (h'.exists_of_openFile hopen').1
  | some file =>
    cases hopen' : m'.view.openFile with
    | none =>
      rw [hopen, hopen'] at hsame
      exact absurd hsame (h.exists_of_openFile hopen).1
    | some file' =>
      rw [hopen, hopen'] at hsame
      exact congrArg some hsame

end CodeAssist
