import CodeAssist.Proofs.Memory.Sound
import CodeAssist.Proofs.Store.Persistence
import CodeAssist.Proofs.Text.Bytes

/-!
What holds of every store that can be reached.

A store is opened where no memory was kept, takes turns, and may be opened again on the documents
that it left. Its memory is sound throughout. What carries this over a reopening is that the memory
document, if it is understood at all, is understood as a sound memory: it was printed for one, and
reading it back changes moments and free values only.
-/

namespace CodeAssist

namespace Store

/-! ## 1. Reachable stores -/

/-- A store that was just opened where no memory was kept. -/
def IsNew (root : List String) (now : Moment) (s : Store) : Prop :=
  ∃ disk asked, (∀ text, disk.read (documentOf root memoryDocument) = .ok text →
    Memory.understood? text = none) ∧ openAt disk root asked now = .ok s

/-- A store of the project at a root that was new once, after turns and reopenings. -/
inductive Reachable (root : List String) : Store → Prop where
  | new {now : Moment} {s : Store} (h : IsNew root now s) : Reachable root s
  | turn {s : Store} (h : Reachable root s) (t : Turn) (hquiet : Undisturbed root s.disk t.disk) :
    Reachable root (s.turn t)
  | reopen {s s' : Store} {disk : Disk} {asked : String} {now : Moment} (h : Reachable root s)
    (hquiet : Undisturbed root s.disk disk) (hopen : openAt disk root asked now = .ok s') :
    Reachable root s'

/-- A store that was written without a failure has its memory on the disk. -/
theorem read_of_clean {w : Store} (h : w.persist.2.dirty = false) :
    w.persist.2.disk.read w.memoryPath = .ok w.memory.toJson.pretty := by
  rcases w.persist_cases with ⟨e, d, hpersist, -⟩ | ⟨d, hpersist, -, hmemory, -⟩
  · rw [hpersist] at h
    cases h
  · rw [hpersist]
    exact hmemory

/-- A memory document that is understood is opened as its memory, and the documents stay. -/
theorem openAt_understood {disk : Disk} {root : List String} {text : String} {m : Memory}
    (hread : disk.read (documentOf root memoryDocument) = .ok text)
    (htext : Memory.understood? text = some m) (asked : String) (now : Moment) :
    ∃ made, Undisturbed root disk made ∧
      openAt disk root asked now = .ok { root, memory := m, dirty := false, disk := made } := by
  have hfile : disk.find (root ++ memoryDirectory :: [memoryDocument]) = .ok (.file text) := by
    rw [← Disk.find_of_read hread, documentOf, directoryOf, List.append_assoc]
    rfl
  obtain ⟨below, hbelow⟩ := Disk.exists_makeDirectories hfile
  have hinside : below.find (directoryOf root ++ memoryDocument :: []) = .ok (.file text) :=
    (makeDirectories_root hbelow memoryDocument).trans (Disk.find_of_read hread)
  obtain ⟨made, hmade⟩ := Disk.exists_makeDirectories hinside
  have hkept (name : String) :=
    (makeDirectories_document hmade name).trans (makeDirectories_root hbelow name)
  have hmemory := (Disk.read_congr (hkept memoryDocument)).trans hread
  refine ⟨made, ⟨hkept _, hkept _⟩, ?_⟩
  rw [Memory.understood?] at htext
  rw [openAt, hbelow]
  dsimp only
  rw [hmade]
  dsimp only
  rw [load, hmemory]
  dsimp only
  rw [htext]
  rfl

/-! ## 2. Sound documents -/

/-- If the memory document on a disk is understood, then as a sound memory. -/
def SoundDocument (root : List String) (d : Disk) : Prop :=
  ∀ text m, d.read (documentOf root memoryDocument) = .ok text →
    Memory.understood? text = some m → m.Sound root

section Sound

variable {root : List String} {s : Store}

theorem SoundDocument.congr {d d' : Disk} (h : SoundDocument root d)
    (hread : d'.read (documentOf root memoryDocument) = d.read (documentOf root memoryDocument)) :
    SoundDocument root d' := by
  rw [SoundDocument, hread]
  exact h

/-- The text printed for a sound memory is understood as a sound memory. -/
theorem sound_of_understood_pretty {m m' : Memory} (h : m.Sound root)
    (hunderstood : Memory.understood? m.toJson.pretty = some m') : m'.Sound root := by
  have hread := (Option.filter_eq_some_iff.1 hunderstood).1
  rw [Memory.ofText?_pretty] at hread
  exact h.reread hread

/-- What an opened store is and leaves behind. -/
structure Settled (root : List String) (s : Store) : Prop where
  root_eq : s.root = root
  memory : s.memory.Sound root
  document : SoundDocument root s.disk

theorem Settled.persist (h : Settled root s) : Settled root s.persist.2 := by
  obtain ⟨rfl, hmemory, hdocument⟩ := h
  refine ⟨persist_root s, (persist_memory s).symm ▸ hmemory, ?_⟩
  rcases (persist_moment s).memoryDocument with hsame | hread
  · exact hdocument.congr (Disk.read_congr hsame)
  · intro text m htext hunderstood
    obtain rfl := Except.ok.inj (hread.symm.trans htext)
    exact sound_of_understood_pretty hmemory hunderstood

/-- A store that is opened on a sound document is settled. -/
theorem settled_openAt {disk : Disk} {asked : String} {now : Moment}
    (h : SoundDocument root disk) (hopen : openAt disk root asked now = .ok s) :
    Settled root s := by
  rw [openAt_eq] at hopen
  cases hlocated : located disk root asked with
  | error e =>
    rw [hlocated] at hopen
    cases hopen
  | ok found =>
    rw [hlocated] at hopen
    obtain ⟨_ | memory, d⟩ := found
    · cases hopen
      refine Settled.persist ⟨rfl, Memory.fresh_sound root now, fun text m hread hunderstood => ?_⟩
      rcases located_none hlocated with habsent | ⟨left, -, hleft, hnone⟩
      · cases habsent.symm.trans hread
      · obtain rfl := Except.ok.inj (hleft.symm.trans hread)
        rw [hnone] at hunderstood
        cases hunderstood
    · cases hopen
      obtain ⟨text, hfound, hkept, hunderstood⟩ := located_some hlocated
      exact ⟨rfl, h text memory hfound hunderstood, h.congr (hkept.trans hfound.symm)⟩

theorem Settled.turn (h : Settled root s) {t : Turn} (hquiet : Undisturbed root s.disk t.disk) :
    Settled root (s.turn t) := by
  have hfacing : Settled root (s.facing t) :=
    ⟨h.root_eq, h.memory, h.document.congr hquiet.read_memory⟩
  cases hattempt : s.attempt? t with
  | none =>
    rw [turn_of_no_attempt hattempt]
    exact hfacing
  | some w =>
    rw [turn_of_attempt hattempt]
    refine Settled.persist ?_
    rcases toWrite?_some hattempt with ⟨-, rfl⟩ | ⟨memory, heffect, rfl⟩
    · exact hfacing
    · rw [hfacing.root_eq] at heffect
      exact ⟨hfacing.root_eq, Operation.effect_sound hfacing.memory heffect, hfacing.document⟩

theorem Reachable.settled (h : Reachable root s) : Settled root s := by
  induction h with
  | new h =>
    obtain ⟨disk, asked, hnew, hopen⟩ := h
    refine settled_openAt (fun text m hread hunderstood => ?_) hopen
    rw [hnew text hread] at hunderstood
    cases hunderstood
  | turn _ t hquiet ih => exact ih.turn hquiet
  | reopen _ hquiet hopen ih => exact settled_openAt (ih.document.congr hquiet.read_memory) hopen

end Sound

/-! ## 3. The main statement -/

/-- In every store that can be reached the keys of the files ascend byte by byte, each file is what
its key and its content make it, the logs are within their limits, the project is that of its root,
and the view is coherent. -/
theorem reachable_memory_sound {root : List String} {s : Store} (h : Reachable root s) :
    s.memory.files.entries.Pairwise (fun a b => Text.encode a.1 < Text.encode b.1) ∧
    (∀ e ∈ s.memory.files.entries, e.1 ≠ "" ∧ e.2.path = e.1 ∧
      e.2.size = (Text.encode e.2.content).length ∧ e.2.facts = .ofText e.2.content) ∧
    s.memory.events.length ≤ 1000 ∧
    s.memory.exchanges.length ≤ 500 ∧
    s.memory.project.id = Digest.hex (Path.textOf root) ∧
    s.memory.project.name = root.getLast?.getD (Path.textOf root) ∧
    s.memory.project.root = Path.textOf root ∧
    s.view.files = s.view.index.entries.map (·.1) ∧
    ∀ f, s.view.openFile = some f → s.view.index.lookup f.path = some f.facts := by
  have hsound := h.settled.memory
  have hview := hsound.view_coherent
  refine ⟨hsound.ascending.imp Text.encode_lt_encode, fun e he => ?_, hsound.events,
    hsound.exchanges, hsound.id, hsound.name, hsound.root, hview.files, hview.openFile⟩
  obtain ⟨hnamed, -, hpath, hsize, hfacts⟩ := hsound.records e he
  exact ⟨hnamed, hpath, hsize.trans (Text.length_encode _).symm, hfacts⟩

theorem isNew_newcomer : IsNew ["p"] someday newcomer := by
  refine ⟨.empty, "/p", fun text hread => ?_, rfl⟩
  cases hread

/-- A file of an editor that writes backslashes. -/
def fileTurn : Turn :=
  { op := .file "src\\a.c" "int x;", now := someday, disk := newcomer.disk }

def filed : Store :=
  newcomer.turn fileTurn

theorem understood_filed :
    ∃ m, Memory.understood? filed.memory.toJson.pretty = some m ∧
      m.files.entries.map (·.1) = ["src/a.c"] := by
  have hread : (filed.memory.reread?.filter (·.schema ≤ schemaVersion)).map
      (fun m => m.files.entries.map (·.1)) = some ["src/a.c"] := by decide +kernel
  rw [← Memory.ofText?_pretty] at hread
  exact Option.map_eq_some_iff.1 hread

/-- A file is put in and the project is opened again. -/
theorem reachable_memory_sound_reopened :
    ∃ s, openAt filed.disk ["p"] "/p" someday = .ok s ∧ Reachable ["p"] s ∧
      s.memory.files.entries.map (·.1) = ["src/a.c"] ∧
      ∀ e ∈ s.memory.files.entries, e.2.facts = .ofText e.2.content := by
  have hfiled : Reachable ["p"] filed := (Reachable.new isNew_newcomer).turn _ ⟨rfl, rfl⟩
  have hread : filed.disk.read (documentOf ["p"] memoryDocument) =
      .ok filed.memory.toJson.pretty := by
    obtain ⟨w, hattempt⟩ : ∃ w, newcomer.attempt? fileTurn = some w :=
      Option.isSome_iff_exists.1 (by decide +kernel)
    have hroot : w.root = ["p"] := (attempt?_frame hattempt).1
    have hclean : filed.dirty = false := by decide +kernel
    rw [filed, turn_of_attempt hattempt] at hclean ⊢
    rw [persist_memory, ← hroot]
    exact read_of_clean hclean
  obtain ⟨m, hunderstood, hkeys⟩ := understood_filed
  obtain ⟨made, -, hopen⟩ := openAt_understood hread hunderstood "/p" someday
  have hreopened := hfiled.reopen ⟨rfl, rfl⟩ hopen
  obtain ⟨-, hrecords, -⟩ := reachable_memory_sound hreopened
  exact ⟨_, hopen, hreopened, hkeys, fun e he => (hrecords e he).2.2.2⟩

end Store

end CodeAssist
