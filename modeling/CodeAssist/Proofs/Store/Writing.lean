import CodeAssist.Proofs.Disk.Frame
import CodeAssist.Store.Basic

/-!
Writing the two documents of a store.

A document is written beside its place and renamed. So at each moment of a write the document is as
it was before or holds the whole new text, and the other documents stay.
-/

namespace CodeAssist.Store

variable {d : Disk} {other : String}

/-! ## 1. One document -/

theorem ne_staging (name : String) : name ≠ name ++ ".tmp" := by
  intro h
  have hlength := congrArg String.length h
  rw [String.length_append] at hlength
  have : ".tmp".length = 4 := by decide
  omega

/-- The disk at some moment while a document is written. The text may reach the disk in parts, but
only beside its place. -/
inductive Midway (disk : Disk) (root : List String) (name text : String) : Disk → Prop where
  | before : Midway disk root name text disk
  | made {d : Disk} (hmade : disk.makeDirectories (directoryOf root) = .ok d) :
    Midway disk root name text d
  | staging {d d' : Disk} (part : String)
    (hmade : disk.makeDirectories (directoryOf root) = .ok d)
    (hpart : d.write (documentOf root (name ++ ".tmp")) part = .ok d') :
    Midway disk root name text d'
  | after : Midway disk root name text (writeWhole disk root name text).2

theorem makeDirectories_document {d' : Disk} {root : List String}
    (h : d.makeDirectories (directoryOf root) = .ok d') (name : String) :
    d'.find (documentOf root name) = d.find (documentOf root name) :=
  Disk.makeDirectories_find h name []

section Document

variable {disk : Disk} {root : List String} {name text : String}

/-- All that a write can do: it fails and leaves the document, or the document has the text. -/
theorem writeWhole_cases (disk : Disk) (root : List String) (name text : String) :
    (∃ e, (writeWhole disk root name text).1 = .error e ∧
      (writeWhole disk root name text).2.find (documentOf root name) =
        disk.find (documentOf root name)) ∨
    ((writeWhole disk root name text).1 = .ok () ∧
      (writeWhole disk root name text).2.read (documentOf root name) = .ok text) := by
  rw [writeWhole]
  cases hmade : disk.makeDirectories (directoryOf root) with
  | error e => exact .inl ⟨_, rfl, rfl⟩
  | ok made =>
    have hkept := makeDirectories_document hmade
    dsimp only
    cases hstaged : made.write (documentOf root (name ++ ".tmp")) text with
    | error e => exact .inl ⟨_, rfl, hkept name⟩
    | ok staged =>
      obtain ⟨hstaging, hothers⟩ := Disk.write_find hstaged
      dsimp only
      cases hmoved : staged.rename (documentOf root (name ++ ".tmp")) (documentOf root name) with
      | error e => exact .inl ⟨_, rfl, (hothers name (ne_staging name)).trans (hkept name)⟩
      | ok moved =>
        obtain ⟨found, hfound, htarget, -⟩ := Disk.rename_find (Ne.symm (ne_staging name)) hmoved
        have hsame : Except.ok found = .ok text := hfound.symm.trans (Disk.read_of_find hstaging)
        cases hsame
        exact .inr ⟨rfl, Disk.read_of_find htarget⟩

/-- Writing a document changes nothing below another entry of the directory. -/
theorem writeWhole_beside (disk : Disk) (root : List String) {name : String} (text : String)
    (hname : other ≠ name) (hstaging : other ≠ name ++ ".tmp") (rest : List String) :
    (writeWhole disk root name text).2.find (directoryOf root ++ other :: rest) =
      disk.find (directoryOf root ++ other :: rest) := by
  rw [writeWhole]
  cases hmade : disk.makeDirectories (directoryOf root) with
  | error e => rfl
  | ok made =>
    have hkept := Disk.makeDirectories_find hmade other rest
    dsimp only
    cases hstaged : made.write (documentOf root (name ++ ".tmp")) text with
    | error e => exact hkept
    | ok staged =>
      have hothers := Disk.write_beside hstaging hstaged rest
      dsimp only
      cases hmoved : staged.rename (documentOf root (name ++ ".tmp")) (documentOf root name) with
      | error e => exact hothers.trans hkept
      | ok moved =>
        exact (Disk.rename_beside hstaging hname hmoved rest).trans (hothers.trans hkept)

theorem writeWhole_other (disk : Disk) (root : List String) {name : String} (text : String)
    (hname : other ≠ name) (hstaging : other ≠ name ++ ".tmp") :
    (writeWhole disk root name text).2.find (documentOf root other) =
      disk.find (documentOf root other) :=
  writeWhole_beside disk root text hname hstaging []

/-- At each moment of a write the document is as before or holds the whole text. -/
theorem Midway.find (h : Midway disk root name text d) :
    d.find (documentOf root name) = disk.find (documentOf root name) ∨
      d.read (documentOf root name) = .ok text := by
  cases h with
  | before => exact .inl rfl
  | made hmade => exact .inl (makeDirectories_document hmade name)
  | staging part hmade hpart =>
    exact .inl (((Disk.write_find hpart).2 name (ne_staging name)).trans
      (makeDirectories_document hmade name))
  | after =>
    rcases writeWhole_cases disk root name text with ⟨-, -, hsame⟩ | ⟨-, hread⟩
    · exact .inl hsame
    · exact .inr hread

theorem Midway.find_beside (h : Midway disk root name text d) (hname : other ≠ name)
    (hstaging : other ≠ name ++ ".tmp") (rest : List String) :
    d.find (directoryOf root ++ other :: rest) = disk.find (directoryOf root ++ other :: rest) := by
  cases h with
  | before => rfl
  | made hmade => exact Disk.makeDirectories_find hmade other rest
  | staging part hmade hpart =>
    exact (Disk.write_beside hstaging hpart rest).trans
      (Disk.makeDirectories_find hmade other rest)
  | after => exact writeWhole_beside disk root text hname hstaging rest

theorem Midway.find_other (h : Midway disk root name text d) (hname : other ≠ name)
    (hstaging : other ≠ name ++ ".tmp") :
    d.find (documentOf root other) = disk.find (documentOf root other) :=
  h.find_beside hname hstaging []

end Document

/-! ## 2. Both documents -/

/-- The disk at some moment while a store is written. -/
inductive Persisting (s : Store) : Disk → Prop where
  | memory {d : Disk}
    (h : Midway s.disk s.root memoryDocument s.memory.toJson.pretty d) : Persisting s d
  | index {d : Disk}
    (h : Midway (writeWhole s.disk s.root memoryDocument s.memory.toJson.pretty).2 s.root
      indexDocument s.memory.index.toJson.pretty d)
    (hfirst : (writeWhole s.disk s.root memoryDocument s.memory.toJson.pretty).1 = .ok ()) :
    Persisting s d

/-- The path of the memory document of a store. -/
def memoryPath (s : Store) : List String :=
  documentOf s.root memoryDocument

/-- The path of the index document of a store. -/
def indexPath (s : Store) : List String :=
  documentOf s.root indexDocument

/-- A write fails and leaves the store dirty, or both documents are written. -/
theorem persist_cases (s : Store) :
    (∃ e d, s.persist = (.error e, { s with disk := d, dirty := true }) ∧ Persisting s d) ∨
    (∃ d, s.persist = (.ok (), { s with disk := d, dirty := false }) ∧ Persisting s d ∧
      d.read s.memoryPath = .ok s.memory.toJson.pretty ∧
      d.read s.indexPath = .ok s.memory.index.toJson.pretty) := by
  have hmemory := writeWhole_cases s.disk s.root memoryDocument s.memory.toJson.pretty
  have hafter : Persisting s (writeWhole s.disk s.root memoryDocument s.memory.toJson.pretty).2 :=
    .memory .after
  rw [persist]
  cases hfirst : writeWhole s.disk s.root memoryDocument s.memory.toJson.pretty with
  | mk result disk =>
    rw [hfirst] at hmemory hafter
    cases result with
    | error e => exact .inl ⟨e, disk, rfl, hafter⟩
    | ok done =>
      have hread : disk.read s.memoryPath = .ok s.memory.toJson.pretty := by
        rcases hmemory with ⟨e, he, -⟩ | ⟨-, hread⟩
        · cases he
        · exact hread
      have hindex := writeWhole_cases disk s.root indexDocument s.memory.index.toJson.pretty
      have hother := writeWhole_other disk s.root s.memory.index.toJson.pretty
        (by decide : memoryDocument ≠ indexDocument)
        (by decide : memoryDocument ≠ indexDocument ++ ".tmp")
      have hboth : Persisting s
          (writeWhole disk s.root indexDocument s.memory.index.toJson.pretty).2 := by
        refine .index ?_ (by rw [hfirst])
        rw [hfirst]
        exact .after
      dsimp only
      cases hsecond : writeWhole disk s.root indexDocument s.memory.index.toJson.pretty with
      | mk result disk' =>
        rw [hsecond] at hindex hother hboth
        cases result with
        | error e => exact .inl ⟨e, disk', rfl, hboth⟩
        | ok done =>
          refine .inr ⟨disk', rfl, hboth, (Disk.read_congr hother).trans hread, ?_⟩
          rcases hindex with ⟨e, he, -⟩ | ⟨-, hread'⟩
          · cases he
          · exact hread'

/-- At each moment of writing a store its memory document is as before or holds its memory. -/
theorem Persisting.memoryDocument {s : Store} (h : Persisting s d) :
    d.find s.memoryPath = s.disk.find s.memoryPath ∨
      d.read s.memoryPath = .ok s.memory.toJson.pretty := by
  cases h with
  | memory hmidway => exact hmidway.find
  | index hmidway hfirst =>
    have hother := hmidway.find_other (by decide : CodeAssist.memoryDocument ≠ indexDocument)
      (by decide : CodeAssist.memoryDocument ≠ indexDocument ++ ".tmp")
    rcases writeWhole_cases s.disk s.root CodeAssist.memoryDocument s.memory.toJson.pretty with
      ⟨e, he, -⟩ | ⟨-, hread⟩
    · rw [hfirst] at he
      cases he
    · exact .inr ((Disk.read_congr hother).trans hread)

/-- The entries of its directory that a store writes: its documents, and the places beside them. -/
def ownEntries : List String :=
  [memoryDocument, memoryDocument ++ ".tmp", indexDocument, indexDocument ++ ".tmp"]

/-- At each moment of writing a store all else in its directory is as before. -/
theorem Persisting.find_beside {s : Store} (h : Persisting s d) (hother : other ∉ ownEntries)
    (rest : List String) :
    d.find (directoryOf s.root ++ other :: rest) =
      s.disk.find (directoryOf s.root ++ other :: rest) := by
  simp only [ownEntries, List.mem_cons, List.not_mem_nil, or_false, not_or] at hother
  obtain ⟨hmemory, hmemoryStaging, hindex, hindexStaging⟩ := hother
  cases h with
  | memory hmidway => exact hmidway.find_beside hmemory hmemoryStaging rest
  | index hmidway _ =>
    rw [hmidway.find_beside hindex hindexStaging,
      writeWhole_beside _ _ _ hmemory hmemoryStaging]

theorem update_beside (s : Store) (u : Update ε α) (now : Moment) (hother : other ∉ ownEntries)
    (rest : List String) :
    (s.update u now).2.root = s.root ∧
      (s.update u now).2.disk.find (directoryOf s.root ++ other :: rest) =
        s.disk.find (directoryOf s.root ++ other :: rest) := by
  cases u with
  | idle answer => exact ⟨rfl, rfl⟩
  | change change answer failure =>
    rw [update]
    rcases persist_cases (s.changed now change) with ⟨e, d, hend, hpersisting⟩ |
      ⟨d, hend, hpersisting, -⟩
    all_goals
      rw [hend]
      exact ⟨rfl, hpersisting.find_beside hother rest⟩

end CodeAssist.Store
