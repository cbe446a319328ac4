import CodeAssist.Proofs.Store.Reachable

/-!
The file that an editor has open.

Files are found by the key of the path that an editor sends. The path of the open file is kept as it
was sent, and the view looks it up as it is. So a file that is found is also the one that the view
shows exactly when its path was spelled as its key (`found_file_opened_iff`).
-/

namespace CodeAssist

open List

/-! ## 1. Paths spelled as keys -/

theorem mem_parts_of_belowRoot {root : List String} {p : Path} {name : String}
    (h : name ∈ belowRoot root p) : name ∈ p.parts := by
  unfold belowRoot at h
  split at h
  · exact mem_of_mem_drop h
  · exact h

/-- A path is its own key exactly if it has no backslash and none of its pieces is empty or made of
dots. -/
theorem fileKey_eq_self_iff {root : List String} {path : String} (hne : path ≠ "") :
    fileKey root path = path ↔ '\\' ∉ path.toList ∧ CleanKey path := by
  constructor
  · intro hself
    have hplain : '\\' ∉ path.toList := hself ▸ fileKey_plain root path
    refine ⟨hplain, ?_⟩
    generalize hnames : (belowRoot root (Path.ofText path)).filter (· != Path.parent) = names
    have hparts : ∀ name ∈ names, name ∈ (Path.ofText path).parts ∧ name ≠ Path.parent := by
      intro name hname
      rw [← hnames, mem_filter, bne_iff_ne] at hname
      exact ⟨mem_parts_of_belowRoot hname.1, hname.2⟩
    have hslashed : names.map slashed = names := by
      refine (map_congr_left fun name hname => ?_).trans (map_id names)
      have hpiece := (mem_filter.1 (hparts name hname).1).1
      exact slashed_eq_self fun hmem => hplain (mem_of_mem_pieces hpiece _ hmem).1
    -- The names join to the path, so they are its pieces.
    have hjoined : "/".intercalate names = path := by
      rw [← hslashed, ← hnames]
      exact hself
    have hsome : names ≠ [] := by
      rintro rfl
      exact hne hjoined.symm
    have hpieces := pieces_intercalate hsome fun name hname =>
      slash_notMem_of_mem_parts (hparts name hname).1
    rw [hjoined] at hpieces
    intro piece hpiece
    obtain ⟨hpart, hup⟩ := hparts piece (hpieces ▸ hpiece)
    exact proper_of_mem_parts hpart hup
  · rintro ⟨hplain, hclean⟩
    exact ((clean_iff hne hplain).1 hclean).2.2

/-! ## 2. The open file -/

/-- A file as the view shows it. -/
def SourceFile.opened (f : SourceFile) : OpenFile :=
  ⟨f.path, f.content, f.facts⟩

namespace Store

/-- A patch of the editing state is made whether or not it can be written. -/
theorem updateEditing_memory (s : Store) (p : EditPatch) (now : Moment) :
    (s.updateEditing p now).2.memory.files = s.memory.files ∧
      (s.updateEditing p now).2.memory.editing = p.apply s.memory.editing := by
  rw [updateEditing, update_eq, Update.editing, EditPatch.changes]
  by_cases hsame : p.apply s.memory.editing = s.memory.editing
  · simp [hsame, Update.effect, written]
  · simpa [hsame, Update.effect, written, persist_memory, Memory.touch] using
      s.memory.patch_frame p now

/-! ## 3. The main statement -/

/-- In every store that can be reached, if a path finds a file and becomes the path of the open
file, the view shows the file whose key is the path itself, if there is one. That is the file that
was found exactly if the path has no backslash and none of its pieces is empty or made of dots. -/
theorem found_file_opened_iff {root : List String} {s : Store} (h : Reachable root s)
    {path : String} {f : SourceFile} (hfound : s.file? path = some f) {p : EditPatch}
    (hpath : p.currentFile = some (some path)) (now : Moment) :
    (s.updateEditing p now).2.view.openFile = (s.memory.file? path).map SourceFile.opened ∧
    ((s.updateEditing p now).2.view.openFile = some ⟨f.path, f.content, f.facts⟩ ↔
      '\\' ∉ path.toList ∧ CleanKey path) := by
  obtain ⟨rfl, hsound, -⟩ := h.settled
  obtain ⟨hfiles, hediting⟩ := s.updateEditing_memory p now
  have hopen : (s.updateEditing p now).2.view.openFile =
      (s.memory.file? path).map SourceFile.opened := by
    simp only [view, Memory.view, Memory.openFile, Memory.file?, hfiles, hediting, EditPatch.apply,
      hpath, Option.getD_some, Option.bind_eq_bind, Option.bind_some, Option.pure_def]
    exact Option.map_eq_bind.symm
  obtain ⟨hkey, hnamed⟩ := hsound.path_of_file? hfound
  have hne : path ≠ "" := by
    rintro rfl
    exact hnamed rfl
  refine ⟨hopen, ?_⟩
  rw [hopen, ← fileKey_eq_self_iff hne]
  constructor
  · intro hshown
    obtain ⟨g, hg, hsame⟩ := Option.map_eq_some_iff.1 hshown
    rw [← hkey, ← (hsound.path_of_file? hg).1]
    exact (congrArg OpenFile.path hsame).symm
  · intro hself
    rw [file?, hself] at hfound
    rw [hfound]
    rfl

theorem reachable_filed : Reachable ["p"] filed :=
  (Reachable.new isNew_newcomer).turn _ ⟨rfl, rfl⟩

/-- With slashes the path is its own key. -/
theorem found_file_opened_iff_slashed :
    ∃ f, filed.file? "src/a.c" = some f ∧
      (filed.updateEditing { currentFile := some (some "src/a.c") } someday).2.view.openFile =
        some ⟨f.path, f.content, f.facts⟩ := by
  obtain ⟨f, hfound⟩ := Option.isSome_iff_exists.1
    (by decide +kernel : (filed.file? "src/a.c").isSome = true)
  exact ⟨f, hfound,
    (found_file_opened_iff reachable_filed hfound rfl someday).2.2 ⟨by decide, by decide⟩⟩

/-- Under the path that it was put in with, a file is found and not opened. -/
theorem found_file_not_opened :
    Reachable ["p"] filed ∧ (filed.file? "src\\a.c").isSome = true ∧
      (filed.updateEditing { currentFile := some (some "src\\a.c") } someday).2.view.openFile =
        none :=
  ⟨reachable_filed, by decide +kernel⟩

end Store

end CodeAssist
