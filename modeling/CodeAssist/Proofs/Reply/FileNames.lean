import CodeAssist.Proofs.Command.Generated
import CodeAssist.Proofs.Store.Merging

/-!
The names of generated files.

A reply names its files, and says perhaps which of them is the main one. A name is looked at as a
text with slashes in it; the store looks at it as a path. The two agree: a name that is accepted is
its own key under every root, so the memory keeps the file under the name that the reply gave it.
-/

namespace CodeAssist

open Text List Option String

variable {name : String}

/-! ## 1. Names -/

namespace Reply

/-- What is asked of the name of a generated file. -/
structure IsProperName (name : String) : Prop where
  named : name ≠ ""
  relative : (Path.ofText name).absolute = false
  noBackslash : '\\' ∉ name.toList
  noColon : ':' ∉ name.toList
  /-- No piece between its slashes is empty, a dot or two dots. -/
  clean : CleanKey name

theorem isProperName_of_isSafeName (h : isSafeName name = true) :
    IsProperName name := by
  have hclean := cleanKey_of_isSafeName h
  simp only [isSafeName, Bool.and_eq_true, Bool.not_eq_true', bne_iff_ne,
    List.isEmpty_eq_false_iff] at h
  obtain ⟨⟨⟨⟨hnamed, hhead⟩, hbackslash⟩, hcolon⟩, -⟩ := h
  have hnotMem : ∀ {c : Char}, name.toList.contains c = false → c ∉ name.toList := by
    intro c hc hmem
    rw [contains_iff_mem.2 hmem] at hc
    cases hc
  refine ⟨?_, beq_false_of_ne hhead, hnotMem hbackslash, hnotMem hcolon, hclean⟩
  rintro rfl
  exact hnamed rfl

theorem IsProperName.fileKey_eq (h : IsProperName name) (root : List String) :
    fileKey root name = name :=
  ((clean_iff h.named h.noBackslash).1 h.clean).2.2

/-! ## 2. Main files -/

/-- The name of the main file that a reply asks for. -/
def wantedMain (r : Reply) : Option String :=
  (embedded r.text).bind fun object => textMember? object "main_file"

/-- The main one of some files: the one that is asked for, or else the default, or else the first C
source. -/
inductive IsMainOf (names : List String) (wanted : Option String) : Option String → Prop
  | asked {name : String} (hwanted : wanted = some name) (hmem : name ∈ names) :
    IsMainOf names wanted (some name)
  | default (hunasked : ∀ name ∈ names, wanted ≠ some name) (hmem : "main.c" ∈ names) :
    IsMainOf names wanted (some "main.c")
  | source {stem : String} {before after : List String}
    (hunasked : ∀ name ∈ names, wanted ≠ some name) (hdefault : "main.c" ∉ names)
    (hnames : names = before ++ (stem ++ ".c") :: after)
    (hfirst : ∀ name ∈ before, ∀ stem, name ≠ stem ++ ".c") :
    IsMainOf names wanted (some (stem ++ ".c"))
  | absent (hunasked : ∀ name ∈ names, wanted ≠ some name)
    (hnone : ∀ name ∈ names, ∀ stem, name ≠ stem ++ ".c") :
    IsMainOf names wanted none

theorem IsMainOf.mem {names : List String} {wanted : Option String}
    (h : IsMainOf names wanted (some name)) : name ∈ names := by
  cases h with
  | asked _ hmem => exact hmem
  | default _ hmem => exact hmem
  | source _ _ hnames _ => simp [hnames]

theorem isSuffixOf_iff {suffix : String} :
    suffix.toList.isSuffixOf name.toList = true ↔ ∃ stem, name = stem ++ suffix := by
  rw [isSuffixOf_iff_suffix]
  constructor
  · rintro ⟨front, hfront⟩
    exact ⟨ofList front, by rw [← toList_inj, toList_append,
      toList_ofList, hfront]⟩
  · rintro ⟨stem, rfl⟩
    exact ⟨stem.toList, (toList_append ..).symm⟩

theorem any_name_iff {files : List GeneratedFile} :
    (files.any fun f => f.name == name) = true ↔ name ∈ files.map (·.name) := by
  simp only [List.any_eq_true, beq_iff_eq, List.mem_map]

/-- The main file is chosen as it is specified. -/
theorem chooseMain_isMainOf (files : List GeneratedFile) (wanted : Option String) :
    IsMainOf (files.map (·.name)) wanted (chooseMain files wanted) := by
  rw [chooseMain]
  split
  · rename_i name hwanted
    obtain ⟨hsome, hhas⟩ := filter_eq_some_iff.1 hwanted
    exact .asked hsome (any_name_iff.1 hhas)
  · rename_i hwanted
    have hunasked : ∀ name ∈ files.map (·.name), wanted ≠ some name := by
      rintro name hmem rfl
      rw [filter_some, if_pos (any_name_iff.2 hmem)] at hwanted
      cases hwanted
    split
    · rename_i hdefault
      exact .default hunasked (any_name_iff.1 hdefault)
    · rename_i hdefault
      cases hfound : files.find? fun f => ".c".toList.isSuffixOf f.name.toList with
      | none =>
        refine .absent hunasked fun name hmem stem hstem => ?_
        obtain ⟨f, hf, rfl⟩ := List.mem_map.1 hmem
        exact find?_eq_none.1 hfound f hf (isSuffixOf_iff.2 ⟨stem, hstem⟩)
      | some f =>
        obtain ⟨hsource, before, after, rfl, hbefore⟩ := find?_eq_some_iff_append.1 hfound
        obtain ⟨stem, hstem⟩ := isSuffixOf_iff.1 hsource
        rw [map_some, hstem]
        have hnames : (before ++ f :: after).map (·.name) =
            before.map (·.name) ++ (stem ++ ".c") :: after.map (·.name) := by
          simp [hstem]
        refine .source hunasked (fun hmem => hdefault (any_name_iff.2 hmem)) hnames ?_
        intro name hmem stem' hstem'
        obtain ⟨g, hg, rfl⟩ := List.mem_map.1 hmem
        have hother := hbefore g hg
        rw [isSuffixOf_iff.2 ⟨stem', hstem'⟩] at hother
        cases hother

/-- An accepted generation has files and its main file. -/
theorem generation_mainFile {r : Reply} {language : String} {g : Generation}
    (h : r.generation language = .ok g) :
    g.files ≠ [] ∧ IsMainOf (g.files.map (·.name)) r.wantedMain g.mainFile := by
  rw [generation] at h
  dsimp only at h
  split at h
  · rename_i object items hlisted
    obtain ⟨object', hobject, hitems⟩ := bind_eq_some_iff.1 hlisted
    obtain ⟨items', -, hpair⟩ := bind_eq_some_iff.1 hitems
    cases hpair
    split at h
    · cases h
    · rename_i hfiles
      cases h
      refine ⟨fun hnil => hfiles (isEmpty_iff.2 hnil), ?_⟩
      have hwanted : r.wantedMain = textMember? object "main_file" := by
        rw [wantedMain, hobject, bind_some]
      rw [hwanted]
      exact chooseMain_isMainOf _ _
  · split at h
    · cases h
    · rename_i hfiles
      cases h
      refine ⟨fun hnil => hfiles (isEmpty_iff.2 hnil), ?_⟩
      -- there is one file, the default one, so asking for it or not makes no difference
      cases hcode : (codeBlock r.text language).filter fun block => !isBlankText block with
      | none => simp [hcode] at hfiles
      | some code =>
        by_cases hwanted : r.wantedMain = some defaultMain
        · exact .asked hwanted mem_cons_self
        · exact .default (by simpa using hwanted) mem_cons_self

end Reply

/-! ## 3. Keeping -/

namespace Store

/-- A file whose path is its own key is kept under that key: it is accepted, and only the write may
fail. The other files stay. -/
theorem updateFile_own_key (s : Store) (hname : name ≠ "") (hkey : fileKey s.root name = name)
    (content : String) (now : Moment) :
    (s.updateFile name content now).1 =
      ((s.changed now (·.putFile (Memory.record name content now) now)).persist.1.map
        fun _ => Memory.record name content now) ∧
    ∀ key, (s.updateFile name content now).2.memory.file? key =
      if key = name then some (Memory.record name content now) else s.memory.file? key := by
  have hnamed : ¬ name.isEmpty = true := fun h => hname (isEmpty_iff.1 h)
  have hfile : Update.file s.root name content now =
      .change (·.putFile (Memory.record name content now) now)
        (fun _ => Memory.record name content now) id := by
    rw [Update.file, hkey]
    exact if_neg hnamed
  refine ⟨?_, fun key => ?_⟩
  · rw [updateFile, hfile, update]
    dsimp only
    split <;> (rename_i hresult; rw [hresult]; rfl)
  · rw [updateFile, update_eq, hfile]
    change (persist _).2.memory.file? key = _
    rw [persist_memory]
    exact (Table.lookup_sorted _ _).trans (Table.lookup_put key name _ _)

end Store

/-! ## 4. The main result -/

namespace Reply

/-- An accepted reply has files. Each name is proper and its own key under every root, so every
store accepts a file of that name, keeps it under the name whether or not it can write it, and keeps
its other files. The main file is the one that the reply asks for if it is there, or else the
default, or else the first C source; there is none only if none of these is there. -/
theorem generated_names_are_keys {r : Reply} {language : String} {g : Generation}
    (h : r.generation language = .ok g) :
    g.files ≠ [] ∧
    (∀ f ∈ g.files, IsProperName f.name ∧ (∀ root, fileKey root f.name = f.name) ∧
      ∀ (s : Store) (content : String) (now : Moment),
        (s.updateFile f.name content now).1 =
          ((s.changed now (·.putFile (Memory.record f.name content now) now)).persist.1.map
            fun _ => Memory.record f.name content now) ∧
        ∀ key, (s.updateFile f.name content now).2.memory.file? key =
          if key = f.name then some (Memory.record f.name content now) else s.memory.file? key) ∧
    (∀ name, g.mainFile = some name → ∃ f ∈ g.files, f.name = name) ∧
    IsMainOf (g.files.map (·.name)) r.wantedMain g.mainFile := by
  obtain ⟨hfiles, hmain⟩ := generation_mainFile h
  refine ⟨hfiles, fun f hf => ?_, fun name hname => ?_, hmain⟩
  · have hproper := isProperName_of_isSafeName (generation_safe h f hf)
    exact ⟨hproper, hproper.fileKey_eq, fun s content now =>
      s.updateFile_own_key hproper.named (hproper.fileKey_eq s.root) content now⟩
  · rw [hname] at hmain
    exact List.mem_map.1 hmain.mem

/-- A reply that asks for a main file it does not give. One name leads out of the project, one has a
backslash, one has blanks at its end. -/
def mixedReply : Reply where
  provider := "remote"
  text := "Here: \x7b\"main_file\": \"app.c\", \"files\": [" ++
    "\x7b\"name\": \"../up.c\", \"content\": \"int a;\"\x7d, " ++
    "\x7b\"name\": \"src\\\\b.c\", \"content\": \"int b;\"\x7d, " ++
    "\x7b\"name\": \"notes\", \"content\": \"\"\x7d, " ++
    "\x7b\"name\": \"src/c.c \\t\", \"content\": \"int c;\"\x7d]\x7d"
  suggestions := []
  raw := .null

theorem generated_names_are_keys_mixed :
    mixedReply.generation "c" =
      .ok ⟨[⟨"notes", "", ""⟩, ⟨"src/c.c", "int c;", ""⟩], some "src/c.c", "", "remote"⟩ ∧
    IsProperName "src/c.c" ∧ fileKey ["home", "p"] "src/c.c" = "src/c.c" ∧
    (∀ (s : Store) (now : Moment), (s.updateFile "src/c.c" "int c;" now).2.memory.file? "src/c.c" =
      some (Memory.record "src/c.c" "int c;" now)) ∧
    IsMainOf ["notes", "src/c.c"] (some "app.c") (some "src/c.c") := by
  -- read at once: the text of the reply is parsed for either
  have hread : (mixedReply.generation "c").toOption =
      some ⟨[⟨"notes", "", ""⟩, ⟨"src/c.c", "int c;", ""⟩], some "src/c.c", "", "remote"⟩ ∧
      mixedReply.wantedMain = some "app.c" := by
    decide +kernel
  have haccepted := Command.eq_ok_of_toOption hread.1
  obtain ⟨-, hnames, -, hmain⟩ := generated_names_are_keys haccepted
  obtain ⟨hproper, hkey, hkept⟩ := hnames ⟨"src/c.c", "int c;", ""⟩ (by simp)
  refine ⟨haccepted, hproper, hkey _, fun s now => ?_, hread.2 ▸ hmain⟩
  rw [(hkept s "int c;" now).2, if_pos rfl]

end Reply

end CodeAssist
