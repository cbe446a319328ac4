import CodeAssist.Command.Run
import CodeAssist.Proofs.Memory.Key
import CodeAssist.Proofs.Store.Writing

/-!
Generated files and the directory of the memory.

The name of a generated file comes from a reply. A name that is accepted is made of proper names
with slashes between them, so the file stands below the root of the project. It stands in the
directory of the memory exactly when its first name is that of the directory, and such names are
accepted (`generated_files_reach_memory_iff`). All other files are written beside that directory,
and leave it to the store.
-/

namespace CodeAssist

open Text List Option

variable {f : GeneratedFile} {g : Generation} {s t : Session}

/-! ## 1. Names -/

namespace Reply

theorem generatedFile?_safe {item : Json} (h : generatedFile? item = some f) :
    isSafeName f.name = true := by
  rw [generatedFile?] at h
  obtain ⟨name, -, h⟩ := bind_eq_some_iff.1 h
  obtain ⟨content, -, h⟩ := bind_eq_some_iff.1 h
  split at h
  · rename_i hsafe
    cases h
    exact hsafe
  · cases h

theorem isSafeName_defaultMain : isSafeName defaultMain = true := by
  decide

theorem generation_safe {r : Reply} {language : String} (h : r.generation language = .ok g) :
    ∀ f ∈ g.files, isSafeName f.name = true := by
  intro f hf
  rw [generation] at h
  dsimp only at h
  split at h
  · split at h
    · cases h
    · cases h
      obtain ⟨item, -, hitem⟩ := mem_filterMap.1 hf
      exact generatedFile?_safe hitem
  · split at h
    · cases h
    · cases h
      obtain ⟨code, -, rfl⟩ := map_eq_some_iff.1 (mem_toList.1 hf)
      exact isSafeName_defaultMain

end Reply

theorem cleanKey_of_isSafeName {name : String} (h : Reply.isSafeName name = true) :
    CleanKey name := by
  intro piece hpiece
  obtain ⟨part, hpart, rfl⟩ := mem_map.1 hpiece
  have hentry : Reply.isEntryName part = true := by
    simp only [Reply.isSafeName, Bool.and_eq_true, List.all_eq_true] at h
    exact h.2 part hpart
  simp only [Reply.isEntryName, Bool.and_eq_true, Bool.not_eq_true', bne_iff_ne,
    isEmpty_eq_false_iff] at hentry
  simp only [mem_cons, not_mem_nil, or_false, ← String.toList_inj, String.toList_ofList]
  exact fun hmem => hmem.elim hentry.1.1 fun hmem => hmem.elim hentry.1.2 hentry.2

theorem pieces_ne_nil (text : String) : pieces text ≠ [] := by
  rw [pieces, splitAt_eq_splitOn, ne_eq, map_eq_nil_iff]
  exact splitOn_ne_nil '/' text.toList

/-- A name without slashes is the first piece of a text exactly when the text is that name or goes
on with a slash. -/
theorem pieces_head_iff {name text : String} (hname : '/' ∉ name.toList) :
    (pieces text).head? = some name ↔ text = name ∨ ∃ rest, text = name ++ "/" ++ rest := by
  constructor
  · intro h
    obtain ⟨more, hmore⟩ := head?_eq_some_iff.1 h
    have htext := intercalate_pieces text
    rw [hmore] at htext
    cases more with
    | nil => exact .inl (by rw [← htext, String.intercalate_singleton])
    | cons next more => exact .inr ⟨_, by rw [← htext, String.intercalate_cons_cons]⟩
  · have hpieces : ∀ more, (∀ piece ∈ more, '/' ∉ piece.toList) →
        (pieces ("/".intercalate (name :: more))).head? = some name := by
      intro more hmore
      rw [pieces_intercalate (by simp) (forall_mem_cons.2 ⟨hname, hmore⟩)]
      rfl
    rintro (rfl | ⟨rest, rfl⟩)
    · have hsingle := hpieces [] (by simp)
      rwa [String.intercalate_singleton] at hsingle
    · have hrest := hpieces (pieces rest) fun piece hpiece hslash =>
        (mem_of_mem_pieces hpiece _ hslash).2 rfl
      obtain ⟨first, more, hsplit⟩ := exists_cons_of_ne_nil (pieces_ne_nil rest)
      rwa [hsplit, String.intercalate_cons_cons, ← hsplit, intercalate_pieces] at hrest

namespace Command

def placeOf (root : List String) (f : GeneratedFile) : List String :=
  root ++ (Path.ofText f.name).parts

theorem directory_prefix_iff {root parts : List String} :
    Store.directoryOf root <+: root ++ parts ↔ parts.head? = some memoryDirectory := by
  rw [Store.directoryOf, prefix_append_right_inj]
  cases parts with
  | nil => simp
  | cons first more => simp [eq_comm]

theorem reaches_memory_iff (h : Reply.isSafeName f.name = true) (root : List String) :
    Store.directoryOf root <+: placeOf root f ↔
      f.name = memoryDirectory ∨ ∃ rest, f.name = memoryDirectory ++ "/" ++ rest := by
  rw [placeOf, directory_prefix_iff, (cleanKey_of_isSafeName h).parts, pieces_head_iff (by decide)]

/-! ## 2. Writing -/

theorem bind_ok {x : Doing α} {k : α → Doing β} {a : α} (h : x s = (.ok a, t)) :
    (x >>= k) s = k a t := by
  simp only [bind, ExceptT.bind, ExceptT.mk, StateT.bind, h]
  rfl

theorem bind_error {x : Doing α} {k : α → Doing β} {e : Failure} (h : x s = (.error e, t)) :
    (x >>= k) s = (.error e, t) := by
  simp only [bind, ExceptT.bind, ExceptT.mk, StateT.bind, h]
  rfl

theorem course_session (failure : ε → Failure) (c : Course (Except ε α)) (s : Session) :
    (Doing.course failure c s).2 = (c.run s).2 := by
  rw [Doing.course]
  split <;> simp_all

theorem bind_pure_session (x : Doing α) (b : β) (s : Session) :
    ((x >>= fun _ => pure b) s).2 = (x s).2 := by
  cases h : x s with
  | mk result t =>
    cases result with
    | ok a => rw [bind_ok h]; rfl
    | error e => rw [bind_error h]

def withDisk (s : Session) (disk : Disk) : Session :=
  { s with store := { s.store with disk } }

theorem onStore_store (s : Session) (f : Store → ε × Store) :
    (s.onStore f).2.store = (f s.store).2 :=
  rfl

/-- What writing a generated file can come to: the disk refuses it, with its directories made or
not, or it is written and the store is updated. -/
theorem writeGenerated_cases (f : GeneratedFile) (now : Moment) (s : Session) :
    (∃ fault failure,
      s.store.disk.makeDirectories (placeOf s.store.root f).dropLast = .error fault ∧
      writeGenerated f now s = (.error failure, s)) ∨
    (∃ made fault failure,
      s.store.disk.makeDirectories (placeOf s.store.root f).dropLast = .ok made ∧
      made.write (placeOf s.store.root f) f.content = .error fault ∧
      writeGenerated f now s = (.error failure, withDisk s made)) ∨
    (∃ made disk, s.store.disk.makeDirectories (placeOf s.store.root f).dropLast = .ok made ∧
      made.write (placeOf s.store.root f) f.content = .ok disk ∧
      (writeGenerated f now s).2 =
        ((Session.updateFile f.name f.content now).run (withDisk s disk)).2) := by
  have hget : (get : Doing Session) s = (.ok s, s) := rfl
  have hset : ∀ t : Session, (set t : Doing PUnit) s = (.ok ⟨⟩, t) := fun _ => rfl
  rw [writeGenerated, bind_ok hget, ← placeOf]
  dsimp only
  cases hmade : s.store.disk.makeDirectories (placeOf s.store.root f).dropLast with
  | error fault => exact .inl ⟨fault, _, rfl, rfl⟩
  | ok made =>
    dsimp only
    cases hwrite : made.write (placeOf s.store.root f) f.content with
    | error fault =>
      refine .inr (.inl ⟨made, fault,
        faultAt "writing" (Path.textOf (placeOf s.store.root f)) fault, rfl, hwrite, ?_⟩)
      exact bind_ok (hset _)
    | ok disk =>
      refine .inr (.inr ⟨made, disk, rfl, hwrite, ?_⟩)
      dsimp only
      rw [bind_ok (hset _), bind_pure_session, course_session]
      rfl

/-- A file that the disk takes is on it, and the session goes on by updating the store. -/
theorem writeGenerated_taken (hsafe : Reply.isSafeName f.name = true) {made disk : Disk}
    (hmade : s.store.disk.makeDirectories (placeOf s.store.root f).dropLast = .ok made)
    (hwrite : made.write (placeOf s.store.root f) f.content = .ok disk) (now : Moment) :
    disk.find (placeOf s.store.root f) = .ok (.file f.content) ∧
      (writeGenerated f now s).2 =
        ((Session.updateFile f.name f.content now).run (withDisk s disk)).2 := by
  constructor
  · have hparts : (Path.ofText f.name).parts ≠ [] := by
      rw [(cleanKey_of_isSafeName hsafe).parts]
      exact pieces_ne_nil f.name
    have hplace : placeOf s.store.root f ≠ [] := by simp [placeOf, hparts]
    rw [← dropLast_concat_getLast hplace] at hwrite ⊢
    exact (Disk.write_find hwrite).1
  · rcases writeGenerated_cases f now s with ⟨_, _, hrefused, -⟩ |
      ⟨_, _, _, hmade', hrefused, -⟩ | ⟨_, _, hmade', hwrite', hend⟩
    · rw [hmade] at hrefused
      cases hrefused
    · rw [hmade] at hmade'
      cases hmade'
      rw [hwrite] at hrefused
      cases hrefused
    · rw [hmade] at hmade'
      cases hmade'
      rw [hwrite] at hwrite'
      cases hwrite'
      exact hend

/-! ## 3. The store as the only writer -/

/-- From one session to another the store was the only writer of its directory: things were written
beside the directory, and the store was updated. -/
inductive SoleWriter (s : Session) : Session → Prop
  | refl : SoleWriter s s
  | beside {t : Session} {disk : Disk} (h : SoleWriter s t)
      (hsame : ∀ rest, disk.find (Store.directoryOf t.store.root ++ rest) =
        t.store.disk.find (Store.directoryOf t.store.root ++ rest)) :
      SoleWriter s (withDisk t disk)
  | update {t : Session} (h : SoleWriter s t) (path content : String) (now : Moment) :
      SoleWriter s ((Session.updateFile path content now).run t).2

theorem SoleWriter.trans {u : Session} (h : SoleWriter s t) (h' : SoleWriter t u) :
    SoleWriter s u := by
  induction h' with
  | refl => exact h
  | beside _ hsame ih => exact ih.beside hsame
  | update _ path content now ih => exact ih.update path content now

theorem SoleWriter.find_beside (h : SoleWriter s t) {entry : String}
    (hentry : entry ∉ Store.ownEntries) (rest : List String) :
    t.store.root = s.store.root ∧
      t.store.disk.find (Store.directoryOf s.store.root ++ entry :: rest) =
        s.store.disk.find (Store.directoryOf s.store.root ++ entry :: rest) := by
  induction h with
  | refl => exact ⟨rfl, rfl⟩
  | beside _ hsame ih =>
    obtain ⟨hroot, hfind⟩ := ih
    rw [hroot] at hsame
    exact ⟨hroot, (hsame (entry :: rest)).trans hfind⟩
  | @update u _ path content now ih =>
    obtain ⟨hroot, hfind⟩ := ih
    have hkept := Store.update_beside u.store (.file u.store.root path content now) now hentry rest
    rw [hroot] at hkept
    rw [Session.updateFile, Course.run_update, onStore_store, hroot]
    exact ⟨hkept.1, hkept.2.trans hfind⟩

/-- A file whose first name is another than that of the directory is written beside it. -/
theorem writeGenerated_soleWriter (hsafe : Reply.isSafeName f.name = true)
    (h : ¬ Store.directoryOf s.store.root <+: placeOf s.store.root f) (now : Moment) :
    SoleWriter s (writeGenerated f now s).2 := by
  obtain ⟨first, more, hparts⟩ : ∃ first more, (Path.ofText f.name).parts = first :: more := by
    rw [(cleanKey_of_isSafeName hsafe).parts]
    exact exists_cons_of_ne_nil (pieces_ne_nil f.name)
  have hfirst : memoryDirectory ≠ first := by
    rintro rfl
    rw [placeOf, directory_prefix_iff, hparts] at h
    exact h rfl
  have hplace : placeOf s.store.root f = s.store.root ++ first :: more := by rw [placeOf, hparts]
  have hbelow : ∀ rest, Store.directoryOf s.store.root ++ rest =
      s.store.root ++ memoryDirectory :: rest := by simp [Store.directoryOf]
  have hmade : ∀ made, s.store.disk.makeDirectories (placeOf s.store.root f).dropLast = .ok made →
      ∀ rest, made.find (Store.directoryOf s.store.root ++ rest) =
        s.store.disk.find (Store.directoryOf s.store.root ++ rest) := by
    intro made hmade rest
    have hhead : (first :: more).dropLast.head? ≠ some memoryDirectory := by
      cases more with
      | nil => simp
      | cons next more => simpa using hfirst.symm
    rw [hplace, dropLast_append_of_ne_nil (cons_ne_nil first more)] at hmade
    rw [hbelow, Disk.makeDirectories_beside hhead hmade]
  rcases writeGenerated_cases f now s with
    ⟨_, _, -, hend⟩ | ⟨made, _, _, hmake, -, hend⟩ | ⟨made, disk, hmake, hwrite, hend⟩
  · rw [hend]
    exact .refl
  · rw [hend]
    exact SoleWriter.refl.beside (hmade made hmake)
  · rw [hend]
    refine (SoleWriter.refl.beside fun rest => ?_).update _ _ now
    rw [hplace] at hwrite
    rw [← hmade made hmake, hbelow, Disk.write_beside hfirst hwrite]

/-- Files that stay out of the memory directory leave the documents to the store. -/
theorem writeAll_soleWriter {files : List GeneratedFile}
    (hsafe : ∀ f ∈ files, Reply.isSafeName f.name = true)
    (h : ∀ f ∈ files, ∀ root, ¬ Store.directoryOf root <+: placeOf root f) (now : Moment)
    (s : Session) :
    SoleWriter s ((do for f in files do writeGenerated f now : Doing Unit) s).2 := by
  induction files generalizing s with
  | nil => exact .refl
  | cons f files ih =>
    obtain ⟨hfirst, hmore⟩ := forall_mem_cons.1 hsafe
    obtain ⟨hbeside, hothers⟩ := forall_mem_cons.1 h
    have hwritten := writeGenerated_soleWriter hfirst (hbeside s.store.root) now
    simp only [forIn_cons, bind_pure_session] at ih ⊢
    cases hstep : writeGenerated f now s with
    | mk result t =>
      rw [hstep] at hwritten
      cases result with
      | ok =>
        have hyield : (do writeGenerated f now; pure (ForInStep.yield PUnit.unit) : Doing _) s =
            (.ok (.yield ⟨⟩), t) := bind_ok hstep
        rw [bind_ok hyield]
        exact hwritten.trans (ih hmore hothers t)
      | error e =>
        rw [bind_error (bind_error hstep)]
        exact hwritten

/-- The files of an answer are written in the session that the request leaves. -/
theorem perform_generate {directory : List String} {prompt : String} {now : Moment}
    (h : assist (.generation prompt) now s = (.ok (.generation g), t)) :
    (perform directory now (.generate prompt true) s).2 =
      ((do for f in g.files do writeGenerated f now : Doing Unit) t).2 := by
  rw [perform, bind_ok h, if_pos rfl]
  simp only [bind_pure_session]

/-! ## 4. The main statement -/

/-- A file of a reply is written into the directory of the memory exactly when its name is that of
the directory, or begins with it and a slash. If no file of a reply is, the store stays the only
writer of its directory while the command writes them, one after the other and as far as the disk
takes them. A file that the disk takes stands at its place before the store is updated; if this is
in the directory it stays there, unless its entry is one that the store writes. -/
theorem generated_files_reach_memory_iff {r : Reply} {language : String} {g : Generation}
    (h : r.generation language = .ok g) :
    (∀ f ∈ g.files, ∀ root : List String, Store.directoryOf root <+: placeOf root f ↔
      f.name = ".quill" ∨ ∃ rest, f.name = ".quill/" ++ rest) ∧
    (∀ (directory : List String) (prompt : String) (now : Moment) (s t : Session),
      assist (.generation prompt) now s = (.ok (.generation g), t) →
      (∀ f ∈ g.files, ¬ Store.directoryOf t.store.root <+: placeOf t.store.root f) →
      SoleWriter t (perform directory now (.generate prompt true) s).2) ∧
    (∀ f ∈ g.files, ∀ (s : Session) (now : Moment) (made disk : Disk),
      s.store.disk.makeDirectories (placeOf s.store.root f).dropLast = .ok made →
      made.write (placeOf s.store.root f) f.content = .ok disk →
      disk.find (placeOf s.store.root f) = .ok (.file f.content) ∧
      (writeGenerated f now s).2 =
        ((Session.updateFile f.name f.content now).run (withDisk s disk)).2 ∧
      ∀ entry rest, placeOf s.store.root f = Store.directoryOf s.store.root ++ entry :: rest →
        entry ∉ Store.ownEntries →
        (writeGenerated f now s).2.store.disk.find (placeOf s.store.root f) =
          .ok (.file f.content)) := by
  have hsafe := Reply.generation_safe h
  refine ⟨?_, ?_, ?_⟩
  · intro f hf root
    have hslash : memoryDirectory ++ "/" = ".quill/" := by decide
    rw [reaches_memory_iff (hsafe f hf) root, hslash, memoryDirectory]
  · intro directory prompt now s t hanswer houtside
    rw [perform_generate hanswer]
    refine writeAll_soleWriter hsafe (fun f hf root hinside => ?_) now t
    exact houtside f hf ((reaches_memory_iff (hsafe f hf) _).2
      ((reaches_memory_iff (hsafe f hf) root).1 hinside))
  · intro f hf s now made disk hmade hwrite
    obtain ⟨hfound, hend⟩ := writeGenerated_taken (hsafe f hf) hmade hwrite now
    refine ⟨hfound, hend, fun entry rest hplace hentry => ?_⟩
    obtain ⟨-, hkept⟩ := Store.update_beside (withDisk s disk).store
      (.file s.store.root f.name f.content now) now hentry rest
    rw [hplace] at hfound ⊢
    rw [hend, Session.updateFile, Course.run_update, onStore_store]
    exact hkept.trans hfound

theorem eq_ok_of_toOption {x : Except ε α} {a : α} (h : x.toOption = some a) : x = .ok a := by
  cases x with
  | error e => cases h
  | ok b => exact congrArg Except.ok (some.inj h)

def plainReply : Reply where
  provider := "remote"
  text := "\x7b\"files\": [\x7b\"name\": \"main.c\", \"content\": \"int x;\"\x7d]\x7d"
  suggestions := []
  raw := .null

/-- A reply that gives a second file, in the directory of the memory. -/
def plantingReply : Reply where
  provider := "remote"
  text := "\x7b\"files\": [\x7b\"name\": \"main.c\", \"content\": \"int x;\"\x7d, " ++
    "\x7b\"name\": \".quill/notes\", \"content\": \"mine\"\x7d]\x7d"
  suggestions := []
  raw := .null

def plantedFile : GeneratedFile :=
  ⟨".quill/notes", "mine", ""⟩

theorem generation_plantingReply : plantingReply.generation "c" =
    .ok ⟨[⟨"main.c", "int x;", ""⟩, plantedFile], some "main.c", "", "remote"⟩ :=
  eq_ok_of_toOption (by decide +kernel)

theorem placeOf_plantedFile (root : List String) :
    placeOf root plantedFile = Store.directoryOf root ++ ["notes"] := by
  have hparts : (Path.ofText plantedFile.name).parts = [".quill", "notes"] := by decide +kernel
  rw [placeOf, hparts, Store.directoryOf, append_assoc]
  rfl

def generated? : Answer → Option Generation
  | .completion _ => none
  | .refactoring _ => none
  | .diagnosis _ => none
  | .generation g => some g
  | .review _ => none

theorem eq_of_generated? {done : Except Failure Answer × Session}
    (h : done.1.toOption.bind generated? = some g) : done = (.ok (.generation g), done.2) := by
  obtain ⟨x, s⟩ := done
  cases x with
  | error e => cases h
  | ok answer =>
    cases answer with
    | generation value =>
      obtain rfl : value = g := some.inj h
      rfl
    | _ => cases h

/-- A new session on an empty disk with one provider, which gives a reply each time. -/
def answering (reply : Reply) : Session :=
  .start ⟨[], .fresh [] .epoch, false, ⟨.directory [], []⟩⟩
    [⟨"remote", false, fun _ _ => .answers 0 (.ok reply), .silent⟩] (.scripted [] []) .standard {}
    fun _ => "1"

theorem generated_files_reach_memory_iff_notes :
    SoleWriter (assist (.generation "x") .epoch (answering plainReply)).2
      (perform [] .epoch (.generate "x" true) (answering plainReply)).2 ∧
    Store.directoryOf ["home"] <+: placeOf ["home"] plantedFile ∧
    (writeGenerated plantedFile .epoch (answering plantingReply)).2.store.disk.find
      (placeOf [] plantedFile) = .ok (.file "mine") := by
  have hplain : plainReply.generation "c" =
      .ok ⟨[⟨"main.c", "int x;", ""⟩], some "main.c", "", "remote"⟩ :=
    eq_ok_of_toOption (by decide +kernel)
  have hanswer : (assist (.generation "x") .epoch (answering plainReply)).1.toOption.bind
      generated? = some ⟨[⟨"main.c", "int x;", ""⟩], some "main.c", "", "remote"⟩ := by
    decide +kernel
  obtain ⟨houtside, hcommand, -⟩ := generated_files_reach_memory_iff hplain
  obtain ⟨hreaches, -, hwritten⟩ := generated_files_reach_memory_iff generation_plantingReply
  refine ⟨?_, ?_, ?_⟩
  · refine hcommand [] "x" .epoch _ _ (eq_of_generated? hanswer) fun f hf hinside => ?_
    obtain rfl := List.mem_singleton.1 hf
    rcases (houtside _ hf _).1 hinside with hname | ⟨rest, hname⟩
    · exact absurd hname (by decide)
    · exact absurd (congrArg (·.toList.head?) hname) (by simp)
  · exact (hreaches plantedFile (by simp) _).2 (.inr ⟨"notes", by decide⟩)
  · have hplace := placeOf_plantedFile []
    have hmade : (Disk.mk (.directory []) []).makeDirectories (placeOf [] plantedFile).dropLast =
        .ok ⟨.directory [(".quill", .directory [])], []⟩ := by
      rw [hplace]
      rfl
    have hwrite : (Disk.mk (.directory [(".quill", .directory [])]) []).write
        (placeOf [] plantedFile) "mine" =
          .ok ⟨.directory [(".quill", .directory [("notes", .file "mine")])], []⟩ := by
      rw [hplace]
      rfl
    obtain ⟨-, -, hstays⟩ := hwritten plantedFile (by simp) (answering plantingReply) .epoch
      _ _ hmade hwrite
    exact hstays "notes" [] hplace (by decide)

/-- So the store is not the only writer of its directory: the reply is accepted, and the command
puts its file there. -/
theorem generation_plants_in_memory :
    (∃ g, plantingReply.generation "c" = .ok g ∧ plantedFile ∈ g.files) ∧
    (∀ root, Store.directoryOf root <+: placeOf root plantedFile) ∧
    ((perform [] .epoch (.generate "x" true) (answering plantingReply)).2.store.disk.read
      (placeOf [] plantedFile)).toOption = some "mine" ∧
    ¬ SoleWriter (assist (.generation "x") .epoch (answering plantingReply)).2
      (perform [] .epoch (.generate "x" true) (answering plantingReply)).2 := by
  have hafter : ((perform [] .epoch (.generate "x" true)
      (answering plantingReply)).2.store.disk.read (placeOf [] plantedFile)).toOption =
        some "mine" := by decide +kernel
  have hbefore : (assist (.generation "x") .epoch (answering plantingReply)).2.store.root = [] ∧
      ((assist (.generation "x") .epoch (answering plantingReply)).2.store.disk.read
        (placeOf [] plantedFile)).toOption = none := by decide +kernel
  refine ⟨⟨_, generation_plantingReply, by simp⟩, fun root => ?_, hafter, fun hsole => ?_⟩
  · exact ⟨["notes"], (placeOf_plantedFile root).symm⟩
  · obtain ⟨-, hsame⟩ := hsole.find_beside (by decide : "notes" ∉ Store.ownEntries) []
    rw [hbefore.1, ← placeOf_plantedFile] at hsame
    rw [Disk.read_congr hsame, hbefore.2] at hafter
    cases hafter

end Command

end CodeAssist
