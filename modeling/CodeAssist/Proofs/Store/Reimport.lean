import CodeAssist.Proofs.Memory.Exported
import CodeAssist.Proofs.Store.Reachable

/-!
Merging an exported memory into a new store.

A document is refused when one of its files has a path that starts at the top or goes up, and the
paths of an exported memory are its keys. A key is made from a path that may have backslashes in
it, and these become slashes, so not every key passes: an export comes back as it was exactly when
all keys are clean and all free values are read as themselves (`export_reproduced_iff`).
-/

namespace CodeAssist

open Json Json.Reader List Option String Memory

variable {c : CheckedImport} {n depth : Nat} {s : Store} {text : String}

/-! ## 1. Files -/

/-- A path of a document that is not refused at a root. -/
structure Admitted (root : List String) (path : String) : Prop where
  relative : (Path.ofText path).absolute = false
  inside : (Path.ofText path).goesUp = false
  named : fileKey root path ≠ ""

/-- A file of a document as it is kept at a root. -/
def keptFile (root : List String) (now : Moment) (e : String × ImportedFile) : SourceFile :=
  record (fileKey root e.1) e.2.content (e.2.lastModified.getD now)

/-- The files of a document pass if every path is admitted, and each is kept under its key. -/
theorem checkFiles_eq_ok_iff {root : List String} {now : Moment}
    {files : List (String × ImportedFile)} {checked : List SourceFile} :
    checkFiles root now files = .ok checked ↔
      (∀ e ∈ files, Admitted root e.1) ∧ checked = files.map (keptFile root now) := by
  induction files generalizing checked with
  | nil =>
    rw [checkFiles, map_nil]
    exact ⟨fun h => ⟨forall_mem_nil _, (Except.ok.inj h).symm⟩, fun h => h.2 ▸ rfl⟩
  | cons e rest ih =>
    obtain ⟨path, file⟩ := e
    rw [checkFiles, forall_mem_cons, map_cons]
    dsimp only
    split
    · rename_i hescapes
      constructor
      · intro h
        cases h
      · rintro ⟨⟨hfirst, -⟩, -⟩
        rw [hfirst.relative, hfirst.inside] at hescapes
        cases hescapes
    · rename_i hinside
      rw [Bool.or_eq_true, not_or, Bool.not_eq_true, Bool.not_eq_true] at hinside
      split
      · rename_i hempty
        constructor
        · intro h
          cases h
        · rintro ⟨⟨hfirst, -⟩, -⟩
          exact absurd (isEmpty_iff.1 hempty) hfirst.named
      · rename_i hnamed
        have hfirst : Admitted root path :=
          ⟨hinside.1, hinside.2, fun hempty => hnamed (isEmpty_iff.2 hempty)⟩
        constructor
        · intro h
          obtain ⟨more, hmore, h⟩ := exists_of_bind_ok h
          cases h
          obtain ⟨hrest, rfl⟩ := ih.1 hmore
          exact ⟨⟨hfirst, hrest⟩, rfl⟩
        · rintro ⟨⟨-, hrest⟩, rfl⟩
          rw [ih.2 ⟨hrest, rfl⟩]
          rfl

/-- Files with ascending keys that are put into a new memory are its files. -/
theorem putFiles_empty {files : Table SourceFile} (hascending : Ascending files.entries)
    (hpaths : ∀ e ∈ files.entries, e.2.path = e.1) :
    putFiles .empty (files.entries.map (·.2)) = files := by
  have hentries : (files.entries.map (·.2)).map (fun f => (f.path, f)) = files.entries := by
    rw [List.map_map]
    refine (map_congr_left fun e he => ?_).trans (map_id files.entries)
    exact Prod.ext (hpaths e he) rfl
  rw [putFiles, hentries, Table.putAll_entries]
  refine Table.ext (mergeSort_of_pairwise (hascending.imp fun hlt => ?_))
  exact decide_eq_true (String.not_lt.1 (String.lt_asymm hlt))

theorem keptFile_imported {root : List String} {now : Moment} {e : String × SourceFile}
    (hrecord : e.2.IsRecord e.1) (hkey : fileKey root e.1 = e.1) :
    keptFile root now (e.1, e.2.imported) = e.2 := by
  obtain ⟨key, path, content, size, moment, facts⟩ := e
  obtain ⟨-, -, hpath, hsize, hfacts⟩ := hrecord
  dsimp only at hpath hsize hfacts hkey
  rw [hpath, hsize, hfacts, keptFile, hkey]
  rfl

/-- The files of an export come back exactly when their keys are clean. -/
theorem files_reproduced_iff {root : List String} {m : Memory} (h : m.Sound root)
    (root' : List String) (now : Moment) :
    (∃ checked, checkFiles root' now (m.files.map SourceFile.imported).entries = .ok checked ∧
      putFiles .empty checked = m.files) ↔ ∀ e ∈ m.files.entries, CleanKey e.1 := by
  constructor
  · rintro ⟨checked, hchecked, hput⟩ e he
    obtain ⟨hadmitted, rfl⟩ := checkFiles_eq_ok_iff.1 hchecked
    -- What came back under this key was made from some key, and the key of a key is clean.
    rw [← hput] at he
    rcases mem_putFiles he with ⟨f, hf, rfl⟩ | hnil
    · obtain ⟨source, hsource, rfl⟩ := mem_map.1 hf
      have hpath := hadmitted source hsource
      obtain ⟨old, hold, rfl⟩ := mem_map.1 hsource
      exact fileKey_clean hpath.relative (h.records old hold).plain hpath.named
    · cases hnil
  · intro hclean
    have hkey : ∀ e ∈ m.files.entries, (Path.ofText e.1).absolute = false ∧
        (Path.ofText e.1).goesUp = false ∧ fileKey root' e.1 = e.1 := fun e he =>
      (clean_iff (h.records e he).named (h.records e he).plain).1 (hclean e he)
    refine ⟨m.files.entries.map (·.2), checkFiles_eq_ok_iff.2 ⟨fun e he => ?_, ?_⟩,
      putFiles_empty h.ascending fun e he => (h.records e he).path⟩
    · obtain ⟨old, hold, rfl⟩ := mem_map.1 he
      obtain ⟨hrelative, hinside, hsame⟩ := hkey old hold
      exact ⟨hrelative, hinside, fun hempty => (h.records old hold).named (hsame ▸ hempty)⟩
    · rw [Table.map, List.map_map]
      exact map_congr_left fun e he =>
        (keptFile_imported (h.records e he) (hkey e he).2.2).symm

/-! ## 2. Logs -/

theorem latest_concat (n : Nat) (xs : List α) (x : α) :
    latest (n + 1) (xs ++ [x]) = latest n xs ++ [x] := by
  rw [latest, latest, List.length_append, List.length_singleton, Nat.add_sub_add_right,
    drop_append_of_le_length (Nat.sub_le ..)]

theorem latest_of_length_le {xs : List α} (h : xs.length ≤ n) : latest n xs = xs := by
  rw [latest, Nat.sub_eq_zero_of_le h, drop_zero]

theorem forall₂_latest {R : α → β → Prop} {xs : List α} {ys : List β}
    (h : Forall₂ R xs ys) (n : Nat) : Forall₂ R (latest n xs) (latest n ys) := by
  rw [latest, latest, h.length_eq]
  exact forall₂_drop _ h

/-- The events of an export come back exactly when all details can be read and those that are not
pushed out by the new event are read as themselves. -/
theorem events_reproduced_iff (depth n : Nat) (events : List Event) (x : Event) :
    (∃ read, events.mapM (Event.reread? depth) = some read ∧
      latest (n + 1) (read ++ [x]) = latest (n + 1) (events ++ [x])) ↔
    (∀ e ∈ events, ∃ v, reread depth e.details = some v) ∧
      ∀ e ∈ latest n events, Kept depth e.details := by
  have hsome : (∃ read, events.mapM (Event.reread? depth) = some read) ↔
      ∀ e ∈ events, ∃ v, reread depth e.details = some v := by
    simp only [mapM_eq_some_iff]
    rw [exists_forall₂_iff]
    refine forall₂_congr fun e he => ?_
    rw [Event.reread?, Moment.reread?, Moment.ofText?_toText]
    cases reread depth e.details <;> simp
  have hself : (latest n events).mapM (Event.reread? depth) = some (latest n events) ↔
      ∀ e ∈ latest n events, Kept depth e.details := by
    rw [mapM_eq_self_iff]
    exact forall₂_congr fun e he => Event.reread?_eq_self_iff
  rw [← hsome, ← hself]
  simp only [latest_concat, List.append_left_inj]
  constructor
  · rintro ⟨read, hread, hsame⟩
    have hlatest := mapM_eq_some_iff.2 (forall₂_latest (mapM_eq_some_iff.1 hread) n)
    exact ⟨⟨read, hread⟩, hsame ▸ hlatest⟩
  · rintro ⟨⟨read, hread⟩, hkept⟩
    have hlatest := mapM_eq_some_iff.2 (forall₂_latest (mapM_eq_some_iff.1 hread) n)
    exact ⟨read, hread, some.inj (hlatest.symm.trans hkept)⟩

/-- The same exchange, with its metadata in any order. -/
structure Exchange.Same (e e' : Exchange) : Prop where
  action : e'.action = e.action
  prompt : e'.prompt = e.prompt
  response : e'.response = e.response
  metadata : e'.metadata.entries.Perm e.metadata.entries
  moment : e'.moment = e.moment

/-- Entries under the same distinct keys in the same order that are a permutation of each other. -/
theorem eq_of_perm_of_keys {xs ys : List (String × α)} (hkeys : xs.map (·.1) = ys.map (·.1))
    (hdistinct : (ys.map (·.1)).Nodup) (hperm : xs.Perm ys) : xs = ys := by
  induction ys generalizing xs with
  | nil => exact hperm.eq_nil
  | cons y rest ih =>
    cases xs with
    | nil => cases hkeys
    | cons x more =>
      rw [map_cons, map_cons, cons.injEq] at hkeys
      obtain ⟨hnew, hrest⟩ := nodup_cons.1 hdistinct
      have hhead : x = y := by
        rcases mem_cons.1 (hperm.mem_iff.1 mem_cons_self) with heq | hmem
        · exact heq
        · exact absurd (mem_map.2 ⟨x, hmem, hkeys.1⟩) hnew
      subst hhead
      rw [ih hkeys.2 hrest hperm.cons_inv]

theorem mapM_map_some (f : α → Option β) (g : β → γ) (xs : List α) :
    (xs.mapM fun x => (f x).map g) = (xs.mapM f).map (map g) := by
  induction xs with
  | nil => rfl
  | cons x rest ih =>
    rw [mapM_cons, mapM_cons, ih]
    cases f x <;> cases rest.mapM f <;> rfl

/-- Metadata comes back, in the order of its keys, exactly when its values do. -/
theorem metadata_reproduced_iff (t : Table Json) :
    (∃ fs, rereadFields depth t.entries = some fs ∧ (canonicalTable fs).entries.Perm t.entries) ↔
      ∀ e ∈ t.entries, Kept depth e.2 := by
  have hread : (t.entries.mapM fun e =>
      ((reread depth e.2).map canonical).map fun v => (e.1, v)) =
      (rereadFields depth t.entries).map (map canonicalField) := by
    rw [rereadFields_eq_mapM, ← mapM_map_some]
    refine mapM_congr fun e _ => ?_
    cases reread depth e.2 <;> rfl
  have hmoved : ∀ fs, rereadFields depth t.entries = some fs →
      (canonicalTable fs).entries.Perm (fs.map canonicalField) ∧
        (fs.map canonicalField).map (·.1) = t.entries.map (·.1) := by
    intro fs hfs
    rw [rereadFields_eq_mapM] at hfs
    have hsame := mapM_entries_keys hfs
    exact ⟨canonicalFields_perm fs (by rw [nil_append, hsame]; exact t.distinct),
      (map_canonicalField_keys fs).trans hsame⟩
  have hkept : (∀ e ∈ t.entries, Kept depth e.2) ↔
      (rereadFields depth t.entries).map (map canonicalField) = some t.entries := by
    rw [← hread, mapM_entries_iff (f := fun j => (reread depth j).map canonical), forall₂_same]
    exact forall₂_congr fun _ _ => (and_iff_right rfl).symm
  rw [hkept, map_eq_some_iff]
  refine exists_congr fun fs => and_congr_right fun hfs => ?_
  obtain ⟨hperm, hsame⟩ := hmoved fs hfs
  constructor
  · exact fun h => eq_of_perm_of_keys hsame t.distinct (hperm.symm.trans h)
  · exact fun h => h ▸ hperm

theorem exchange_reproduced_iff {e : Exchange} :
    (∃ e', e.retold? depth = some e' ∧ e.Same e') ↔ ∀ v ∈ e.metadata.entries, Kept depth v.2 := by
  rw [← metadata_reproduced_iff e.metadata, Exchange.retold?, Moment.reread?,
    Moment.ofText?_toText]
  constructor
  · rintro ⟨e', hread, hsame⟩
    simp only [bind_eq_bind, bind_some, bind_eq_some_iff, Option.pure_def,
      map_eq_some_iff, some.injEq] at hread
    obtain ⟨metadata, ⟨fs, hfs, rfl⟩, rfl⟩ := hread
    exact ⟨fs, hfs, hsame.metadata⟩
  · rintro ⟨fs, hfs, hperm⟩
    refine ⟨{ e with metadata := canonicalTable fs }, ?_, ⟨rfl, rfl, rfl, hperm, rfl⟩⟩
    rw [hfs]
    rfl

/-- The exchanges of an export come back exactly when all metadata does. -/
theorem exchanges_reproduced_iff (depth : Nat) {exchanges : List Exchange}
    (hlength : exchanges.length ≤ n) :
    (∃ read, exchanges.mapM (Exchange.retold? depth) = some read ∧
      Forall₂ Exchange.Same exchanges (latest n read)) ↔
    ∀ e ∈ exchanges, ∀ v ∈ e.metadata.entries, Kept depth v.2 := by
  have heach : (∀ e ∈ exchanges, ∃ e', e.retold? depth = some e' ∧ e.Same e') ↔
      ∀ e ∈ exchanges, ∀ v ∈ e.metadata.entries, Kept depth v.2 :=
    forall₂_congr fun e _ => exchange_reproduced_iff
  rw [← heach, ← exists_forall₂_iff]
  refine exists_congr fun read => ?_
  rw [mapM_eq_some_iff]
  constructor
  · rintro ⟨hread, hsame⟩
    rw [latest_of_length_le (hread.length_eq ▸ hlength)] at hsame
    exact hread.mp (fun _ _ h h' => ⟨h, h'⟩) hsame
  · intro h
    have hread := h.imp fun _ _ => And.left
    rw [latest_of_length_le (hread.length_eq ▸ hlength)]
    exact ⟨hread, h.imp fun _ _ => And.right⟩

/-! ## 3. Merging an export -/

def checkedText (root : List String) (text : String) (now : Moment) :
    Except ImportRefusal CheckedImport :=
  match Json.read text with
  | some j => CheckedImport.ofJson j root now
  | none => .error .undecodable

theorem importText_refused {now : Moment} {r : ImportRefusal}
    (h : checkedText s.root text now = .error r) :
    s.importText text now = (.error (.refused r), s) := by
  rw [Store.importText, Store.Update.documentText]
  rw [checkedText] at h
  cases hread : Json.read text with
  | none =>
    rw [hread] at h
    cases h
    rfl
  | some j =>
    rw [hread] at h
    dsimp only at h ⊢
    rw [Store.Update.document, h]
    rfl

/-- A document that passes is merged in, whether or not the memory can be written then. -/
theorem importText_checked {now : Moment} (h : checkedText s.root text now = .ok c) :
    (∀ r, (s.importText text now).1 ≠ .error (.refused r)) ∧
      (s.importText text now).2.memory = (s.memory.merge c now).touch now := by
  have hupdate : Store.Update.documentText s.root text now =
      .change (·.merge c now) (fun _ => c.summary) .store := by
    rw [Store.Update.documentText]
    rw [checkedText] at h
    cases hread : Json.read text with
    | none =>
      rw [hread] at h
      cases h
    | some j =>
      rw [hread] at h
      dsimp only at h ⊢
      rw [Store.Update.document, h]
  rw [Store.importText, hupdate, Store.update]
  have hmemory := Store.persist_memory (s.changed now (·.merge c now))
  cases hpersist : (s.changed now (·.merge c now)).persist with
  | mk result written =>
    rw [hpersist] at hmemory
    refine ⟨fun r h => ?_, ?_⟩
    · cases result <;> cases h
    · cases result <;> exact hmemory

/-- Accepting a document with some result is that it passes with that result. -/
theorem importText_iff {now : Moment} {P : Memory → Prop} :
    (∀ r, (s.importText text now).1 ≠ .error (.refused r)) ∧ P (s.importText text now).2.memory ↔
      ∃ c, checkedText s.root text now = .ok c ∧ P ((s.memory.merge c now).touch now) := by
  cases hchecked : checkedText s.root text now with
  | error r =>
    refine ⟨fun ⟨haccepted, _⟩ => ?_, nofun⟩
    exact absurd (congrArg Prod.fst (importText_refused hchecked)) (haccepted r)
  | ok c =>
    obtain ⟨haccepted, hmemory⟩ := importText_checked hchecked
    rw [hmemory]
    refine ⟨fun ⟨_, h⟩ => ⟨c, rfl, h⟩, fun ⟨c', hc, h⟩ => ?_⟩
    cases hc
    exact ⟨haccepted, h⟩

def checkDocument (root : List String) (now : Moment) :
    Option ImportDocument → Except ImportRefusal CheckedImport
  | some d => d.check root now
  | none => .error .undecodable

theorem ofJson_eq_checkDocument {j : Json} (h : j.isObject = true) (root : List String)
    (now : Moment) :
    CheckedImport.ofJson j root now = checkDocument root now (ImportDocument.ofJson? j) := by
  rw [CheckedImport.ofJson, if_pos h]
  cases ImportDocument.ofJson? j <;> rfl

section Export

variable {root root' : List String} {m : Memory} {now : Moment}

theorem checkedText_export (hsound : m.Sound root) (hfits : m.Fits) :
    checkedText root' m.toJson.pretty now = checkDocument root' now m.retold? := by
  have hread := read_export hfits hsound.ascending
  rw [Json.read, parse_pretty] at hread
  rw [← hread, checkedText, Json.read, parse_pretty]
  cases hreread : reread maxDepth m.toJson with
  | none => rfl
  | some j =>
    refine ofJson_eq_checkDocument ?_ root' now
    obtain ⟨fs, -, rfl⟩ := map_eq_some_iff.1 hreread
    rfl

theorem check_eq_ok_iff {d : ImportDocument} (hschema : d.schema = some schemaVersion) :
    d.check root now = .ok c ↔ checkFiles root now d.files.entries = .ok c.files ∧
      c.editing = d.editing ∧ d.events = c.events ∧ d.exchanges = c.exchanges := by
  have hcurrent : d.schema.filter (schemaVersion < ·) = none := by
    rw [hschema]
    rfl
  rw [ImportDocument.check, hcurrent]
  dsimp only
  constructor
  · intro h
    obtain ⟨files, hfiles, h⟩ := exists_of_bind_ok h
    cases h
    exact ⟨hfiles, rfl, rfl, rfl⟩
  · rintro ⟨hfiles, hediting, hevents, hexchanges⟩
    rw [hfiles, ← hediting, hevents, hexchanges]
    rfl

theorem checkedText_export_eq_ok_iff (hsound : m.Sound root) (hfits : m.Fits) :
    checkedText root' m.toJson.pretty now = .ok c ↔
      checkFiles root' now (m.files.map SourceFile.imported).entries = .ok c.files ∧
      c.editing = some m.editing ∧
      m.events.mapM (Event.reread? 124) = some c.events ∧
      m.exchanges.mapM (Exchange.retold? 123) = some c.exchanges := by
  rw [checkedText_export hsound hfits, retold?]
  cases hevents : m.events.mapM (Event.reread? 124) with
  | none => simp [checkDocument]
  | some events =>
    cases hexchanges : m.exchanges.mapM (Exchange.retold? 123) with
    | none => simp [checkDocument]
    | some exchanges =>
      simp only [some.injEq]
      exact check_eq_ok_iff (congrArg some hsound.schema)

theorem length_checkFiles {files : List SourceFile}
    (h : checkFiles root' now (m.files.map SourceFile.imported).entries = .ok files) :
    files.length = m.files.entries.length := by
  rw [(checkFiles_eq_ok_iff.1 h).2, List.length_map, Table.map, List.length_map]

theorem length_of_mapM {f : α → Option β} {xs : List α} {ys : List β}
    (h : xs.mapM f = some ys) : ys.length = xs.length :=
  (mapM_eq_some_iff.1 h).length_eq.symm

end Export

/-- The event that is logged when a memory is merged in. -/
def importedEvent (m : Memory) (now : Moment) : Event :=
  { kind := .imported
    details := .object [("files", .ofNat m.files.entries.length),
      ("history", .ofNat m.events.length), ("interactions", .ofNat m.exchanges.length)]
    moment := now }

/-- A memory that another one was reproduced in. -/
structure Memory.Reproduced (m m' : Memory) (now : Moment) : Prop where
  files : m'.files = m.files
  editing : m'.editing = m.editing
  events : m'.events = latest 1000 (m.events ++ [importedEvent m now])
  exchanges : Forall₂ Exchange.Same m.exchanges m'.exchanges

/-- What a memory is reproduced in when its document is merged into a new memory. -/
theorem reproduced_merge_iff {root : List String} {now start : Moment} {m : Memory}
    (hediting : c.editing = some m.editing) (hfiles : c.files.length = m.files.entries.length)
    (hevents : c.events.length = m.events.length)
    (hexchanges : c.exchanges.length = m.exchanges.length) :
    m.Reproduced (((Memory.fresh root start).merge c now).touch now) now ↔
      Memory.putFiles .empty c.files = m.files ∧
      latest 1000 (c.events ++ [importedEvent m now]) =
        latest 1000 (m.events ++ [importedEvent m now]) ∧
      Forall₂ Exchange.Same m.exchanges (latest 500 c.exchanges) := by
  have hmerged : ((Memory.fresh root start).merge c now).touch now =
      { (Memory.fresh root start).touch now with
        files := Memory.putFiles .empty c.files
        editing := m.editing
        events := latest 1000 (c.events ++ [importedEvent m now])
        exchanges := latest 500 c.exchanges } := by
    simp only [Memory.merge, Memory.logEvent, Memory.touch, Memory.fresh, nil_append, hediting,
      getD_some, importedEvent, hfiles, hevents, hexchanges, eventLimit, exchangeLimit]
  rw [hmerged]
  constructor
  · rintro ⟨hput, -, hlog, hsame⟩
    dsimp only at hput hlog hsame
    exact ⟨hput, hlog, hsame⟩
  · rintro ⟨hput, hlog, hsame⟩
    refine ⟨hput, rfl, ?_, ?_⟩
    · dsimp only
      exact hlog
    · dsimp only
      exact hsame

/-- A memory whose free values come back in an export. The oldest of a thousand events makes room
for the event that is logged, so it only has to be readable. -/
structure Memory.Portable (m : Memory) : Prop where
  readable : ∀ e ∈ m.events, ∃ v, reread 124 e.details = some v
  events : ∀ e ∈ latest 999 m.events, Json.Kept 124 e.details
  exchanges : ∀ e ∈ m.exchanges, ∀ v ∈ e.metadata.entries, Json.Kept 123 v.2

namespace Store

/-- A store that was just opened has the memory of a new project. -/
theorem IsNew.memory {root : List String} {now : Moment} (h : IsNew root now s) :
    s.root = root ∧ s.memory = .fresh root now := by
  obtain ⟨disk, asked, hnew, hopen⟩ := h
  rw [openAt_eq] at hopen
  cases hlocated : located disk root asked with
  | error e =>
    rw [hlocated] at hopen
    cases hopen
  | ok found =>
    rw [hlocated] at hopen
    obtain ⟨_ | m, d⟩ := found
    · cases hopen
      exact ⟨persist_root _, persist_memory _⟩
    · obtain ⟨text, hfound, -, hunderstood⟩ := located_some hlocated
      rw [hnew text hfound] at hunderstood
      cases hunderstood

/-! ## 4. The main statement -/

/-- The export of a reachable store is not refused by a new store, whichever its root, and its
memory is reproduced there, exactly when all its keys are clean and its free values come back. -/
theorem export_reproduced_iff {root root' : List String} {s t : Store} {start : Moment}
    (hreachable : Reachable root s) (hfits : s.memory.Fits) (hnew : IsNew root' start t)
    (now : Moment) :
    (∀ r, (t.importText s.exportText now).1 ≠ .error (.refused r)) ∧
      s.memory.Reproduced (t.importText s.exportText now).2.memory now ↔
    (∀ e ∈ s.memory.files.entries, CleanKey e.1) ∧ s.memory.Portable := by
  have hsound := hreachable.settled.memory
  obtain ⟨rfl, hfresh⟩ := hnew.memory
  rw [importText_iff (P := fun m' => s.memory.Reproduced m' now), hfresh]
  have hkeys := files_reproduced_iff hsound t.root now
  have hlog := events_reproduced_iff 124 999 s.memory.events (importedEvent s.memory now)
  have hsame := exchanges_reproduced_iff 123 hsound.exchanges
  constructor
  · rintro ⟨c, hchecked, hreproduced⟩
    obtain ⟨hfiles, hediting, hevents, hexchanges⟩ :=
      (checkedText_export_eq_ok_iff hsound hfits).1 hchecked
    obtain ⟨hput, hlatest, hforall⟩ := (reproduced_merge_iff hediting (length_checkFiles hfiles)
      (length_of_mapM hevents) (length_of_mapM hexchanges)).1 hreproduced
    obtain ⟨hreadable, hkept⟩ := hlog.1 ⟨c.events, hevents, hlatest⟩
    exact ⟨hkeys.1 ⟨c.files, hfiles, hput⟩, hreadable, hkept,
      hsame.1 ⟨c.exchanges, hexchanges, hforall⟩⟩
  · rintro ⟨hclean, hreadable, hkept, hmetadata⟩
    obtain ⟨files, hfiles, hput⟩ := hkeys.2 hclean
    obtain ⟨events, hevents, hlatest⟩ := hlog.2 ⟨hreadable, hkept⟩
    obtain ⟨exchanges, hexchanges, hforall⟩ := hsame.2 hmetadata
    refine ⟨⟨files, some s.memory.editing, events, exchanges⟩,
      (checkedText_export_eq_ok_iff hsound hfits).2 ⟨hfiles, rfl, hevents, hexchanges⟩, ?_⟩
    exact (reproduced_merge_iff rfl (length_checkFiles hfiles) (length_of_mapM hevents)
      (length_of_mapM hexchanges)).2 ⟨hput, hlatest, hforall⟩

/-- A file whose path has a step upwards behind a backslash. -/
def escapingTurn : Turn :=
  { op := .file "..\\x.c" "int x;", now := someday, disk := newcomer.disk }

def escaped : Store :=
  newcomer.turn escapingTurn

theorem reachable_escaped : Reachable ["p"] escaped :=
  (Reachable.new isNew_newcomer).turn escapingTurn ⟨rfl, rfl⟩

theorem fits_escaped : escaped.memory.Fits := by
  decide +kernel

/-- The export of that project is not reproduced in a new one. -/
theorem export_reproduced_iff_escaped :
    Reachable ["p"] escaped ∧ escaped.memory.Fits ∧ IsNew ["p"] someday newcomer ∧
      escaped.memory.files.entries.map (·.1) = ["../x.c"] ∧
      ¬ ((∀ r, (newcomer.importText escaped.exportText someday).1 ≠ .error (.refused r)) ∧
        escaped.memory.Reproduced (newcomer.importText escaped.exportText someday).2.memory
          someday) := by
  have hkeys : escaped.memory.files.entries.map (·.1) = ["../x.c"] := by decide +kernel
  refine ⟨reachable_escaped, fits_escaped, isNew_newcomer, hkeys, fun h => ?_⟩
  obtain ⟨hclean, -⟩ := (export_reproduced_iff reachable_escaped fits_escaped isNew_newcomer
    someday).1 h
  have hkey : "../x.c" ∈ escaped.memory.files.entries.map (·.1) := hkeys ▸ List.mem_singleton_self _
  obtain ⟨e, he, hpath⟩ := List.mem_map.1 hkey
  have hbad := hclean e he
  rw [hpath] at hbad
  exact absurd hbad (by decide +kernel)

def refusal? : Except ImportRefusal CheckedImport → Option ImportRefusal
  | .error r => some r
  | .ok _ => none

/-- It is refused. -/
theorem export_refused_escaped :
    newcomer.importText escaped.exportText someday =
      (.error (.refused (.escapingPath "../x.c")), newcomer) := by
  refine importText_refused ?_
  have hrefused : refusal? (checkedText newcomer.root escaped.exportText someday) =
      some (.escapingPath "../x.c") := by
    rw [exportText, checkedText_export reachable_escaped.settled.memory fits_escaped]
    decide +kernel
  cases hchecked : checkedText newcomer.root escaped.exportText someday with
  | ok c =>
    rw [hchecked] at hrefused
    cases hrefused
  | error r =>
    rw [hchecked] at hrefused
    exact congrArg _ (Option.some.inj hrefused)

end Store

end CodeAssist
