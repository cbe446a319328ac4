import CodeAssist.Proofs.Store.Reimport

/-!
What merging a document into a store does.

A document is refused as a whole and nothing changes, or it is merged as a whole. Then the files of
its paths take the place of those of the same key; where several paths come to one key, the greatest
path counts. The memory is changed before it is written, so it has the document also when the write
fails (`import_refused_or_merged`).
-/

namespace CodeAssist

open Json Json.Reader List Option Memory ImportDocument

variable {r : ImportRefusal} {v j : Json} {fields : List (String × Json)} {key name : String}

/-! ## 1. Documents -/

section Documents

theorem ascending_of_canonical (h : (object fields).canonical = .object fields) :
    Ascending fields := by
  rw [canonical, object.injEq] at h
  exact h ▸ canonicalFields_ascending fields .nil

theorem canonical_of_lookup (hfixed : ∀ f ∈ fields, canonicalField f = f)
    (h : Json.lookup key fields = some v) :
    v.canonical = v := by
  induction fields with
  | nil => cases h
  | cons f rest ih =>
    obtain ⟨hfirst, hrest⟩ := forall_mem_cons.1 hfixed
    rw [Json.lookup] at h
    split at h
    · cases h
      exact congrArg Prod.snd hfirst
    · exact ih hrest h

theorem canonical_of_get? (hj : j.canonical = j) (h : j.get? key = some v) : v.canonical = v := by
  cases j with
  | object fields =>
    have hfields : canonicalFields [] fields = fields.map canonicalField :=
      canonicalFields_of_ascending fields (ascending_of_canonical hj)
    rw [canonical, object.injEq, hfields] at hj
    exact canonical_of_lookup (map_inj_left.1 (hj.trans (map_id fields).symm)) h
  | _ => cases h

theorem asTable?_eq_some {item : Json → Option α} {t : Table α} (hj : j.canonical = j)
    (h : j.asTable? item = some t) :
    ∃ fields, j = .object fields ∧ Ascending fields ∧
      Forall₂ (fun f e => e.1 = f.1 ∧ item f.2 = some e.2) fields t.entries := by
  cases j with
  | object fields =>
    have hascending := ascending_of_canonical hj
    rw [asTable?, readEntries_eq] at h
    let given : Table Json := ⟨fields, hascending.nodup⟩
    exact ⟨fields, rfl, hascending, given.traverse?_eq_some_iff.1 h⟩
  | _ => cases h

theorem asList?_eq_some {item : Json → Option α} {xs : List α} (h : j.asList? item = some xs) :
    ∃ items, j = .array items ∧ Forall₂ (fun v x => item v = some x) items xs := by
  cases j with
  | array items => exact ⟨items, rfl, mapM_eq_some_iff.1 (readItems_eq_mapM item items ▸ h)⟩
  | _ => cases h

def member (fields : List (String × Json)) (name : String) : Slot :=
  ((Json.lookup name fields).map Slot.given).getD .unnamed

theorem default_member {fallback a : α} {item : Json → Option α}
    (h : (member fields name).default fallback item = some a) :
    Json.lookup name fields = none ∧ a = fallback ∨
      ∃ v, Json.lookup name fields = some v ∧ item v = some a := by
  rw [member] at h
  cases hv : Json.lookup name fields with
  | none =>
    rw [hv] at h
    exact .inl ⟨rfl, (some.inj h).symm⟩
  | some v =>
    rw [hv] at h
    exact .inr ⟨v, rfl, h⟩

theorem list_member {item : Json → Option α} {xs : List α}
    (h : (member fields name).default [] (asList? item) = some xs) :
    Json.lookup name fields = none ∧ xs = [] ∨
      ∃ items, Json.lookup name fields = some (.array items) ∧
        Forall₂ (fun v x => item v = some x) items xs := by
  rcases default_member h with hnone | ⟨v, hv, hread⟩
  · exact .inl hnone
  · obtain ⟨items, rfl, hitems⟩ := asList?_eq_some hread
    exact .inr ⟨items, hv, hitems⟩

theorem optional_member {a : Option α} {item : Json → Option α}
    (h : (member fields name).optional item = some a) :
    (Json.lookup name fields = none ∨ Json.lookup name fields = some .null) ∧ a = none ∨
      ∃ v b, Json.lookup name fields = some v ∧ v ≠ .null ∧ item v = some b ∧ a = some b := by
  rw [member] at h
  cases hv : Json.lookup name fields with
  | none =>
    rw [hv] at h
    exact .inl ⟨.inl rfl, (some.inj h).symm⟩
  | some v =>
    rw [hv] at h
    change v.asOption? item = some a at h
    rw [asOption?] at h
    split at h
    · rename_i hnull
      have hv : v = .null := by
        cases v <;> first | rfl | cases hnull
      exact .inl ⟨.inr (congrArg some hv), (some.inj h).symm⟩
    · rename_i hvalue
      obtain ⟨b, hb, rfl⟩ := map_eq_some_iff.1 h
      refine .inr ⟨v, b, rfl, ?_, hb, rfl⟩
      rintro rfl
      exact hvalue rfl

/-- What a value says as a document: its files in the order of their paths, its log entries in
their order, and its editing state unless it has none or null. -/
structure ImportDocument.Told (j : Json) (d : ImportDocument) : Prop where
  files : j.get? "files" = none ∧ d.files = .empty ∨
    ∃ fields, j.get? "files" = some (.object fields) ∧ Ascending fields ∧
      Forall₂ (fun f e => e.1 = f.1 ∧ ImportedFile.ofJson? f.2 = some e.2) fields d.files.entries
  editing : (j.get? "context" = none ∨ j.get? "context" = some .null) ∧ d.editing = none ∨
    ∃ v e, j.get? "context" = some v ∧ v ≠ .null ∧ Editing.ofJson? v = some e ∧ d.editing = some e
  events : j.get? "history" = none ∧ d.events = [] ∨
    ∃ items, j.get? "history" = some (.array items) ∧
      Forall₂ (fun v e => Event.ofJson? v = some e) items d.events
  exchanges : j.get? "interactions" = none ∧ d.exchanges = [] ∨
    ∃ items, j.get? "interactions" = some (.array items) ∧
      Forall₂ (fun v e => Exchange.ofJson? v = some e) items d.exchanges

/-- A document that is read from a value is what the value tells. -/
theorem ImportDocument.told {d : ImportDocument} (hj : j.canonical = j)
    (hobject : j.isObject = true) (h : ImportDocument.ofJson? j = some d) : d.Told j := by
  cases j with
  | object fields =>
    have hslots : slots? ["schema_version", "files", "context", "history", "interactions"]
        (.object fields) = none ∨
        slots? ["schema_version", "files", "context", "history", "interactions"]
          (.object fields) = some [member fields "schema_version", member fields "files",
            member fields "context", member fields "history", member fields "interactions"] := by
      rw [slots?]
      split
      · exact .inl rfl
      · exact .inr rfl
    rw [ImportDocument.ofJson?] at h
    rcases hslots with hnone | hsome
    · rw [hnone] at h
      cases h
    · rw [hsome] at h
      simp only [bind_eq_bind, bind_some] at h
      obtain ⟨schema, -, h⟩ := bind_eq_some_iff.1 h
      obtain ⟨files, hfiles, h⟩ := bind_eq_some_iff.1 h
      obtain ⟨editing, hediting, h⟩ := bind_eq_some_iff.1 h
      obtain ⟨events, hevents, h⟩ := bind_eq_some_iff.1 h
      obtain ⟨exchanges, hexchanges, h⟩ := bind_eq_some_iff.1 h
      cases h
      refine ⟨?_, optional_member hediting, list_member hevents, list_member hexchanges⟩
      rcases default_member hfiles with hnone | ⟨v, hv, hread⟩
      · exact .inl hnone
      · obtain ⟨fs, rfl, hentries⟩ := asTable?_eq_some (canonical_of_get? hj hv) hread
        exact .inr ⟨fs, hv, hentries⟩
  | _ => cases hobject

theorem ImportDocument.Told.ascending {d : ImportDocument} (h : d.Told j) :
    Ascending d.files.entries := by
  rcases h.files with ⟨-, hnone⟩ | ⟨fields, -, hascending, hread⟩
  · rw [hnone]
    exact .nil
  · have hkeys : d.files.entries.map (·.1) = fields.map (·.1) :=
      mapM_entries_keys (mapM_entries_iff.2 hread)
    have hpairs : (fields.map (·.1)).Pairwise (· < ·) := pairwise_map.2 hascending
    exact pairwise_map.1 (hkeys ▸ hpairs)

/-- A value that passes at a root, and its document. -/
structure ImportDocument.Passes (root : List String) (j : Json) (d : ImportDocument) : Prop where
  object : j.isObject = true
  read : ofJson? j = some d
  schema : ∀ version, d.schema = some version → version ≤ schemaVersion
  admitted : ∀ e ∈ d.files.entries, Admitted root e.1

def ImportDocument.kept (d : ImportDocument) (root : List String) (now : Moment) : CheckedImport :=
  ⟨d.files.entries.map (keptFile root now), d.editing, d.events, d.exchanges⟩

/-- A document passes if its version is not newer and every path is admitted. -/
theorem ImportDocument.check_ok_iff {d : ImportDocument} {root : List String} {now : Moment}
    {c : CheckedImport} :
    d.check root now = .ok c ↔ (∀ version, d.schema = some version → version ≤ schemaVersion) ∧
      (∀ e ∈ d.files.entries, Admitted root e.1) ∧ c = d.kept root now := by
  have hschema : d.schema.filter (schemaVersion < ·) = none ↔
      ∀ version, d.schema = some version → version ≤ schemaVersion := by
    simp only [filter_eq_none_iff, decide_eq_true_eq, UInt32.not_lt]
  rw [check, ← hschema]
  cases d.schema.filter (schemaVersion < ·) with
  | some version =>
    constructor
    · intro h
      cases h
    · rintro ⟨h, -⟩
      cases h
  | none =>
    constructor
    · intro h
      obtain ⟨files, hfiles, h⟩ := exists_of_bind_ok h
      obtain ⟨hadmitted, rfl⟩ := checkFiles_eq_ok_iff.1 hfiles
      exact ⟨rfl, hadmitted, (Except.ok.inj h).symm⟩
    · rintro ⟨-, hadmitted, rfl⟩
      dsimp only
      rw [checkFiles_eq_ok_iff.2 ⟨hadmitted, rfl⟩]
      rfl

/-- What is read from a value is what is kept of a document that passes. -/
theorem ofJson_eq_ok_iff {root : List String} {now : Moment} {c : CheckedImport} :
    CheckedImport.ofJson j root now = .ok c ↔
      ∃ d : ImportDocument, d.Passes root j ∧ c = d.kept root now := by
  rw [CheckedImport.ofJson]
  split
  · rename_i hobject
    cases hread : ImportDocument.ofJson? j with
    | none =>
      constructor
      · intro h
        cases h
      · rintro ⟨d, hpasses, -⟩
        cases hread.symm.trans hpasses.read
    | some d =>
      rw [ImportDocument.check_ok_iff]
      constructor
      · rintro ⟨hschema, hadmitted, rfl⟩
        exact ⟨d, ⟨hobject, hread, hschema, hadmitted⟩, rfl⟩
      · rintro ⟨d', hpasses, rfl⟩
        cases hread.symm.trans hpasses.read
        exact ⟨hpasses.schema, hpasses.admitted, rfl⟩
  · rename_i hother
    constructor
    · intro h
      cases h
    · rintro ⟨d, hpasses, -⟩
      exact absurd hpasses.object hother

theorem checkFiles_error {root : List String} {now : Moment} {files : List (String × ImportedFile)}
    (h : checkFiles root now files = .error r) :
    r.isMalformed = false := by
  induction files with
  | nil => cases h
  | cons e rest ih =>
    obtain ⟨path, file⟩ := e
    rw [checkFiles] at h
    split at h
    · cases h
      rfl
    split at h
    · cases h
      rfl
    cases hrest : checkFiles root now rest with
    | error r' =>
      rw [hrest] at h
      cases h
      exact ih hrest
    | ok files =>
      rw [hrest] at h
      cases h

theorem ImportDocument.check_error {d : ImportDocument} {root : List String} {now : Moment}
    (h : d.check root now = .error r) : r.isMalformed = false := by
  rw [check] at h
  split at h
  · cases h
    rfl
  · cases hfiles : checkFiles root now d.files.entries with
    | error r' =>
      rw [hfiles] at h
      cases h
      exact checkFiles_error hfiles
    | ok files =>
      rw [hfiles] at h
      cases h

/-- A refusal tells a value that is no document from one that does not pass. -/
theorem ofJson_eq_error {root : List String} {now : Moment}
    (h : CheckedImport.ofJson j root now = .error r) :
    r.isMalformed = true ↔ j.isObject = false ∨ ImportDocument.ofJson? j = none := by
  rw [CheckedImport.ofJson] at h
  split at h
  · rename_i hobject
    cases hread : ImportDocument.ofJson? j with
    | none =>
      rw [hread] at h
      cases h
      exact ⟨fun _ => .inr rfl, fun _ => rfl⟩
    | some d =>
      rw [hread] at h
      simp [ImportDocument.check_error h, hobject]
  · rename_i hother
    cases h
    exact ⟨fun _ => .inl (eq_false_of_ne_true hother), fun _ => rfl⟩

end Documents

/-! ## 2. Merging -/

section Merging

variable {root : List String} {now : Moment} {m : Memory} {d : ImportDocument}

/-- An entry of a document whose path is, byte by byte, the greatest of those of its key. -/
structure ImportDocument.Counts (root : List String) (d : ImportDocument)
    (w : String × ImportedFile) : Prop where
  mem : w ∈ d.files.entries
  greatest : ∀ e ∈ d.files.entries, fileKey root e.1 = fileKey root w.1 →
    e = w ∨ Text.encode e.1 < Text.encode w.1

/-- A file made of an entry of a document; its size and its facts are those of the content. -/
structure SourceFile.MadeOf (root : List String) (now : Moment) (w : String × ImportedFile)
    (f : SourceFile) : Prop where
  path : f.path = fileKey root w.1
  content : f.content = w.2.content
  size : f.size = (Text.encode w.2.content).length
  facts : f.facts = .ofText w.2.content
  lastModified : f.lastModified = w.2.lastModified.getD now

theorem keptFile_path (root : List String) (now : Moment) (w : String × ImportedFile) :
    (keptFile root now w).path = fileKey root w.1 :=
  rfl

theorem keptFile_madeOf (root : List String) (now : Moment) (w : String × ImportedFile) :
    (keptFile root now w).MadeOf root now w :=
  ⟨rfl, rfl, (Text.length_encode w.2.content).symm, rfl, rfl⟩

def ImportDocument.event (d : ImportDocument) (now : Moment) : Event :=
  { kind := .imported
    details := .object [("files", .ofNat d.files.entries.length),
      ("history", .ofNat d.events.length), ("interactions", .ofNat d.exchanges.length)]
    moment := now }

/-- A memory into which a document was merged. -/
structure Memory.Merged (root : List String) (d : ImportDocument) (now : Moment)
    (m m' : Memory) : Prop where
  /-- The files of the document are there, one for each key. -/
  overridden : ∀ e ∈ d.files.entries, ∃ w f, d.Counts root w ∧ fileKey root w.1 = fileKey root e.1 ∧
    m'.file? (fileKey root e.1) = some f ∧ f.MadeOf root now w
  /-- The files of other keys are as before. -/
  others : ∀ key, (∀ e ∈ d.files.entries, fileKey root e.1 ≠ key) → m'.file? key = m.file? key
  ascending : Ascending m'.files.entries
  events : m'.events = latest 1000 (m.events ++ d.events ++ [d.event now])
  exchanges : m'.exchanges = latest 500 (m.exchanges ++ d.exchanges)
  editing : m'.editing = d.editing.getD m.editing
  id : m'.project.id = m.project.id
  name : m'.project.name = m.project.name
  root : m'.project.root = m.project.root
  createdAt : m'.project.createdAt = m.project.createdAt

/-- Of the paths of one key, the greatest is the one whose file is kept. -/
theorem putFiles_overridden (files : Table SourceFile) (now : Moment)
    (hascending : Ascending d.files.entries) {e : String × ImportedFile}
    (he : e ∈ d.files.entries) :
    ∃ w, d.Counts root w ∧ fileKey root w.1 = fileKey root e.1 ∧
      (putFiles files (d.files.entries.map (keptFile root now))).lookup (fileKey root e.1) =
        some (keptFile root now w) := by
  obtain ⟨before, w, after, hsplit, hkey, hnone⟩ :=
    exists_last (fun o : String × ImportedFile => fileKey root o.1 = fileKey root e.1) ⟨e, he, rfl⟩
  -- the paths ascend, so the last one of a key is the greatest
  refine ⟨w, ⟨?_, fun o ho hsame => ?_⟩, hkey, ?_⟩
  · rw [hsplit]
    exact mem_append_right _ mem_cons_self
  · rw [hsplit] at hascending ho
    rcases mem_append.1 ho with hbefore | hrest
    · have hlt : o.1 < w.1 := (pairwise_append.1 hascending).2.2 o hbefore w mem_cons_self
      exact .inr (Text.encode_lt_encode hlt)
    · rcases mem_cons.1 hrest with rfl | hafter
      · exact .inl rfl
      · exact absurd (hsame.trans hkey) (hnone o hafter)
  · rw [putFiles, Table.lookup_sorted, hsplit, List.map_map, map_append, map_cons,
      Function.comp_apply, keptFile_path, hkey]
    refine Table.lookup_putAll_last files _ fun f hf => ?_
    obtain ⟨o, ho, rfl⟩ := mem_map.1 hf
    rw [Function.comp_apply, keptFile_path]
    exact hnone o ho

/-- Merging what is kept of a document merges the document. -/
theorem merge_merged (hascending : Ascending d.files.entries) :
    Memory.Merged root d now m ((m.merge (d.kept root now) now).touch now) where
  overridden e he := by
    obtain ⟨w, hcounts, hkey, hlookup⟩ := putFiles_overridden m.files now hascending he
    exact ⟨w, keptFile root now w, hcounts, hkey, hlookup, keptFile_madeOf root now w⟩
  others key hkey := by
    refine (Table.lookup_sorted _ _).trans (Table.lookup_putAll_absent _ fun f hf => ?_)
    obtain ⟨g, hg, rfl⟩ := mem_map.1 hf
    obtain ⟨e, he, rfl⟩ := mem_map.1 hg
    exact hkey e he
  ascending := ascending_sorted _
  events := by
    rw [Memory.touch, Memory.merge, Memory.logEvent, eventLimit, ImportDocument.event,
      ImportDocument.kept, length_map]
  exchanges := by
    rw [Memory.touch, Memory.merge, Memory.logEvent, exchangeLimit, ImportDocument.kept]
  editing := rfl
  id := rfl
  name := rfl
  root := rfl
  createdAt := rfl

end Merging

/-! ## 3. The main statement -/

/-- How merging the document of a payload ends: the payload is refused and all is as it was, or
what it says is in the memory, and the answer tells whether that could be written. -/
inductive Store.ImportEnds (s : Store) (now : Moment) (payload : Option Json) :
    Except ImportError ImportSummary × Store → Prop
  | refused {r : ImportRefusal}
      (hnone : ∀ j, payload = some j → ∀ d : ImportDocument, ¬ d.Passes s.root j)
      (hmalformed : r.isMalformed = true ↔
        ∀ j, payload = some j → j.isObject = false ∨ ImportDocument.ofJson? j = none) :
      ImportEnds s now payload (.error (.refused r), s)
  | merged {j : Json} {d : ImportDocument} {answer : Except ImportError ImportSummary} {s' : Store}
      (hpayload : payload = some j) (hpasses : d.Passes s.root j) (htold : d.Told j)
      (hmerged : s.memory.Merged s.root d now s'.memory)
      (hwritten : (∃ e, answer = .error (.store e)) ∧ s'.dirty = true ∨
        answer = .ok ⟨d.files.entries.length, d.events.length, d.exchanges.length,
            d.editing.isSome⟩ ∧
          s'.dirty = false) :
      ImportEnds s now payload (answer, s')

/-- Merging the document of a value ends as it should. -/
theorem importJson_ends (s : Store) (now : Moment) (hj : j.canonical = j) :
    s.ImportEnds now (some j) (s.importJson j now) := by
  rw [Store.importJson, Store.Update.document]
  cases hchecked : CheckedImport.ofJson j s.root now with
  | error r =>
    refine .refused (fun j' hj' d hpasses => ?_) ?_
    · cases hj'
      cases hchecked.symm.trans (ofJson_eq_ok_iff.2 ⟨d, hpasses, rfl⟩)
    · rw [ofJson_eq_error hchecked]
      exact ⟨fun h j' hj' => some.inj hj' ▸ h, fun h => h j rfl⟩
  | ok c =>
    obtain ⟨d, hpasses, rfl⟩ := ofJson_eq_ok_iff.1 hchecked
    have htold := ImportDocument.told hj hpasses.object hpasses.read
    have hmerged : s.memory.Merged s.root d now
        (s.changed now (·.merge (d.kept s.root now) now)).memory := merge_merged htold.ascending
    dsimp only
    rw [Store.update]
    rcases (s.changed now (·.merge (d.kept s.root now) now)).persist_cases with
      ⟨e, disk, hfailed, -⟩ | ⟨disk, hdone, -⟩
    · rw [hfailed]
      exact .merged rfl hpasses htold hmerged (.inl ⟨⟨e, rfl⟩, rfl⟩)
    · rw [hdone]
      refine .merged rfl hpasses htold hmerged (.inr ⟨?_, rfl⟩)
      rw [← length_map (f := keptFile s.root now)]
      rfl

/-- A payload is refused as a whole or merged as a whole, be it given as a value or as a text. -/
theorem import_refused_or_merged (s : Store) (now : Moment) :
    (∀ j : Json, s.ImportEnds now (some j.canonical) (s.importJson j.canonical now)) ∧
      ∀ text, s.ImportEnds now (Json.read text) (s.importText text now) := by
  refine ⟨fun j => importJson_ends s now (canonical_canonical j), fun text => ?_⟩
  rw [Store.importText, Store.Update.documentText]
  cases hread : Json.read text with
  | none =>
    refine .refused (fun j hj => ?_) ⟨fun _ j hj => ?_, fun _ => rfl⟩
    · cases hj
    · cases hj
  | some j =>
    obtain ⟨raw, -, rfl⟩ := Option.map_eq_some_iff.1 hread
    exact importJson_ends s now (canonical_canonical raw)

/-- A payload with two paths of one key; the backslash is the greater byte. -/
def aliases : Json :=
  .object [("files", .object [("a/b.c", .object [("content", .text "one")]),
    ("a\\b.c", .object [("content", .text "two"), ("size", .ofNat 99)])])]

def aliasing : ImportDocument :=
  ⟨none, ⟨[("a/b.c", ⟨"one", none⟩), ("a\\b.c", ⟨"two", none⟩)], by decide⟩, none, [], []⟩

theorem aliasing_passes : aliasing.Passes Store.newcomer.root aliases where
  object := rfl
  read := rfl
  schema version h := by cases h
  admitted e he := by
    rw [show Store.newcomer.root = ["p"] from Store.persist_root _]
    rcases mem_cons.1 he with rfl | he
    · exact ⟨by decide +kernel, by decide +kernel, by decide +kernel⟩
    · rcases mem_singleton.1 he with rfl
      exact ⟨by decide +kernel, by decide +kernel, by decide +kernel⟩

/-- The file of the greater path is the one that is kept, with the size of its content. -/
theorem import_refused_or_merged_aliases :
    ∃ f, (Store.newcomer.importJson aliases.canonical Store.someday).2.memory.file? "a/b.c" =
      some f ∧ f.content = "two" ∧ f.size = 3 := by
  have hends := (import_refused_or_merged Store.newcomer Store.someday).1 aliases
  have hcanonical : aliases.canonical = aliases := rfl
  have hroot : Store.newcomer.root = ["p"] := Store.persist_root _
  have hkey : fileKey ["p"] "a\\b.c" = "a/b.c" := by decide +kernel
  have hmem : ("a\\b.c", ⟨"two", none⟩) ∈ aliasing.files.entries :=
    List.mem_cons_of_mem _ List.mem_cons_self
  generalize Store.newcomer.importJson aliases.canonical Store.someday = out at hends ⊢
  rw [hcanonical] at hends
  cases hends with
  | refused hnone _ => exact absurd aliasing_passes (hnone aliases rfl _)
  | merged hpayload hpasses _ hmerged _ =>
    cases hpayload
    cases hpasses.read.symm.trans aliasing_passes.read
    obtain ⟨w, f, hcounts, hsame, hfile, hmade⟩ := hmerged.overridden _ hmem
    have hw : w = ("a\\b.c", ⟨"two", none⟩) := by
      rcases hcounts.greatest _ hmem hsame.symm with hw | hgreater
      · exact hw.symm
      · rcases List.mem_cons.1 hcounts.mem with rfl | hlast
        · exact absurd hgreater (by decide +kernel)
        · exact List.mem_singleton.1 hlast
    rw [hroot, hkey] at hfile
    rw [hw] at hmade
    exact ⟨f, hfile, hmade.content, hmade.size.trans (by decide +kernel)⟩

end CodeAssist
