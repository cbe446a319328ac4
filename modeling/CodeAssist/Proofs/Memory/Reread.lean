import CodeAssist.Memory.Change
import CodeAssist.Proofs.Memory.Codec

/-!
What comes back when a memory is written and read again.

A memory whose files count less than a word holds comes back as itself exactly when each of its
free values does (`Memory.reread?_eq_self_iff`). Whatever comes back, the files come back with their
keys, contents and facts, and the logs with their lengths (`Memory.SameStock`).
-/

namespace CodeAssist

open Json.Reader List Option Json

variable {n depth : Nat}

/-! ## 1. Lists -/

theorem exists_forall₂_iff {R : α → β → Prop} {xs : List α} :
    (∃ ys, Forall₂ R xs ys) ↔ ∀ x ∈ xs, ∃ y, R x y := by
  induction xs with
  | nil => exact ⟨fun _ => forall_mem_nil _, fun _ => ⟨[], .nil⟩⟩
  | cons x rest ih =>
    rw [forall_mem_cons, ← ih]
    constructor
    · rintro ⟨_, hall⟩
      obtain ⟨y, ys, hxy, hrest, -⟩ := forall₂_cons_left_iff.1 hall
      exact ⟨⟨y, hxy⟩, ys, hrest⟩
    · rintro ⟨⟨y, hxy⟩, ys, hrest⟩
      exact ⟨y :: ys, .cons hxy hrest⟩

theorem exists_last (p : α → Prop) {xs : List α} (h : ∃ x ∈ xs, p x) :
    ∃ before y after, xs = before ++ y :: after ∧ p y ∧ ∀ z ∈ after, ¬ p z := by
  induction xs with
  | nil =>
    obtain ⟨x, hx, -⟩ := h
    cases hx
  | cons x rest ih =>
    by_cases hlater : ∃ y ∈ rest, p y
    · obtain ⟨before, y, after, rfl, hy, hnone⟩ := ih hlater
      exact ⟨x :: before, y, after, rfl, hy, hnone⟩
    · refine ⟨[], x, rest, rfl, ?_, fun y hy hpy => hlater ⟨y, hy, hpy⟩⟩
      obtain ⟨y, hy, hpy⟩ := h
      rcases mem_cons.1 hy with rfl | hmem
      · exact hpy
      · exact absurd ⟨y, hmem, hpy⟩ hlater

theorem mapM_some_eq {f : α → Option α} (hf : ∀ x y, f x = some y → y = x) {xs ys : List α}
    (h : xs.mapM f = some ys) : ys = xs := by
  have hsame : Forall₂ (fun x y => x = y) xs ys :=
    (mapM_eq_some_iff.1 h).imp fun x y hread => (hf x y hread).symm
  rw [forall₂_eq_eq_eq] at hsame
  exact hsame.symm

/-! ## 2. Coming back unchanged -/

theorem fit_eq (h : n < Nat.pow 2 64) : fit n = some n :=
  if_pos h

theorem eq_of_fit {k : Nat} (h : fit n = some k) : k = n := by
  rw [fit] at h
  split at h
  · exact (some.inj h).symm
  · cases h

/-- Facts whose lines fit a word. -/
structure Facts.Fits (f : Facts) : Prop where
  functions : ∀ x ∈ f.functions, x.line < Nat.pow 2 64
  vars : ∀ x ∈ f.vars, x.line < Nat.pow 2 64
  includes : ∀ x ∈ f.includes, x.line < Nat.pow 2 64

instance (f : Facts) : Decidable f.Fits :=
  decidable_of_iff ((∀ x ∈ f.functions, x.line < Nat.pow 2 64) ∧
      (∀ x ∈ f.vars, x.line < Nat.pow 2 64) ∧ ∀ x ∈ f.includes, x.line < Nat.pow 2 64)
    ⟨fun ⟨hf, hv, hi⟩ => ⟨hf, hv, hi⟩, fun ⟨hf, hv, hi⟩ => ⟨hf, hv, hi⟩⟩

theorem Facts.reread?_fits {f : Facts} (h : f.Fits) : f.reread? = some f := by
  have hfunctions : f.functions.mapM FunctionFact.reread? = some f.functions :=
    mapM_eq_self_iff.2 fun x hx => by rw [FunctionFact.reread?, fit_eq (h.functions x hx)]; rfl
  have hvars : f.vars.mapM VariableFact.reread? = some f.vars :=
    mapM_eq_self_iff.2 fun x hx => by rw [VariableFact.reread?, fit_eq (h.vars x hx)]; rfl
  have hincludes : f.includes.mapM IncludeFact.reread? = some f.includes :=
    mapM_eq_self_iff.2 fun x hx => by rw [IncludeFact.reread?, fit_eq (h.includes x hx)]; rfl
  rw [Facts.reread?, hfunctions, hvars, hincludes]
  rfl

/-- A file whose size and lines fit a word. -/
structure SourceFile.Fits (f : SourceFile) : Prop where
  size : f.size < Nat.pow 2 64
  facts : f.facts.Fits

instance (f : SourceFile) : Decidable f.Fits :=
  decidable_of_iff (f.size < Nat.pow 2 64 ∧ f.facts.Fits)
    ⟨fun ⟨hs, hf⟩ => ⟨hs, hf⟩, fun ⟨hs, hf⟩ => ⟨hs, hf⟩⟩

theorem SourceFile.reread?_fits {f : SourceFile} (h : f.Fits) : f.reread? = some f := by
  rw [SourceFile.reread?, fit_eq h.size, Moment.reread?, Moment.ofText?_toText,
    Facts.reread?_fits h.facts]
  rfl

theorem Event.reread?_eq_self_iff {e : Event} :
    e.reread? depth = some e ↔ Kept depth e.details := by
  rw [Event.reread?, Moment.reread?, Moment.ofText?_toText, Kept]
  cases (reread depth e.details).map canonical with
  | none => simp
  | some v =>
    obtain ⟨kind, details, moment⟩ := e
    simp

/-- An exchange comes back as itself exactly when each value of its metadata does. -/
theorem Exchange.reread?_eq_self_iff {e : Exchange} :
    e.reread? depth = some e ↔ ∀ v ∈ e.metadata.entries, Kept depth v.2 := by
  have hmetadata : rereadMetadata? depth e.metadata = some e.metadata ↔
      ∀ v ∈ e.metadata.entries, Kept depth v.2 :=
    Table.traverse?_eq_self_iff
  rw [← hmetadata, Exchange.reread?, Moment.reread?, Moment.ofText?_toText]
  cases rereadMetadata? depth e.metadata with
  | none => simp
  | some read =>
    obtain ⟨action, prompt, response, metadata, moment⟩ := e
    simp

/-- A memory whose files fit words. Texts have no bound here, so nothing bounds what is counted in
them. -/
def Memory.Fits (m : Memory) : Prop :=
  ∀ e ∈ m.files.entries, e.2.Fits

instance (m : Memory) : Decidable m.Fits :=
  inferInstanceAs (Decidable (∀ e ∈ m.files.entries, e.2.Fits))

/-- A memory whose free values come back as themselves. The depths are those at which the values
stand in the document. -/
structure Memory.Kept (m : Memory) : Prop where
  events : ∀ e ∈ m.events, Json.Kept 124 e.details
  exchanges : ∀ e ∈ m.exchanges, ∀ v ∈ e.metadata.entries, Json.Kept 123 v.2

/-- A memory comes back as itself exactly when its free values do. -/
theorem Memory.reread?_eq_self_iff {m : Memory} (h : m.Fits) :
    m.reread? = some m ↔ m.Kept := by
  have hproject : m.project.reread? = some m.project := by
    rw [Project.reread?, Moment.reread?, Moment.ofText?_toText, Moment.reread?,
      Moment.ofText?_toText]
    rfl
  have hevents : m.events.mapM (Event.reread? 124) = some m.events ↔
      ∀ e ∈ m.events, Json.Kept 124 e.details := by
    rw [mapM_eq_self_iff]
    exact forall₂_congr fun e he => Event.reread?_eq_self_iff
  have hexchanges : m.exchanges.mapM (Exchange.reread? 123) = some m.exchanges ↔
      ∀ e ∈ m.exchanges, ∀ v ∈ e.metadata.entries, Json.Kept 123 v.2 := by
    rw [mapM_eq_self_iff]
    exact forall₂_congr fun e he => Exchange.reread?_eq_self_iff
  have hfiles : m.files.traverse? SourceFile.reread? = some m.files :=
    Table.traverse?_eq_self_iff.2 fun e he => SourceFile.reread?_fits (h e he)
  rw [Memory.reread?, hproject, hfiles]
  have hparts : m.Kept ↔ m.events.mapM (Event.reread? 124) = some m.events ∧
      m.exchanges.mapM (Exchange.reread? 123) = some m.exchanges := by
    rw [hevents, hexchanges]
    exact ⟨fun k => ⟨k.events, k.exchanges⟩, fun k => ⟨k.1, k.2⟩⟩
  rw [hparts]
  obtain ⟨schema, project, files, editing, events, exchanges⟩ := m
  cases events.mapM (Event.reread? 124) <;> cases exchanges.mapM (Exchange.reread? 123) <;> simp

/-! ## 3. Coming back at all -/

theorem Facts.eq_of_reread? {f g : Facts} (h : f.reread? = some g) : g = f := by
  simp only [Facts.reread?, bind_eq_bind, bind_eq_some_iff, Option.pure_def,
    some.injEq] at h
  obtain ⟨functions, hfunctions, vars, hvars, includes, hincludes, rfl⟩ := h
  have hline : ∀ {α : Type} (make : Nat → α) (line : Nat) (x : α),
      ((fit line).bind fun line => some (make line)) = some x → x = make line := by
    intro α make line x h
    obtain ⟨k, hk, h⟩ := bind_eq_some_iff.1 h
    rw [← some.inj h, eq_of_fit hk]
  have hfs := mapM_some_eq (fun x _ => hline (fun line => { x with line }) x.line _) hfunctions
  have hvs := mapM_some_eq (fun x _ => hline (fun line => { x with line }) x.line _) hvars
  have his := mapM_some_eq (fun x _ => hline (fun line => { x with line }) x.line _) hincludes
  rw [hfs, hvs, his]

theorem SourceFile.eq_of_reread? {f g : SourceFile} (h : f.reread? = some g) :
    g = { f with lastModified := g.lastModified } := by
  simp only [SourceFile.reread?, bind_eq_bind, bind_eq_some_iff, Option.pure_def,
    some.injEq] at h
  obtain ⟨size, hsize, moment, _, facts, hfacts, rfl⟩ := h
  rw [eq_of_fit hsize, Facts.eq_of_reread? hfacts]

/-- A memory of the same project with the same files and as much in its logs. -/
structure Memory.SameStock (m m' : Memory) : Prop where
  schema : m'.schema = m.schema
  id : m'.project.id = m.project.id
  name : m'.project.name = m.project.name
  root : m'.project.root = m.project.root
  files : Forall₂
    (fun e e' => e'.1 = e.1 ∧ e'.2 = { e.2 with lastModified := e'.2.lastModified })
    m.files.entries m'.files.entries
  editing : m'.editing = m.editing
  events : m'.events.length = m.events.length
  exchanges : m'.exchanges.length = m.exchanges.length

theorem Memory.sameStock_of_reread? {m m' : Memory} (h : m.reread? = some m') :
    m.SameStock m' := by
  simp only [Memory.reread?, Project.reread?, bind_eq_bind, bind_eq_some_iff,
    Option.pure_def, some.injEq] at h
  obtain ⟨project, ⟨created, _, modified, _, rfl⟩, files, hfiles, events, hevents, exchanges,
    hexchanges, rfl⟩ := h
  refine ⟨rfl, rfl, rfl, rfl, ?_, rfl, ?_, ?_⟩
  · exact (Table.traverse?_eq_some_iff.1 hfiles).imp fun e e' he =>
      ⟨he.1, SourceFile.eq_of_reread? he.2⟩
  · exact (mapM_eq_some_iff.1 hevents).length_eq.symm
  · exact (mapM_eq_some_iff.1 hexchanges).length_eq.symm

/-! ## 4. The index -/

theorem rereadItems_eq_mapM (depth : Nat) (js : List Json) :
    rereadItems depth js = js.mapM (reread depth) := by
  induction js with
  | nil => rfl
  | cons j rest ih => rw [rereadItems, ih, mapM_cons]

theorem rereadFields_eq_mapM (depth : Nat) (fs : List (String × Json)) :
    rereadFields depth fs =
      fs.mapM fun f => (reread depth f.2).map fun v => (f.1, v) := by
  induction fs with
  | nil => rfl
  | cons f rest ih =>
    rw [rereadFields, ih, mapM_cons]
    cases reread depth f.2 <;> rfl

theorem reread_array (enc : α → Json) {xs : List α}
    (h : ∀ x ∈ xs, reread depth (enc x) = some (enc x)) :
    reread (depth + 1) (.array (xs.map enc)) = some (.array (xs.map enc)) := by
  have hitems : ∀ j ∈ xs.map enc, reread depth j = some j := by
    intro j hj
    obtain ⟨x, hx, rfl⟩ := mem_map.1 hj
    exact h x hx
  rw [reread, rereadItems_eq_mapM, mapM_eq_self_iff.2 hitems]
  rfl

theorem reread_object {fields : List (String × Json)}
    (h : ∀ f ∈ fields, reread depth f.2 = some f.2) :
    reread (depth + 1) (.object fields) = some (.object fields) := by
  have hfields : ∀ f ∈ fields, ((reread depth f.2).map fun v => (f.1, v)) = some f := by
    intro f hf
    rw [h f hf]
    rfl
  rw [reread, rereadFields_eq_mapM, mapM_eq_self_iff.2 hfields]
  rfl

theorem reread_ofTable (enc : α → Json) {t : Table α}
    (h : ∀ x ∈ t.entries, reread depth (enc x.2) = some (enc x.2)) :
    reread (depth + 1) (ofTable enc t) = some (ofTable enc t) := by
  refine reread_object fun f hf => ?_
  obtain ⟨x, hx, rfl⟩ := mem_map.1 hf
  exact h x hx

@[simp] theorem reread_text (depth : Nat) (s : String) :
    reread depth (.text s) = some (.text s) := by
  rw [reread]

theorem reread_ofNat (depth : Nat) (h : n < Nat.pow 2 64) :
    reread depth (.ofNat n) = some (.ofNat n) := by
  have hfits : n ≤ maxNatural := by
    rw [maxNatural]
    omega
  rw [ofNat, reread, rereadNumeral_fits hfits]

theorem FunctionFact.reread_toJson {f : FunctionFact} (h : f.line < Nat.pow 2 64) (depth : Nat) :
    reread (depth + 1) f.toJson = some f.toJson :=
  reread_object (by simp [reread_ofNat _ h])

theorem VariableFact.reread_toJson {v : VariableFact} (h : v.line < Nat.pow 2 64) (depth : Nat) :
    reread (depth + 1) v.toJson = some v.toJson :=
  reread_object (by simp [reread_ofNat _ h])

theorem IncludeFact.reread_toJson {i : IncludeFact} (h : i.line < Nat.pow 2 64) (depth : Nat) :
    reread (depth + 1) i.toJson = some i.toJson :=
  reread_object (by simp [reread_ofNat _ h])

theorem Facts.reread_toJson {f : Facts} (h : f.Fits) (depth : Nat) :
    reread (depth + 3) f.toJson = some f.toJson := by
  have hfunctions := reread_array FunctionFact.toJson fun x hx =>
    FunctionFact.reread_toJson (h.functions x hx) depth
  have hvars := reread_array VariableFact.toJson fun x hx =>
    VariableFact.reread_toJson (h.vars x hx) depth
  have hincludes := reread_array IncludeFact.toJson fun x hx =>
    IncludeFact.reread_toJson (h.includes x hx) depth
  exact reread_object (by simp [hfunctions, hvars, hincludes])

theorem asList?_map {item : Json → Option α} {enc : α → Json} (h : ∀ x, item (enc x) = some x)
    (xs : List α) : (array (xs.map enc)).asList? item = some xs := by
  rw [asList?, asArray?, bind_some, readItems_eq_mapM, mapM_map]
  exact mapM_eq_self_iff.2 fun x _ => h x

theorem asTable?_ofTable {item : Json → Option α} {enc : α → Json}
    (h : ∀ x, item (enc x) = some x) (t : Table α) : (ofTable enc t).asTable? item = some t := by
  have hread : ((t.entries.map fun x => (x.1, enc x.2)).mapM fun f =>
      (item f.2).map fun a => (f.1, a)) = some t.entries := by
    rw [mapM_map]
    refine mapM_eq_self_iff.2 fun x _ => ?_
    change ((item (enc x.2)).map fun a => (x.1, a)) = some x
    rw [h]
    rfl
  rw [ofTable, asTable?, readEntries_eq, hread, map_some, Table.putAll_entries]

theorem asMoment?_ofMoment (t : Moment) : (ofMoment t).asMoment? = some t := by
  rw [ofMoment, asMoment?, asText?_text, bind_some, Moment.ofText?_toText]

theorem FunctionFact.ofJson?_toJson (f : FunctionFact) : FunctionFact.ofJson? f.toJson = some f :=
  FunctionFact.ofJson?_object ..

theorem VariableFact.ofJson?_toJson (v : VariableFact) : VariableFact.ofJson? v.toJson = some v :=
  VariableFact.ofJson?_object ..

theorem IncludeFact.ofJson?_toJson (i : IncludeFact) : IncludeFact.ofJson? i.toJson = some i :=
  IncludeFact.ofJson?_object ..

theorem Facts.ofJson?_toJson (f : Facts) : Facts.ofJson? f.toJson = some f := by
  rw [Facts.toJson, Facts.ofJson?_object, asList?_map FunctionFact.ofJson?_toJson,
    asList?_map VariableFact.ofJson?_toJson, asList?_map IncludeFact.ofJson?_toJson]
  rfl

theorem EventKind.ofJson?_toJson (k : EventKind) : EventKind.ofJson? k.toJson = some k := by
  cases k <;> decide

theorem Action.ofJson?_toJson (a : Action) : Action.ofJson? a.toJson = some a := by
  cases a <;> decide

@[simp] theorem asWord?_ofWord (w : UInt64) : (ofWord w).asWord? = some w := by
  have hfits : w.toNat < Nat.pow 2 64 := w.toNat_lt
  simp only [ofWord, asWord?, ofNat, asNat?, bind_some, if_pos hfits,
    UInt64.ofNat_toNat]

@[simp] theorem reread_ofWord (depth : Nat) (w : UInt64) :
    reread depth (ofWord w) = some (ofWord w) :=
  reread_ofNat depth w.toNat_lt

@[simp] theorem reread_ofOption_text (depth : Nat) (s : Option String) :
    reread depth (ofOption .text s) = some (ofOption .text s) := by
  cases s <;> simp [ofOption, reread]

@[simp] theorem Cursor.ofJson?_toJson (c : Cursor) : Cursor.ofJson? c.toJson = some c := by
  rw [Cursor.toJson, Cursor.ofJson?_object, asWord?_ofWord, asWord?_ofWord]
  rfl

@[simp] theorem Cursor.reread_toJson (depth : Nat) (c : Cursor) :
    reread (depth + 1) c.toJson = some c.toJson :=
  reread_object (by simp)

@[simp] theorem BuildState.ofJson?_toJson (b : BuildState) :
    BuildState.ofJson? b.toJson = some b := by
  cases b <;> decide

theorem Editing.ofJson?_toJson (e : Editing) : Editing.ofJson? e.toJson = some e := by
  rw [Editing.toJson, Editing.ofJson?_object]
  simp [asOption_ofOption_text]

theorem Editing.reread_toJson (depth : Nat) (e : Editing) :
    reread (depth + 2) e.toJson = some e.toJson :=
  reread_object (by simp [BuildState.toJson])

theorem FactIndex.ofJson?_object (schema projectId generatedAt files : Json) :
    FactIndex.ofJson? (.object [("schema_version", schema), ("project_id", projectId),
      ("generated_at", generatedAt), ("files", files)]) = (do
      return {
        schema := ← schema.asWord32?
        projectId := ← projectId.asText?
        generatedAt := ← generatedAt.asMoment?
        files := ← files.asTable? Facts.ofJson? }) :=
  rfl

/-- The index that is written is read as the index of the memory. -/
theorem Memory.index_reads {m : Memory} (h : m.Fits) :
    (parse m.index.toJson.pretty).bind FactIndex.ofJson? = some m.index := by
  have hfiles : reread 126 (ofTable Facts.toJson m.facts) =
      some (ofTable Facts.toJson m.facts) := by
    refine reread_ofTable Facts.toJson fun e he => ?_
    obtain ⟨⟨key, f⟩, hf, rfl⟩ := mem_map.1 he
    exact Facts.reread_toJson (h _ hf).facts 122
  have hschema := reread_ofNat 126 (n := schemaVersion.toNat) (by decide)
  have hreread : reread maxDepth m.index.toJson = some m.index.toJson :=
    reread_object (by simp [Memory.index, ofMoment, hschema, hfiles])
  have hmoment := asMoment?_ofMoment m.index.generatedAt
  have hmap : (ofTable Facts.toJson m.index.files).asTable? Facts.ofJson? = some m.index.files :=
    asTable?_ofTable Facts.ofJson?_toJson m.index.files
  rw [parse_pretty, hreread, bind_some, FactIndex.toJson, FactIndex.ofJson?_object,
    hmoment, hmap]
  rfl

end CodeAssist
