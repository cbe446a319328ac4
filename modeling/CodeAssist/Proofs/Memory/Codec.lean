import CodeAssist.Memory.Document
import CodeAssist.Proofs.Json.Shapes
import CodeAssist.Proofs.Moment

/-!
The memory document read back.

`Memory.reread?` says, field by field, what a memory becomes when it is written to a document and
the document is read again. Texts come back as they are. A number must fit a word, a moment must be
one that its text can be read as, and a free value comes back as its rereading.
-/

namespace CodeAssist

open Json.Reader Option Json

/-! ## 1. Numbers and moments -/

def fit (n : Nat) : Option Nat :=
  if n < Nat.pow 2 64 then some n else none

def Moment.reread? (m : Moment) : Option Moment :=
  Moment.ofText? m.toText

theorem natural_decodes (depth n : Nat) :
    (natural 64).Decodes asNat? depth (.ofNat n) (fit n) := by
  refine ⟨_, natural_yields (by decide) depth n, ?_⟩
  rw [fit]
  split <;> rfl

theorem word32_decodes (depth : Nat) (w : UInt32) :
    (natural 32).Decodes asWord32? depth (.ofNat w.toNat) (some w) := by
  refine ⟨_, natural_yields (by decide) depth w.toNat, ?_⟩
  have hfits : w.toNat < Nat.pow 2 32 := w.toNat_lt
  rw [if_pos hfits]
  simp only [bind_some, asWord32?, asNat?, ofNat, if_pos hfits,
    UInt32.ofNat_toNat]

theorem word_decodes (depth : Nat) (w : UInt64) :
    (natural 64).Decodes asWord? depth (.ofWord w) (some w) := by
  refine ⟨_, natural_yields (by decide) depth w.toNat, ?_⟩
  have hfits : w.toNat < Nat.pow 2 64 := w.toNat_lt
  rw [if_pos hfits]
  simp only [bind_some, asWord?, asNat?, ofNat, if_pos hfits,
    UInt64.ofNat_toNat]

theorem moment_decodes (depth : Nat) (m : Moment) :
    timestamp.Decodes asMoment? depth (.ofMoment m) m.reread? := by
  refine ⟨_, timestamp_yields depth m.toText, ?_⟩
  rw [Moment.reread?]
  cases h : Moment.ofText? m.toText with
  | none => rfl
  | some t => simp only [isSome_some, if_true, bind_some, asMoment?,
      asText?, h]

/-! ## 2. Facts and files -/

def FunctionFact.reread? (f : FunctionFact) : Option FunctionFact := do
  return { f with line := ← fit f.line }

theorem FunctionFact.ofJson?_object (returnType name line : Json) :
    FunctionFact.ofJson? (.object [("return_type", returnType), ("name", name),
      ("line", line)]) = (do
      return {
        returnType := ← returnType.asText?
        name := ← name.asText?
        line := ← line.asNat? }) :=
  rfl

theorem FunctionFact.decodes (depth : Nat) (f : FunctionFact) :
    FunctionFact.reader.Decodes FunctionFact.ofJson? (depth + 1) f.toJson f.reread? := by
  obtain ⟨line, hline, hfit⟩ := natural_decodes depth f.line
  refine ⟨_, record_yields [⟨required "return_type" text, _, _, text_yields depth f.returnType⟩,
    ⟨required "name" text, _, _, text_yields depth f.name⟩,
    ⟨required "line" (natural 64), _, _, hline⟩] (by simp) (by simp), ?_⟩
  rw [FunctionFact.reread?, ← hfit]
  cases line with
  | none => rfl
  | some v => simp [FunctionFact.ofJson?_object]

def VariableFact.reread? (v : VariableFact) : Option VariableFact := do
  return { v with line := ← fit v.line }

theorem VariableFact.ofJson?_object (type name line : Json) :
    VariableFact.ofJson? (.object [("type", type), ("name", name), ("line", line)]) = (do
      return {
        type := ← type.asText?
        name := ← name.asText?
        line := ← line.asNat? }) :=
  rfl

theorem VariableFact.decodes (depth : Nat) (v : VariableFact) :
    VariableFact.reader.Decodes VariableFact.ofJson? (depth + 1) v.toJson v.reread? := by
  obtain ⟨line, hline, hfit⟩ := natural_decodes depth v.line
  refine ⟨_, record_yields [⟨required "type" text, _, _, text_yields depth v.type⟩,
    ⟨required "name" text, _, _, text_yields depth v.name⟩,
    ⟨required "line" (natural 64), _, _, hline⟩] (by simp) (by simp), ?_⟩
  rw [VariableFact.reread?, ← hfit]
  cases line with
  | none => rfl
  | some v => simp [VariableFact.ofJson?_object]

/-- An included header as it is read again. -/
def IncludeFact.reread? (i : IncludeFact) : Option IncludeFact := do
  return { i with line := ← fit i.line }

theorem IncludeFact.ofJson?_object (header line : Json) :
    IncludeFact.ofJson? (.object [("header", header), ("line", line)]) = (do
      return {
        header := ← header.asText?
        line := ← line.asNat? }) :=
  rfl

theorem IncludeFact.decodes (depth : Nat) (i : IncludeFact) :
    IncludeFact.reader.Decodes IncludeFact.ofJson? (depth + 1) i.toJson i.reread? := by
  obtain ⟨line, hline, hfit⟩ := natural_decodes depth i.line
  refine ⟨_, record_yields [⟨required "header" text, _, _, text_yields depth i.header⟩,
    ⟨required "line" (natural 64), _, _, hline⟩] (by simp) (by simp), ?_⟩
  rw [IncludeFact.reread?, ← hfit]
  cases line with
  | none => rfl
  | some v => simp [IncludeFact.ofJson?_object]

def Facts.reread? (f : Facts) : Option Facts := do
  return {
    functions := ← f.functions.mapM FunctionFact.reread?
    vars := ← f.vars.mapM VariableFact.reread?
    includes := ← f.includes.mapM IncludeFact.reread? }

theorem Facts.ofJson?_object (functions vars includes : Json) :
    Facts.ofJson? (.object [("functions", functions), ("variables", vars),
      ("imports", includes)]) = (do
      return {
        functions := ← functions.asList? FunctionFact.ofJson?
        vars := ← vars.asList? VariableFact.ofJson?
        includes := ← includes.asList? IncludeFact.ofJson? }) :=
  rfl

theorem Facts.decodes (depth : Nat) (f : Facts) :
    Facts.reader.Decodes Facts.ofJson? (depth + 3) f.toJson f.reread? := by
  obtain ⟨functions, hfunctions, hfs⟩ := list_decodes fun x (_ : x ∈ f.functions) =>
    FunctionFact.decodes depth x
  obtain ⟨vars, hvars, hvs⟩ := list_decodes fun x (_ : x ∈ f.vars) =>
    VariableFact.decodes depth x
  obtain ⟨includes, hincludes, his⟩ := list_decodes fun x (_ : x ∈ f.includes) =>
    IncludeFact.decodes depth x
  refine ⟨_, record_yields [⟨optional "functions" (list FunctionFact.reader), _, _, hfunctions⟩,
    ⟨optional "variables" (list VariableFact.reader), _, _, hvars⟩,
    ⟨optional "imports" (list IncludeFact.reader), _, _, hincludes⟩] (by simp) (by simp), ?_⟩
  rw [Facts.reread?, ← hfs, ← hvs, ← his]
  cases functions <;> cases vars <;> cases includes <;> simp [Facts.ofJson?_object]

def SourceFile.reread? (f : SourceFile) : Option SourceFile := do
  return { f with
    size := ← fit f.size
    lastModified := ← f.lastModified.reread?
    facts := ← f.facts.reread? }

theorem SourceFile.ofJson?_object (path content size lastModified facts : Json) :
    SourceFile.ofJson? (.object [("path", path), ("content", content), ("size", size),
      ("last_modified", lastModified), ("facts", facts)]) = (do
      return {
        path := ← path.asText?
        content := ← content.asText?
        size := ← size.asNat?
        lastModified := ← lastModified.asMoment?
        facts := ← Facts.ofJson? facts }) :=
  rfl

theorem SourceFile.decodes (depth : Nat) (f : SourceFile) :
    SourceFile.reader.Decodes SourceFile.ofJson? (depth + 4) f.toJson f.reread? := by
  obtain ⟨size, hsize, hfit⟩ := natural_decodes (depth + 3) f.size
  obtain ⟨moment, hmoment, hm⟩ := moment_decodes (depth + 3) f.lastModified
  obtain ⟨facts, hfacts, hf⟩ := Facts.decodes depth f.facts
  refine ⟨_, record_yields [⟨required "path" text, _, _, text_yields _ f.path⟩,
    ⟨required "content" text, _, _, text_yields _ f.content⟩,
    ⟨required "size" (natural 64), _, _, hsize⟩,
    ⟨required "last_modified" timestamp, _, _, hmoment⟩,
    ⟨optional "facts" Facts.reader, _, _, hfacts⟩] (by simp) (by simp), ?_⟩
  rw [SourceFile.reread?, ← hfit, ← hm, ← hf]
  cases size <;> cases moment <;> cases facts <;> simp [SourceFile.ofJson?_object]

/-! ## 3. The logs -/

theorem EventKind.decodes (depth : Nat) (k : EventKind) :
    (oneOf (EventKind.all.map EventKind.name)).Decodes EventKind.ofJson? depth k.toJson
      (some k) := by
  refine ⟨_, oneOf_yields ?_ depth, ?_⟩
  · exact List.mem_map_of_mem (by cases k <;> decide)
  · cases k <;> decide

theorem Action.decodes (depth : Nat) (a : Action) :
    Action.reader.Decodes Action.ofJson? depth a.toJson (some a) := by
  refine ⟨_, oneOf_yields ?_ depth, ?_⟩
  · exact List.mem_map_of_mem (by cases a <;> decide)
  · cases a <;> decide

theorem any_decodes (depth : Nat) (j : Json) :
    free.Decodes asAny? depth j ((reread depth j).map canonical) :=
  ⟨_, free_yields depth j, by rw [map_eq_bind]; rfl⟩

/-- An event as it is read again from that depth. -/
def Event.reread? (depth : Nat) (e : Event) : Option Event := do
  return { e with
    details := ← (reread depth e.details).map canonical
    moment := ← e.moment.reread? }

theorem Event.ofJson?_object (kind details moment : Json) :
    Event.ofJson? (.object [("action", kind), ("details", details), ("timestamp", moment)]) = (do
      return {
        kind := ← EventKind.ofJson? kind
        details := ← details.asAny?
        moment := ← moment.asMoment? }) :=
  rfl

theorem Event.decodes (depth : Nat) (e : Event) :
    Event.reader.Decodes Event.ofJson? (depth + 1) e.toJson (e.reread? depth) := by
  obtain ⟨kind, hkind, hk⟩ := (EventKind.decodes depth e.kind).yields_some
  obtain ⟨details, hdetails, hd⟩ := any_decodes depth e.details
  obtain ⟨moment, hmoment, hm⟩ := moment_decodes depth e.moment
  refine ⟨_, record_yields
    [⟨required "action" (oneOf (EventKind.all.map EventKind.name)), _, _, hkind⟩,
    ⟨Reader.optional "details" free, _, _, hdetails⟩,
    ⟨required "timestamp" timestamp, _, _, hmoment⟩] (by simp) (by simp), ?_⟩
  rw [Event.reread?, ← hd, ← hm]
  cases details <;> cases moment <;> simp [Event.ofJson?_object, hk]

/-- Free values under keys as they are read again from that depth. -/
def rereadMetadata? (depth : Nat) (t : Table Json) : Option (Table Json) :=
  t.traverse? fun j => (reread depth j).map canonical

theorem metadata_decodes (depth : Nat) (t : Table Json) :
    (map free).Decodes (asTable? asAny?) (depth + 1) (.object t.entries)
      (rereadMetadata? depth t) := by
  have h := map_decodes id (fun j => (reread depth j).map canonical)
    fun x (_ : x ∈ t.entries) => any_decodes depth x.2
  have hid : ofTable id t = .object t.entries := congrArg object (List.map_id t.entries)
  rwa [hid] at h

/-- An exchange as it is read again from that depth. -/
def Exchange.reread? (depth : Nat) (e : Exchange) : Option Exchange := do
  return { e with
    metadata := ← rereadMetadata? depth e.metadata
    moment := ← e.moment.reread? }

theorem Exchange.ofJson?_object (action prompt response metadata moment : Json) :
    Exchange.ofJson? (.object [("kind", action), ("prompt", prompt), ("response", response),
      ("metadata", metadata), ("timestamp", moment)]) = (do
      return {
        action := ← Action.ofJson? action
        prompt := ← prompt.asText?
        response := ← response.asText?
        metadata := ← metadata.asTable? asAny?
        moment := ← moment.asMoment? }) :=
  rfl

theorem Exchange.decodes (depth : Nat) (e : Exchange) :
    Exchange.reader.Decodes Exchange.ofJson? (depth + 2) e.toJson (e.reread? depth) := by
  obtain ⟨action, haction, ha⟩ := (Action.decodes (depth + 1) e.action).yields_some
  obtain ⟨metadata, hmetadata, hd⟩ := metadata_decodes depth e.metadata
  obtain ⟨moment, hmoment, hm⟩ := moment_decodes (depth + 1) e.moment
  refine ⟨_, record_yields [⟨required "kind" Action.reader, _, _, haction⟩,
    ⟨required "prompt" text, _, _, text_yields _ e.prompt⟩,
    ⟨required "response" text, _, _, text_yields _ e.response⟩,
    ⟨Reader.optional "metadata" (map free), _, _, hmetadata⟩,
    ⟨required "timestamp" timestamp, _, _, hmoment⟩] (by simp) (by simp), ?_⟩
  rw [Exchange.reread?, ← hd, ← hm]
  cases metadata <;> cases moment <;> simp [Exchange.ofJson?_object, ha]

/-! ## 4. The memory -/

def Project.reread? (p : Project) : Option Project := do
  return { p with
    createdAt := ← p.createdAt.reread?
    lastModified := ← p.lastModified.reread? }

theorem Project.ofJson?_object (id name root createdAt lastModified : Json) :
    Project.ofJson? (.object [("id", id), ("name", name), ("root", root),
      ("created_at", createdAt), ("last_modified", lastModified)]) = (do
      return {
        id := ← id.asText?
        name := ← name.asText?
        root := ← root.asText?
        createdAt := ← createdAt.asMoment?
        lastModified := ← lastModified.asMoment? }) :=
  rfl

theorem Project.decodes (depth : Nat) (p : Project) :
    Project.reader.Decodes Project.ofJson? (depth + 1) p.toJson p.reread? := by
  obtain ⟨created, hcreated, hc⟩ := moment_decodes depth p.createdAt
  obtain ⟨modified, hmodified, hm⟩ := moment_decodes depth p.lastModified
  refine ⟨_, record_yields [⟨required "id" text, _, _, text_yields _ p.id⟩,
    ⟨required "name" text, _, _, text_yields _ p.name⟩,
    ⟨required "root" text, _, _, text_yields _ p.root⟩,
    ⟨required "created_at" timestamp, _, _, hcreated⟩,
    ⟨required "last_modified" timestamp, _, _, hmodified⟩] (by simp) (by simp), ?_⟩
  rw [Project.reread?, ← hc, ← hm]
  cases created <;> cases modified <;> simp [Project.ofJson?_object]

theorem Cursor.ofJson?_object (line column : Json) :
    Cursor.ofJson? (.object [("line", line), ("column", column)]) = (do
      return {
        line := ← line.asWord?
        column := ← column.asWord? }) :=
  rfl

theorem Cursor.decodes (depth : Nat) (c : Cursor) :
    Cursor.reader.Decodes Cursor.ofJson? (depth + 1) c.toJson (some c) := by
  obtain ⟨line, hline, hl⟩ := (word_decodes depth c.line).yields_some
  obtain ⟨column, hcolumn, hc⟩ := (word_decodes depth c.column).yields_some
  refine ⟨_, record_yields [⟨required "line" (natural 64), _, _, hline⟩,
    ⟨required "column" (natural 64), _, _, hcolumn⟩] (by simp) (by simp), ?_⟩
  simp [Cursor.ofJson?_object, hl, hc]

theorem BuildState.decodes (depth : Nat) (b : BuildState) :
    BuildState.reader.Decodes BuildState.ofJson? depth b.toJson (some b) := by
  refine ⟨_, oneOf_yields ?_ depth, ?_⟩
  · exact List.mem_map_of_mem (by cases b <;> decide)
  · cases b <;> decide

theorem asOption_ofOption_text (s : Option String) :
    (ofOption .text s).asOption? asText? = some s := by
  cases s <;> rfl

theorem Editing.ofJson?_object (currentFile cursor selectedText build lastError : Json) :
    Editing.ofJson? (.object [("current_file", currentFile), ("cursor", cursor),
      ("selected_text", selectedText), ("compilation_state", build),
      ("last_error", lastError)]) = (do
      return {
        currentFile := ← currentFile.asOption? asText?
        cursor := ← Cursor.ofJson? cursor
        selectedText := ← selectedText.asText?
        build := ← BuildState.ofJson? build
        lastError := ← lastError.asOption? asText? }) :=
  rfl

theorem Editing.decodes (depth : Nat) (e : Editing) :
    Editing.reader.Decodes Editing.ofJson? (depth + 2) e.toJson (some e) := by
  obtain ⟨cursor, hcursor, hc⟩ := (Cursor.decodes depth e.cursor).yields_some
  obtain ⟨build, hbuild, hb⟩ := (BuildState.decodes (depth + 1) e.build).yields_some
  refine ⟨_, record_yields
    [⟨Reader.optional "current_file" (nullable text), _, _, nullable_text _ e.currentFile⟩,
    ⟨Reader.optional "cursor" Cursor.reader, _, _, hcursor⟩,
    ⟨Reader.optional "selected_text" text, _, _, text_yields _ e.selectedText⟩,
    ⟨Reader.optional "compilation_state" BuildState.reader, _, _, hbuild⟩,
    ⟨Reader.optional "last_error" (nullable text), _, _, nullable_text _ e.lastError⟩]
    (by simp) (by simp), ?_⟩
  simp [Editing.ofJson?_object, hc, hb, asOption_ofOption_text]

def Memory.reread? (m : Memory) : Option Memory := do
  return { m with
    project := ← m.project.reread?
    files := ← m.files.traverse? SourceFile.reread?
    events := ← m.events.mapM (Event.reread? 124)
    exchanges := ← m.exchanges.mapM (Exchange.reread? 123) }

theorem Memory.ofJson?_object (schema project files editing events exchanges : Json) :
    Memory.ofJson? (.object [("schema_version", schema), ("project", project), ("files", files),
      ("context", editing), ("history", events), ("interactions", exchanges)]) = (do
      return {
        schema := ← schema.asWord32?
        project := ← Project.ofJson? project
        files := ← files.asTable? SourceFile.ofJson?
        editing := ← Editing.ofJson? editing
        events := ← events.asList? Event.ofJson?
        exchanges := ← exchanges.asList? Exchange.ofJson? }) :=
  rfl

/-- A printed memory is decoded as the memory that is read again. -/
theorem Memory.decodes (m : Memory) :
    Memory.reader.Decodes Memory.ofJson? maxDepth m.toJson m.reread? := by
  obtain ⟨schema, hschema, hs⟩ := (word32_decodes 126 m.schema).yields_some
  obtain ⟨project, hproject, hp⟩ := Project.decodes 125 m.project
  obtain ⟨files, hfiles, hf⟩ := map_decodes SourceFile.toJson SourceFile.reread?
    fun x (_ : x ∈ m.files.entries) => SourceFile.decodes 121 x.2
  obtain ⟨editing, hediting, he⟩ := (Editing.decodes 124 m.editing).yields_some
  obtain ⟨events, hevents, hv⟩ := list_decodes fun x (_ : x ∈ m.events) => Event.decodes 124 x
  obtain ⟨exchanges, hexchanges, hx⟩ := list_decodes fun x (_ : x ∈ m.exchanges) =>
    Exchange.decodes 123 x
  refine ⟨_, record_yields [⟨required "schema_version" (natural 32), _, _, hschema⟩,
    ⟨required "project" Project.reader, _, _, hproject⟩,
    ⟨Reader.optional "files" (map SourceFile.reader), _, _, hfiles⟩,
    ⟨Reader.optional "context" Editing.reader, _, _, hediting⟩,
    ⟨Reader.optional "history" (list Event.reader), _, _, hevents⟩,
    ⟨Reader.optional "interactions" (list Exchange.reader), _, _, hexchanges⟩]
    (by simp) (by simp), ?_⟩
  rw [Memory.reread?, ← hp, ← hf, ← hv, ← hx]
  cases project <;> cases files <;> cases events <;> cases exchanges <;>
    simp [Memory.ofJson?_object, hs, he]

theorem Memory.ofText?_pretty (m : Memory) : Memory.ofText? m.toJson.pretty = m.reread? := by
  rw [Memory.ofText?, pretty, String.toList_ofList, prettyAt_eq]
  exact m.decodes.decode_spell .wide

end CodeAssist
