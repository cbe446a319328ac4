import CodeAssist.Memory.Import
import CodeAssist.Proofs.Memory.Reread

/-!
Exported memories as documents.

An exported memory is read as a free value first, its objects as maps, and the document is taken
from that value. `Memory.retold?` says what document it is: the files by key with their contents and
moments, the editing state, and the logs with their free values read again. Maps come in the order
of their keys, so the metadata of an exchange may be in another order than before.
-/

namespace CodeAssist

open Json Json.Reader List Option

/-! ## 1. Free values -/

/-- What a printed value is understood as when it is read as a free value first. -/
def Json.Retold (item : Json → Option α) (depth : Nat) (j : Json) (a : Option α) : Prop :=
  ((reread depth j).map canonical).bind item = a

@[simp] theorem canonical_text (s : String) : canonical (.text s) = .text s :=
  rfl

theorem list_retold {item : Json → Option α} {depth : Nat} (enc : β → Json) {dec : β → Option α}
    {xs : List β} (h : ∀ x ∈ xs, Retold item depth (enc x) (dec x)) :
    Retold (asList? item) (depth + 1) (.array (xs.map enc)) (xs.mapM dec) := by
  have hitems : ∀ x ∈ xs, ((reread depth (enc x)).bind fun j => item (canonical j)) = dec x := by
    intro x hx
    rw [← h x hx, bind_map]
    rfl
  rw [Retold, reread, rereadItems_eq_mapM, mapM_map, ← mapM_congr hitems, ← mapM_bind_mapM]
  change ((xs.mapM fun x => reread depth (enc x)).map array |>.map canonical).bind _ = _
  cases xs.mapM fun x => reread depth (enc x) with
  | none => rfl
  | some js =>
    change readItems item (canonicalItems js) = js.mapM fun j => item (canonical j)
    rw [readItems_eq_mapM, canonicalItems_eq_map, mapM_map]
    rfl

/-- Fields as they are in the canonical form of their object. -/
def canonicalTable (fs : List (String × Json)) : Table Json :=
  ⟨canonicalFields [] fs, (canonicalFields_ascending fs .nil).nodup⟩

theorem metadata_retold (depth : Nat) (entries : List (String × Json)) :
    Retold (asTable? asAny?) (depth + 1) (.object entries)
      ((rereadFields depth entries).map canonicalTable) := by
  rw [Retold, reread]
  cases rereadFields depth entries with
  | none => rfl
  | some fs =>
    have hfixed : ∀ f ∈ canonicalFields [] fs,
        ((asAny? f.2).map fun v => (f.1, v)) = some f := by
      intro f hf
      rcases mem_canonicalFields fs hf with hnil | hmem
      · cases hnil
      · obtain ⟨g, hg, rfl⟩ := mem_map.1 hmem
        exact congrArg some (canonicalFields_fixed fs g hg)
    change readEntries asAny? .empty (canonicalFields [] fs) = some (canonicalTable fs)
    rw [readEntries_eq, mapM_eq_self_iff.2 hfixed, map_some]
    exact congrArg some (canonicalTable fs).putAll_entries

/-! ## 2. Records -/

theorem Event.ofJson?_canonical (kind details moment : Json) :
    Event.ofJson? (canonical (.object [("action", kind), ("details", details),
      ("timestamp", moment)])) = (do
      return {
        kind := ← EventKind.ofJson? (canonical kind)
        details := ← (canonical details).asAny?
        moment := ← (canonical moment).asMoment? }) :=
  (rfl)

theorem asMoment?_canonical (t : Moment) :
    (canonical (ofMoment t)).asMoment? = t.reread? := by
  have htext : canonical (ofMoment t) = .text t.toText := rfl
  rw [htext, asMoment?, asText?_text, bind_some, Moment.reread?]

theorem Event.retold (depth : Nat) (e : Event) :
    Retold Event.ofJson? (depth + 1) e.toJson (e.reread? depth) := by
  have hkind : EventKind.ofJson? (canonical e.kind.toJson) = some e.kind :=
    EventKind.ofJson?_toJson e.kind
  have hread : reread depth e.kind.toJson = some e.kind.toJson := reread_text ..
  have hmoment : reread depth (ofMoment e.moment) = some (ofMoment e.moment) := reread_text ..
  rw [Retold, Event.toJson, reread, Event.reread?]
  simp only [rereadFields, hread, hmoment]
  cases reread depth e.details with
  | none => simp
  | some details =>
    simp [Event.ofJson?_canonical, hkind, asMoment?_canonical, asAny?]

/-- An exchange as it comes back in a document. -/
def Exchange.retold? (depth : Nat) (e : Exchange) : Option Exchange := do
  return { e with
    metadata := ← (rereadFields depth e.metadata.entries).map canonicalTable
    moment := ← e.moment.reread? }

theorem Exchange.ofJson?_canonical (action prompt response metadata moment : Json) :
    Exchange.ofJson? (canonical (.object [("kind", action), ("prompt", prompt),
      ("response", response), ("metadata", metadata), ("timestamp", moment)])) = (do
      return {
        action := ← Action.ofJson? (canonical action)
        prompt := ← (canonical prompt).asText?
        response := ← (canonical response).asText?
        metadata := ← (canonical metadata).asTable? asAny?
        moment := ← (canonical moment).asMoment? }) :=
  (rfl)

theorem Exchange.retold (depth : Nat) (e : Exchange) :
    Retold Exchange.ofJson? (depth + 2) e.toJson (e.retold? depth) := by
  have haction : Action.ofJson? (canonical e.action.toJson) = some e.action :=
    Action.ofJson?_toJson e.action
  have hread : reread (depth + 1) e.action.toJson = some e.action.toJson := reread_text ..
  have hmoment : reread (depth + 1) (ofMoment e.moment) = some (ofMoment e.moment) :=
    reread_text ..
  have hmetadata := metadata_retold depth e.metadata.entries
  rw [Retold] at hmetadata
  rw [Retold, Exchange.toJson, reread, Exchange.retold?, ← hmetadata]
  simp only [rereadFields, hread, hmoment, reread_text]
  cases reread (depth + 1) (object e.metadata.entries) with
  | none => simp
  | some metadata => simp [Exchange.ofJson?_canonical, haction, asMoment?_canonical]

theorem Cursor.ofJson?_canonical (c : Cursor) : Cursor.ofJson? (canonical c.toJson) = some c :=
  Cursor.ofJson?_toJson c

theorem Editing.ofJson?_canonical (e : Editing) :
    Editing.ofJson? (canonical e.toJson) = some e := by
  have hread : Editing.ofJson? (canonical e.toJson) = (do
      return {
        currentFile := ← (canonical (ofOption .text e.currentFile)).asOption? asText?
        cursor := ← Cursor.ofJson? (canonical e.cursor.toJson)
        selectedText := e.selectedText
        build := ← BuildState.ofJson? e.build.toJson
        lastError := ← (canonical (ofOption .text e.lastError)).asOption? asText? }) :=
    (rfl)
  have htext (s : Option String) : canonical (ofOption .text s) = ofOption .text s := by
    cases s <;> rfl
  simp [hread, htext, asOption_ofOption_text, Cursor.ofJson?_canonical]

theorem ImportedFile.ofJson?_canonical (path content size lastModified facts : Json) :
    ImportedFile.ofJson? (canonical (.object [("path", path), ("content", content),
      ("size", size), ("last_modified", lastModified), ("facts", facts)])) = (do
      return {
        content := ← (canonical content).asText?
        lastModified := ← (canonical lastModified).asOption? asMoment? }) :=
  (rfl)

def SourceFile.imported (f : SourceFile) : ImportedFile :=
  ⟨f.content, some f.lastModified⟩

theorem SourceFile.reread_toJson {f : SourceFile} (h : f.Fits) (depth : Nat) :
    reread (depth + 4) f.toJson = some f.toJson :=
  reread_object (by simp [ofMoment, reread_ofNat _ h.size, Facts.reread_toJson h.facts])

theorem SourceFile.ofJson?_imported (f : SourceFile) :
    ImportedFile.ofJson? (canonical f.toJson) = some f.imported := by
  have hmoment : (canonical (ofMoment f.lastModified)).asOption? asMoment? =
      some (some f.lastModified) := by
    change ((ofMoment f.lastModified).asMoment?).map some = _
    rw [asMoment?_ofMoment]
    rfl
  rw [SourceFile.toJson, ImportedFile.ofJson?_canonical, hmoment]
  rfl

theorem Project.reread_toJson (depth : Nat) (p : Project) :
    reread (depth + 1) p.toJson = some p.toJson :=
  reread_object (by simp [ofMoment])

/-! ## 3. The document -/

theorem asTable?_canonical_ofTable {item : Json → Option β} {enc : α → Json} {dec : α → β}
    {t : Table α} (hkeys : Ascending t.entries)
    (h : ∀ x ∈ t.entries, item (canonical (enc x.2)) = some (dec x.2)) :
    (canonical (ofTable enc t)).asTable? item = some (t.map dec) := by
  have hfields : Ascending (t.entries.map fun x => (x.1, enc x.2)) := pairwise_map.2 hkeys
  have hread : (((t.entries.map fun x => (x.1, enc x.2)).map canonicalField).mapM fun f =>
      (item f.2).map fun a => (f.1, a)) = some (t.map dec).entries := by
    rw [List.map_map, mapM_map, mapM_eq_some_iff, Table.map, forall₂_map_right_iff,
      forall₂_same]
    intro x hx
    change ((item (canonical (enc x.2))).map fun a => (x.1, a)) = some (x.1, dec x.2)
    rw [h x hx]
    rfl
  rw [ofTable, canonical, asTable?, canonicalFields_of_ascending _ hfields, nil_append,
    readEntries_eq, hread, map_some, Table.putAll_entries]

theorem ImportDocument.ofJson?_canonical
    (schema project files editing events exchanges : Json) :
    ImportDocument.ofJson? (canonical (.object [("schema_version", schema), ("project", project),
      ("files", files), ("context", editing), ("history", events),
      ("interactions", exchanges)])) = (do
      return {
        schema := ← (canonical schema).asOption? asWord32?
        files := ← (canonical files).asTable? ImportedFile.ofJson?
        editing := ← (canonical editing).asOption? Editing.ofJson?
        events := ← (canonical events).asList? Event.ofJson?
        exchanges := ← (canonical exchanges).asList? Exchange.ofJson? }) :=
  (rfl)

/-- The document that an exported memory is. The depths are those at which free values stand in
it. -/
def Memory.retold? (m : Memory) : Option ImportDocument := do
  return {
    schema := some m.schema
    files := m.files.map SourceFile.imported
    editing := some m.editing
    events := ← m.events.mapM (Event.reread? 124)
    exchanges := ← m.exchanges.mapM (Exchange.retold? 123) }

/-- An exported memory is read as the document it is. -/
theorem Memory.retold {m : Memory} (h : m.Fits) (hkeys : Ascending m.files.entries) :
    Retold ImportDocument.ofJson? maxDepth m.toJson m.retold? := by
  have hschema : reread 126 (.ofNat m.schema.toNat) = some (.ofNat m.schema.toNat) :=
    reread_ofNat 126 (Nat.lt_trans m.schema.toNat_lt (by decide))
  have hfiles : reread 126 (ofTable SourceFile.toJson m.files) =
      some (ofTable SourceFile.toJson m.files) :=
    reread_ofTable SourceFile.toJson fun e he => SourceFile.reread_toJson (h e he) 121
  have hproject : reread 126 m.project.toJson = some m.project.toJson :=
    Project.reread_toJson 125 m.project
  have hediting : reread 126 m.editing.toJson = some m.editing.toJson :=
    Editing.reread_toJson 124 m.editing
  have hversion : (canonical (.ofNat m.schema.toNat)).asOption? asWord32? =
      some (some m.schema) := by
    have hfits : m.schema.toNat < Nat.pow 2 32 := m.schema.toNat_lt
    change (if m.schema.toNat < Nat.pow 2 32 then some (UInt32.ofNat m.schema.toNat)
      else none).map some = _
    rw [if_pos hfits, UInt32.ofNat_toNat]
    rfl
  have hmap := asTable?_canonical_ofTable hkeys fun e _ => SourceFile.ofJson?_imported e.2
  have hstate : (canonical m.editing.toJson).asOption? Editing.ofJson? = some (some m.editing) := by
    change (Editing.ofJson? (canonical m.editing.toJson)).map some = _
    rw [Editing.ofJson?_canonical]
    rfl
  have hevents := list_retold Event.toJson fun e (_ : e ∈ m.events) => Event.retold 124 e
  have hexchanges :=
    list_retold Exchange.toJson fun e (_ : e ∈ m.exchanges) => Exchange.retold 123 e
  rw [Retold] at hevents hexchanges
  rw [Retold, Memory.retold?, ← hevents, ← hexchanges, Memory.toJson]
  change (((rereadFields 126 _).map object).map canonical).bind _ = _
  simp only [rereadFields, hschema, hproject, hfiles, hediting]
  cases reread 126 (array (m.events.map Event.toJson)) with
  | none => simp
  | some events =>
    cases reread 126 (array (m.exchanges.map Exchange.toJson)) with
    | none => simp
    | some exchanges => simp [ImportDocument.ofJson?_canonical, hversion, hmap, hstate]

theorem Memory.read_export {m : Memory} (h : m.Fits) (hkeys : Ascending m.files.entries) :
    (Json.read m.toJson.pretty).bind ImportDocument.ofJson? = m.retold? := by
  rw [Json.read, Json.parse_pretty]
  exact Memory.retold h hkeys

end CodeAssist
