import CodeAssist.Facts.Basic
import CodeAssist.Memory.Editing
import CodeAssist.Text.Line

/-!
The memory of a project: its files with their facts, the editing state, a log of events and a log
of exchanges with providers.

`Memory` is the whole of it, as it is kept on disk. `View` is the part that prompts are made
from.
-/

namespace CodeAssist

/-! ## 1. Projects and files -/

structure Project where
  /-- Derived from the root. -/
  id : String
  name : String
  root : String
  createdAt : Moment
  lastModified : Moment
  deriving DecidableEq, Repr, Inhabited

def Project.toJson (p : Project) : Json :=
  .object [("id", .text p.id), ("name", .text p.name), ("root", .text p.root),
    ("created_at", .ofMoment p.createdAt), ("last_modified", .ofMoment p.lastModified)]

def Project.ofJson? (j : Json) : Option Project := do
  let [id, name, root, createdAt, lastModified] ←
    j.slots? ["id", "name", "root", "created_at", "last_modified"] | none
  return {
    id := ← id.required Json.asText?
    name := ← name.required Json.asText?
    root := ← root.required Json.asText?
    createdAt := ← createdAt.required Json.asMoment?
    lastModified := ← lastModified.required Json.asMoment? }

/-- `FileRecord`: a file as it is kept. -/
structure SourceFile where
  /-- Path from the root, its parts separated by slashes. -/
  path : String
  content : String
  /-- Length of the content in bytes. -/
  size : Nat
  lastModified : Moment
  facts : Facts
  deriving DecidableEq, Repr, Inhabited

def SourceFile.toJson (f : SourceFile) : Json :=
  .object [("path", .text f.path), ("content", .text f.content), ("size", .ofNat f.size),
    ("last_modified", .ofMoment f.lastModified), ("facts", f.facts.toJson)]

def SourceFile.ofJson? (j : Json) : Option SourceFile := do
  let [path, content, size, lastModified, facts] ←
    j.slots? ["path", "content", "size", "last_modified", "facts"] | none
  return {
    path := ← path.required Json.asText?
    content := ← content.required Json.asText?
    size := ← size.required Json.asNat?
    lastModified := ← lastModified.required Json.asMoment?
    facts := ← facts.default .empty Facts.ofJson? }

/-! ## 2. The logs -/

/-- `HistoryKind`: what an event is about. -/
inductive EventKind where
  | compilation
  | execution
  | fileUpdate
  | contextChange
  | imported
  | cleared
  deriving DecidableEq, Repr, Inhabited

namespace EventKind

def name : EventKind → String
  | compilation => "compilation"
  | execution => "execution"
  | fileUpdate => "file_update"
  | contextChange => "context_change"
  | imported => "import"
  | cleared => "clear"

def all : List EventKind :=
  [compilation, execution, fileUpdate, contextChange, imported, cleared]

def ofName? (s : String) : Option EventKind :=
  all.find? fun v => v.name == s

def toJson (k : EventKind) : Json :=
  .text k.name

def ofJson? (j : Json) : Option EventKind :=
  j.asName?.bind ofName?

end EventKind

/-- `HistoryEntry`: an entry of the log of events, `history` in documents. -/
structure Event where
  kind : EventKind
  details : Json
  moment : Moment
  deriving Repr, Inhabited

def Event.toJson (e : Event) : Json :=
  .object [("action", e.kind.toJson), ("details", e.details), ("timestamp", .ofMoment e.moment)]

def Json.asAny? (j : Json) : Option Json :=
  some j.canonical

def Event.ofJson? (j : Json) : Option Event := do
  let [kind, details, moment] ← j.slots? ["action", "details", "timestamp"] | none
  return {
    kind := ← kind.required EventKind.ofJson?
    details := ← details.default .null Json.asAny?
    moment := ← moment.required Json.asMoment? }

/-- `AiInteraction`: a prompt and its answer, an entry of `interactions`. -/
structure Exchange where
  action : Action
  prompt : String
  response : String
  metadata : Table Json
  moment : Moment
  deriving Repr, Inhabited

def Exchange.toJson (e : Exchange) : Json :=
  .object [("kind", e.action.toJson), ("prompt", .text e.prompt), ("response", .text e.response),
    ("metadata", .object e.metadata.entries), ("timestamp", .ofMoment e.moment)]

def Exchange.ofJson? (j : Json) : Option Exchange := do
  let [action, prompt, response, metadata, moment] ←
    j.slots? ["kind", "prompt", "response", "metadata", "timestamp"] | none
  return {
    action := ← action.required Action.ofJson?
    prompt := ← prompt.required Json.asText?
    response := ← response.required Json.asText?
    metadata := ← metadata.default .empty (Json.asTable? Json.asAny?)
    moment := ← moment.required Json.asMoment? }

/-! ## 3. The memory -/

/-- The version of the documents this library writes. -/
def schemaVersion : UInt32 := 1

/-- `MemorySnapshot`: all that is kept of a project. -/
structure Memory where
  schema : UInt32
  project : Project
  /-- Files by path, paths ascending. -/
  files : Table SourceFile
  editing : Editing
  /-- Oldest first. -/
  events : List Event
  /-- Oldest first. -/
  exchanges : List Exchange
  deriving Repr, Inhabited

def Memory.toJson (m : Memory) : Json :=
  .object [("schema_version", .ofNat m.schema.toNat), ("project", m.project.toJson),
    ("files", Json.ofTable SourceFile.toJson m.files), ("context", m.editing.toJson),
    ("history", .array (m.events.map Event.toJson)),
    ("interactions", .array (m.exchanges.map Exchange.toJson))]

def Memory.ofJson? (j : Json) : Option Memory := do
  let [schema, project, files, editing, events, exchanges] ←
    j.slots? ["schema_version", "project", "files", "context", "history", "interactions"] | none
  return {
    schema := ← schema.required Json.asWord32?
    project := ← project.required Project.ofJson?
    files := ← files.default .empty (Json.asTable? SourceFile.ofJson?)
    editing := ← editing.default .initial Editing.ofJson?
    events := ← events.default [] (Json.asList? Event.ofJson?)
    exchanges := ← exchanges.default [] (Json.asList? Exchange.ofJson?) }

/-- `IndexDocument`: the facts of every file, as they are kept beside the memory. -/
structure FactIndex where
  schema : UInt32
  projectId : String
  generatedAt : Moment
  files : Table Facts
  deriving Repr, Inhabited

def FactIndex.toJson (i : FactIndex) : Json :=
  .object [("schema_version", .ofNat i.schema.toNat), ("project_id", .text i.projectId),
    ("generated_at", .ofMoment i.generatedAt), ("files", Json.ofTable Facts.toJson i.files)]

def FactIndex.ofJson? (j : Json) : Option FactIndex := do
  let [schema, projectId, generatedAt, files] ←
    j.slots? ["schema_version", "project_id", "generated_at", "files"] | none
  return {
    schema := ← schema.required Json.asWord32?
    projectId := ← projectId.required Json.asText?
    generatedAt := ← generatedAt.required Json.asMoment?
    files := ← files.required (Json.asTable? Facts.ofJson?) }

/-! ## 4. Views -/

/-- `CurrentFile`: the open file as a view shows it. -/
structure OpenFile where
  path : String
  content : String
  facts : Facts
  deriving DecidableEq, Repr, Inhabited

def OpenFile.toJson (f : OpenFile) : Json :=
  .object [("path", .text f.path), ("content", .text f.content), ("facts", f.facts.toJson)]

def OpenFile.ofJson? (j : Json) : Option OpenFile := do
  let [path, content, facts] ← j.slots? ["path", "content", "facts"] | none
  return {
    path := ← path.required Json.asText?
    content := ← content.required Json.asText?
    facts := ← facts.required Facts.ofJson? }

/-- `AiContextSnapshot`: what prompts are made from. -/
structure View where
  project : Project
  editing : Editing
  openFile : Option OpenFile
  recentEvents : List Event
  recentExchanges : List Exchange
  /-- Facts by path, paths ascending. -/
  index : Table Facts
  files : List String
  deriving Repr, Inhabited

namespace View

def toJson (v : View) : Json :=
  .object [("project", v.project.toJson), ("context", v.editing.toJson),
    ("current_file", Json.ofOption OpenFile.toJson v.openFile),
    ("recent_history", .array (v.recentEvents.map Event.toJson)),
    ("recent_interactions", .array (v.recentExchanges.map Exchange.toJson)),
    ("index", Json.ofTable Facts.toJson v.index), ("files", Json.ofTexts v.files)]

def ofJson? (j : Json) : Option View := do
  let [project, editing, openFile, recentEvents, recentExchanges, index, files] ←
    j.slots? ["project", "context", "current_file", "recent_history", "recent_interactions",
      "index", "files"] | none
  return {
    project := ← project.required Project.ofJson?
    editing := ← editing.required Editing.ofJson?
    openFile := ← openFile.nullable OpenFile.ofJson?
    recentEvents := ← recentEvents.required (Json.asList? Event.ofJson?)
    recentExchanges := ← recentExchanges.required (Json.asList? Exchange.ofJson?)
    index := ← index.required (Json.asTable? Facts.ofJson?)
    files := ← files.required Json.asTexts? }

def includes (v : View) : List String :=
  (v.openFile.map fun f => f.facts.includes.map (·.header)).getD []

/-- `facts_current_first`: the facts of the index, those of the open file first. -/
def factsOpenFirst (v : View) : List Facts :=
  let current := v.openFile.map (·.path)
  (current.bind fun path => v.index.lookup path).toList ++
    (v.index.entries.filter fun (path, _) => some path != current).map (·.2)

/-- `known_functions`: names of the functions of the project, those of the open file first, each
once. -/
def knownFunctions (v : View) : List String :=
  Text.firsts [] (v.factsOpenFirst.flatMap fun facts => facts.functions.map (·.name))

/-- `known_variables`: names of the variables of the project, those of the open file first, each
once. -/
def knownVariables (v : View) : List String :=
  Text.firsts [] (v.factsOpenFirst.flatMap fun facts => facts.vars.map (·.name))

end View

/-! ## 5. Numbers about a memory -/

/-- Counts and dates of a memory, and whether changes wait to be written. -/
structure MemoryStats where
  projectId : String
  projectName : String
  files : Nat
  functions : Nat
  vars : Nat
  includes : Nat
  events : Nat
  exchanges : Nat
  createdAt : Moment
  lastModified : Moment
  dirty : Bool
  deriving DecidableEq, Repr, Inhabited

def MemoryStats.toJson (s : MemoryStats) : Json :=
  .object [("project_id", .text s.projectId), ("project_name", .text s.projectName),
    ("files", .ofNat s.files), ("functions", .ofNat s.functions),
    ("variables", .ofNat s.vars), ("imports", .ofNat s.includes),
    ("history", .ofNat s.events), ("interactions", .ofNat s.exchanges),
    ("created_at", .ofMoment s.createdAt), ("last_modified", .ofMoment s.lastModified),
    ("dirty", .bool s.dirty)]

def MemoryStats.ofJson? (j : Json) : Option MemoryStats := do
  let [projectId, projectName, files, functions, vars, includes, events, exchanges,
      createdAt, lastModified, dirty] ←
    j.slots? ["project_id", "project_name", "files", "functions", "variables", "imports",
      "history", "interactions", "created_at", "last_modified", "dirty"] | none
  return {
    projectId := ← projectId.required Json.asText?
    projectName := ← projectName.required Json.asText?
    files := ← files.required Json.asNat?
    functions := ← functions.required Json.asNat?
    vars := ← vars.required Json.asNat?
    includes := ← includes.required Json.asNat?
    events := ← events.required Json.asNat?
    exchanges := ← exchanges.required Json.asNat?
    createdAt := ← createdAt.required Json.asMoment?
    lastModified := ← lastModified.required Json.asMoment?
    dirty := ← dirty.required Json.asBool? }

end CodeAssist
