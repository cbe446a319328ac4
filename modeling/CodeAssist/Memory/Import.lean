import CodeAssist.Json.Parser
import CodeAssist.Memory.Change

/-!
Memory documents that come from elsewhere.

A document is read and checked as a whole before anything changes. Then its files take the place
of those of the same key, its log entries come after those that are there, and its editing state,
if it has one, replaces the old one. What the document says about sizes and facts is not believed.
-/

namespace CodeAssist

/-! ## 1. Documents -/

structure ImportedFile where
  content : String
  lastModified : Option Moment
  deriving DecidableEq, Repr, Inhabited

def ImportedFile.ofJson? (j : Json) : Option ImportedFile := do
  let [content, lastModified] ← j.slots? ["content", "last_modified"] | none
  return {
    content := ← content.required Json.asText?
    lastModified := ← lastModified.optional Json.asMoment? }

structure ImportDocument where
  schema : Option UInt32
  /-- Files by path, as the document names them. -/
  files : Table ImportedFile
  editing : Option Editing
  events : List Event
  exchanges : List Exchange
  deriving Repr, Inhabited

def ImportDocument.ofJson? (j : Json) : Option ImportDocument := do
  let [schema, files, editing, events, exchanges] ←
    j.slots? ["schema_version", "files", "context", "history", "interactions"] | none
  return {
    schema := ← schema.optional Json.asWord32?
    files := ← files.default .empty (Json.asTable? ImportedFile.ofJson?)
    editing := ← editing.optional Editing.ofJson?
    events := ← events.default [] (Json.asList? Event.ofJson?)
    exchanges := ← exchanges.default [] (Json.asList? Exchange.ofJson?) }

/-! ## 2. Checking -/

inductive ImportRefusal where
  /-- It is no object. -/
  | notAnObject
  /-- It is not JSON, or JSON of another shape. -/
  | undecodable
  | newerSchema (version : UInt32)
  | escapingPath (path : String)
  | emptyPath
  deriving DecidableEq, Repr, Inhabited

namespace ImportRefusal

def isMalformed : ImportRefusal → Bool
  | notAnObject => true
  | undecodable => true
  | _ => false

/-- What is wrong, if there is more to say than that it is no memory document. -/
def reason? : ImportRefusal → Option String
  | notAnObject => some "expected a JSON object"
  | undecodable => none
  | newerSchema version =>
    some s!"schema version {version.toNat} is newer than supported {schemaVersion.toNat}"
  | escapingPath path => some s!"file path `{path}` escapes the project root"
  | emptyPath => some "file with empty path"

def message (r : ImportRefusal) : String :=
  let lead :=
    if r.isMalformed then "import payload is not a memory document"
    else "import payload failed validation"
  lead ++ ((r.reason?.map (": " ++ ·)).getD "")

end ImportRefusal

def checkFiles (root : List String) (now : Moment) :
    List (String × ImportedFile) → Except ImportRefusal (List SourceFile)
  | [] => .ok []
  | (text, f) :: rest =>
    let path := Path.ofText text
    let key := fileKey root text
    if path.absolute || path.goesUp then .error (.escapingPath text)
    else if key.isEmpty then .error .emptyPath
    else do
      let files ← checkFiles root now rest
      return Memory.record key f.content (f.lastModified.getD now) :: files

/-- `ValidatedImport`: what a document brings. -/
structure CheckedImport where
  files : List SourceFile
  editing : Option Editing
  events : List Event
  exchanges : List Exchange
  deriving Repr, Inhabited

/-- `validate_import`: what a document brings, or why it is refused. -/
def ImportDocument.check (d : ImportDocument) (root : List String) (now : Moment) :
    Except ImportRefusal CheckedImport :=
  match d.schema.filter (schemaVersion < ·) with
  | some version => .error (.newerSchema version)
  | none => do
    let files ← checkFiles root now d.files.entries
    return ⟨files, d.editing, d.events, d.exchanges⟩

def CheckedImport.ofJson (j : Json) (root : List String) (now : Moment) :
    Except ImportRefusal CheckedImport :=
  if j.isObject then
    match ImportDocument.ofJson? j with
    | some document => document.check root now
    | none => .error .undecodable
  else .error .notAnObject

/-! ## 3. Merging -/

structure ImportSummary where
  files : Nat
  events : Nat
  exchanges : Nat
  editingReplaced : Bool
  deriving DecidableEq, Repr, Inhabited

def ImportSummary.toJson (s : ImportSummary) : Json :=
  .object [("files", .ofNat s.files), ("history", .ofNat s.events),
    ("interactions", .ofNat s.exchanges), ("context_replaced", .bool s.editingReplaced)]

def CheckedImport.summary (c : CheckedImport) : ImportSummary :=
  ⟨c.files.length, c.events.length, c.exchanges.length, c.editing.isSome⟩

/-- `import`: the memory with what a document brings. -/
def Memory.merge (m : Memory) (c : CheckedImport) (now : Moment) : Memory :=
  let m :=
    { m with
      files := putFiles m.files c.files
      editing := c.editing.getD m.editing
      events := m.events ++ c.events
      exchanges := latest exchangeLimit (m.exchanges ++ c.exchanges) }
  m.logEvent
    { kind := .imported
      details := .object [("files", .ofNat c.files.length), ("history", .ofNat c.events.length),
        ("interactions", .ofNat c.exchanges.length)]
      moment := now }

end CodeAssist
