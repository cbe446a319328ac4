import CodeAssist.Disk.Basic
import CodeAssist.Memory.Document
import CodeAssist.Memory.Import
import CodeAssist.Text.Quoted

/-!
The memory of a project on a disk.

A store holds the memory of an open project and writes it, with the index of its facts, after
every change. A change is made in memory first; if a write fails the change stays, the store is
dirty, and the next write brings all of it to the disk. A document is written beside its place and
then renamed, so that a reader never finds half of one.
-/

namespace CodeAssist

open Text (quoted)

/-! ## 1. Failures -/

inductive StoreError where
  /-- A path could not be written. -/
  | write (path : List String) (fault : Fault)
  /-- The path of a file names no file inside the project. -/
  | invalidPath (path : String)
  deriving DecidableEq, Repr, Inhabited

/-- Why a store cannot be opened. -/
inductive OpenError where
  /-- The directory of the memory cannot be made. -/
  | unavailable (path : String) (fault : Fault)
  /-- The memory cannot be read. -/
  | unreadable (path : String) (fault : Fault)
  deriving DecidableEq, Repr, Inhabited

def StoreError.message : StoreError → String
  | write path fault => s!"failed writing {quoted (Path.textOf path)}: {fault.message}"
  | invalidPath path => s!"path {quoted path} does not name a file inside the project"

def StoreError.fault? : StoreError → Option Fault
  | write _ fault => some fault
  | invalidPath _ => none

def OpenError.fault : OpenError → Fault
  | unavailable _ fault => fault
  | unreadable _ fault => fault

def OpenError.message : OpenError → String
  | unavailable path fault => s!"cannot acquire memory directory {quoted path}: {fault.message}"
  | unreadable path fault => s!"cannot read memory document {quoted path}: {fault.message}"

/-! ## 2. Places -/

def memoryDirectory : String := ".quill"

def memoryDocument : String := "memory.json"

def indexDocument : String := "index.json"

/-- `ProjectMemoryStore`: the memory of a project and the disk it is written to. -/
structure Store where
  /-- The root of the project, from the top of the disk. -/
  root : List String
  memory : Memory
  /-- Whether the last write failed. -/
  dirty : Bool
  disk : Disk

namespace Store

def directoryOf (root : List String) : List String :=
  root ++ [memoryDirectory]

def documentOf (root : List String) (name : String) : List String :=
  directoryOf root ++ [name]

/-! ## 3. Writing -/

/-- `write_atomic`: writes a document beside its place and renames it. The disk keeps what was done
before a failure. -/
def writeWhole (disk : Disk) (root : List String) (name text : String) :
    Except StoreError Unit × Disk :=
  let directory := directoryOf root
  let target := documentOf root name
  let staging := documentOf root (name ++ ".tmp")
  match disk.makeDirectories directory with
  | .error e => (.error (.write directory e), disk)
  | .ok disk =>
    match disk.write staging text with
    | .error e => (.error (.write staging e), disk)
    | .ok disk =>
      match disk.rename staging target with
      | .error e => (.error (.write target e), disk)
      | .ok disk => (.ok (), disk)

/-- `persist`: writes the memory, then the index. -/
def persist (s : Store) : Except StoreError Unit × Store :=
  match writeWhole s.disk s.root memoryDocument s.memory.toJson.pretty with
  | (.error e, disk) => (.error e, { s with disk, dirty := true })
  | (.ok (), disk) =>
    match writeWhole disk s.root indexDocument s.memory.index.toJson.pretty with
    | (.error e, disk) => (.error e, { s with disk, dirty := true })
    | (.ok (), disk) => (.ok (), { s with disk, dirty := false })

/-- Writes if an earlier write failed, and says whether it wrote. -/
def flush (s : Store) : Except StoreError Bool × Store :=
  if s.dirty then
    let (result, s) := s.persist
    (result.map fun _ => true, s)
  else (.ok false, s)

/-- `mutate`: the store with its memory changed, and not yet written. -/
def changed (s : Store) (now : Moment) (change : Memory → Memory) : Store :=
  { s with memory := (change s.memory).touch now }

/-! ## 4. Opening -/

/-- The memory document of a project, if there is one that can be understood. One that cannot is
put aside. -/
def load (disk : Disk) (root : List String) : Except OpenError (Option Memory × Disk) :=
  let path := documentOf root memoryDocument
  match disk.read path with
  | .error .notFound => .ok (none, disk)
  | .error e => .error (.unreadable (Path.textOf path) e)
  | .ok text =>
    match (Memory.ofText? text).filter (·.schema ≤ schemaVersion) with
    | some memory => .ok (some memory, disk)
    | none =>
      match disk.rename path (documentOf root (memoryDocument ++ ".corrupt")) with
      | .ok disk => .ok (none, disk)
      | .error _ => .ok (none, disk)

/-- `initialize`: opens the project at a root, which `asked` names. A new memory is written at once;
if that fails it is written later. -/
def openAt (disk : Disk) (root : List String) (asked : String) (now : Moment) :
    Except OpenError Store :=
  match disk.makeDirectories root with
  | .error e => .error (.unavailable asked e)
  | .ok disk =>
    match disk.makeDirectories (directoryOf root) with
    | .error e => .error (.unavailable (Path.textOf (directoryOf root)) e)
    | .ok disk => do
      let (memory, disk) ← load disk root
      match memory with
      | some memory => return { root, memory, dirty := false, disk }
      | none =>
        let new : Store := { root, memory := .fresh root now, dirty := true, disk }
        return new.flush.2

/-! ## 5. Updates -/

inductive ImportError where
  | refused (refusal : ImportRefusal)
  | store (error : StoreError)
  deriving DecidableEq, Repr, Inhabited

def ImportError.message : ImportError → String
  | refused refusal => refusal.message
  | store error => error.message

inductive Update (ε α : Type) where
  /-- It changes nothing, and nothing is written. -/
  | idle (answer : Except ε α)
  /-- It changes the memory, which is written. The answer comes from the changed memory. -/
  | change (change : Memory → Memory) (answer : Memory → α) (failure : StoreError → ε)

namespace Update

def file (root : List String) (path content : String) (now : Moment) :
    Update StoreError SourceFile :=
  let key := fileKey root path
  if key.isEmpty then .idle (.error (.invalidPath path))
  else
    let f := Memory.record key content now
    .change (·.putFile f now) (fun _ => f) id

/-- Patches an editing state. A patch that changes nothing is not written. -/
def editing (current : Editing) (p : EditPatch) (now : Moment) : Update StoreError Editing :=
  if p.changes current then .change (·.patch p now) (·.editing) id else .idle (.ok current)

def event (kind : EventKind) (details : Json) (now : Moment) : Update StoreError Unit :=
  .change (·.logEvent ⟨kind, details, now⟩) (fun _ => ()) id

def exchange (action : Action) (prompt response : String) (metadata : Table Json)
    (now : Moment) : Update StoreError Unit :=
  .change (·.logExchange ⟨action, prompt, response, metadata, now⟩) (fun _ => ()) id

def clearing (now : Moment) : Update StoreError Unit :=
  .change (·.clear now) (fun _ => ()) id

def document (root : List String) (j : Json) (now : Moment) : Update ImportError ImportSummary :=
  match CheckedImport.ofJson j root now with
  | .error e => .idle (.error (.refused e))
  | .ok checked => .change (·.merge checked now) (fun _ => checked.summary) .store

/-- Merges the document of a text into the memory of the project at a root. -/
def documentText (root : List String) (text : String) (now : Moment) :
    Update ImportError ImportSummary :=
  match Json.read text with
  | some j => document root j now
  | none => .idle (.error (.refused .undecodable))

end Update

def update (s : Store) (u : Update ε α) (now : Moment) : Except ε α × Store :=
  match u with
  | .idle answer => (answer, s)
  | .change change answer failure =>
    let s := s.changed now change
    let (result, written) := s.persist
    match result with
    | .ok () => (.ok (answer s.memory), written)
    | .error e => (.error (failure e), written)

def updateFile (s : Store) (path content : String) (now : Moment) :
    Except StoreError SourceFile × Store :=
  s.update (.file s.root path content now) now

/-- `update_context`: patches the editing state. -/
def updateEditing (s : Store) (p : EditPatch) (now : Moment) :
    Except StoreError Editing × Store :=
  s.update (.editing s.memory.editing p now) now

/-- `add_history`: logs an event. -/
def addEvent (s : Store) (kind : EventKind) (details : Json) (now : Moment) :
    Except StoreError Unit × Store :=
  s.update (.event kind details now) now

/-- `add_interaction`: logs an exchange. -/
def addExchange (s : Store) (action : Action) (prompt response : String)
    (metadata : Table Json) (now : Moment) : Except StoreError Unit × Store :=
  s.update (.exchange action prompt response metadata now) now

def clear (s : Store) (now : Moment) : Except StoreError Unit × Store :=
  s.update (.clearing now) now

def importJson (s : Store) (j : Json) (now : Moment) : Except ImportError ImportSummary × Store :=
  s.update (.document s.root j now) now

def importText (s : Store) (text : String) (now : Moment) :
    Except ImportError ImportSummary × Store :=
  s.update (.documentText s.root text now) now

/-! ## 6. What is seen -/

def file? (s : Store) (path : String) : Option SourceFile :=
  s.memory.file? (fileKey s.root path)

/-- `recent_history`: the newest events. -/
def recentEvents (s : Store) (limit : Nat) : List Event :=
  latest limit s.memory.events

/-- `recent_interactions`: the newest exchanges. -/
def recentExchanges (s : Store) (limit : Nat) : List Exchange :=
  latest limit s.memory.exchanges

def view (s : Store) : View :=
  s.memory.view

def stats (s : Store) : MemoryStats :=
  s.memory.stats s.dirty

def exportText (s : Store) : String :=
  s.memory.toJson.pretty

end Store

end CodeAssist
