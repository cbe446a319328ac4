import CodeAssist.Digest
import CodeAssist.Facts.Scan
import CodeAssist.Memory.Basic
import CodeAssist.Memory.Key

/-!
How a memory changes, and what is seen of it.

Each change is a function on memories. The two logs are bounded: the newest entries stay. Whether
a change reaches the disk is no matter of this module.
-/

namespace CodeAssist

/-! ## 1. Bounded logs -/

def eventLimit : Nat := 1000

def exchangeLimit : Nat := 500

/-- `tail`: the last entries, at most `n`. -/
def latest (n : Nat) (entries : List α) : List α :=
  entries.drop (entries.length - n)

namespace Memory

/-- `push_capped`: the memory with one more event. -/
def logEvent (m : Memory) (e : Event) : Memory :=
  { m with events := latest eventLimit (m.events ++ [e]) }

def logExchange (m : Memory) (e : Exchange) : Memory :=
  { m with exchanges := latest exchangeLimit (m.exchanges ++ [e]) }

/-! ## 2. Files -/

def file? (m : Memory) (key : String) : Option SourceFile :=
  m.files.lookup key

/-- A file as it is kept, with the facts of its content. -/
def record (key content : String) (moment : Moment) : SourceFile :=
  { path := key, content, size := content.utf8ByteSize, lastModified := moment
    facts := .ofText content }

/-- The files with some put in, each in place of an older one of its path, paths ascending. -/
def putFiles (files : Table SourceFile) (new : List SourceFile) : Table SourceFile :=
  (files.putAll (new.map fun f => (f.path, f))).sorted

/-- `update_file`: the memory with a file, and with the event of it. -/
def putFile (m : Memory) (f : SourceFile) (now : Moment) : Memory :=
  { m with files := putFiles m.files [f] }.logEvent
    { kind := .fileUpdate
      details := .object [("bytes", .ofNat f.size), ("path", .text f.path)]
      moment := now }

/-! ## 3. Other changes -/

/-- `fresh_snapshot`: the memory of a new project. -/
def fresh (root : List String) (now : Moment) : Memory :=
  { schema := schemaVersion
    project :=
      { id := Digest.hex (Path.textOf root)
        name := root.getLast?.getD (Path.textOf root)
        root := Path.textOf root
        createdAt := now
        lastModified := now }
    files := .empty
    editing := .initial
    events := []
    exchanges := [] }

/-- The memory with the editing state patched. Another open file is an event. -/
def patch (m : Memory) (p : EditPatch) (now : Moment) : Memory :=
  let before := m.editing.currentFile
  let m := { m with editing := p.apply m.editing }
  if m.editing.currentFile = before then m
  else m.logEvent
    { kind := .contextChange
      details := .object [("from", Json.ofOption .text before),
        ("to", Json.ofOption .text m.editing.currentFile)]
      moment := now }

def clear (m : Memory) (now : Moment) : Memory :=
  { m with
    files := .empty
    editing := .initial
    exchanges := []
    events :=
      [{ kind := .cleared
         details := .object [("files_removed", .ofNat m.files.entries.length)]
         moment := now }] }

def touch (m : Memory) (now : Moment) : Memory :=
  { m with project := { m.project with lastModified := now } }

/-! ## 4. What is seen -/

def facts (m : Memory) : Table Facts :=
  m.files.map (·.facts)

def index (m : Memory) : FactIndex :=
  { schema := schemaVersion
    projectId := m.project.id
    generatedAt := m.project.lastModified
    files := m.facts }

def viewEvents : Nat := 10

def viewExchanges : Nat := 5

def openFile (m : Memory) : Option OpenFile := do
  let path ← m.editing.currentFile
  let f ← m.file? path
  return ⟨f.path, f.content, f.facts⟩

/-- `build_ai_context`: what prompts are made from. -/
def view (m : Memory) : View :=
  { project := m.project
    editing := m.editing
    openFile := m.openFile
    recentEvents := latest viewEvents m.events
    recentExchanges := latest viewExchanges m.exchanges
    index := m.facts
    files := m.files.entries.map (·.1) }

def stats (m : Memory) (dirty : Bool) : MemoryStats :=
  let count (items : Facts → Nat) : Nat :=
    (m.facts.entries.map fun (_, f) => items f).foldl (· + ·) 0
  { projectId := m.project.id
    projectName := m.project.name
    files := m.files.entries.length
    functions := count (·.functions.length)
    vars := count (·.vars.length)
    includes := count (·.includes.length)
    events := m.events.length
    exchanges := m.exchanges.length
    createdAt := m.project.createdAt
    lastModified := m.project.lastModified
    dirty }

end Memory

end CodeAssist
