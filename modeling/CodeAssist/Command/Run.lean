import CodeAssist.Command.Arguments
import CodeAssist.Command.Sources
import CodeAssist.Disk.Trail
import CodeAssist.Session.Build
import CodeAssist.Session.Request
import CodeAssist.Settings
import CodeAssist.Toolchain.Process

/-!
The program of the command line: it opens a project, does one task, and closes it.
-/

namespace CodeAssist.Command

/-! ## 1. Outcomes -/

inductive Failure where
  /-- With a sentence. -/
  | sentence (text : String)
  /-- An import was refused or not written. -/
  | notImported (error : Store.ImportError)
  /-- The task panicked. -/
  | panicked (panic : Prompt.Panic)

def Failure.message : Failure → String
  | sentence text => text
  | notImported error => error.message
  | panicked panic => panic.message

inductive Outcome where
  /-- The arguments make no sense. -/
  | usage
  | failed (failure : Failure)
  /-- The program panicked and closed nothing. -/
  | panicked (panic : Prompt.Panic)
  /-- What is printed. -/
  | printed (text : String)

def faultAt (doing path : String) (fault : Fault) : Failure :=
  .sentence s!"{doing} {path}: {fault.message}"

/-- The failure of the store, with the refusal of the disk behind it. -/
def storeFailure (e : StoreError) : Failure :=
  .sentence (e.message ++ ((e.fault?.map fun f => ": " ++ f.message).getD ""))

def assistFailure : AssistError → Failure
  | .panicked panic => .panicked panic
  | e => .sentence e.message

def buildFailure : Session.BuildError → Failure
  | .store e => storeFailure e
  | .toolchain e => .sentence e.message

/-- A task in progress: a session, and a failure that ends it. -/
abbrev Doing := ExceptT Failure (StateM Session)

namespace Doing

def course (failure : ε → Failure) (c : Course (Except ε α)) : Doing α :=
  fun s =>
    match c.run s with
    | (.ok a, s) => (.ok a, s)
    | (.error e, s) => (.error (failure e), s)

end Doing

def shown (j : Json) : String :=
  j.pretty ++ "\n"

/-! ## 2. Files -/

/-- `read_source`: the text of a source file. -/
def readSource (directory : List String) (path : String) : Doing String := do
  let disk := (← get).store.disk
  match disk.readAt directory (.ofText path) with
  | .ok text => return text
  | .error fault => throw (faultAt "reading" path fault)

/-- `open_file`: puts a file into the memory and gives its key. -/
def openFile (directory : List String) (path : String) (now : Moment) : Doing String := do
  let content ← readSource directory path
  let disk := (← get).store.disk
  let names := match disk.locate directory (.ofText path) with
    | .ok (names, _) => names
    | .error _ => (Path.ofText path).namesFrom directory
  let f ← Doing.course storeFailure (Session.updateFile (Path.textOf names) content now)
  return f.path

def editing (patch : EditPatch) (now : Moment) : Doing Editing :=
  Doing.course storeFailure (Session.updateEditing patch now)

/-- `focus_file`: says that a file of the memory is open. -/
def focusFile (key : String) (now : Moment) : Doing Unit := do
  let _ ← editing { currentFile := some (some key) } now

def sourcesAt (directory : List String) (path : String) : Doing (List String) := do
  let disk := (← get).store.disk
  match disk.locate directory (.ofText path) with
  | .ok (_, node) =>
    match collectSources (treeOf node) with
    | .ok found =>
      return found.map fun names => names.foldl (fun path name => Path.join path name) path
    | .error fault => throw (faultAt "listing" path fault)
  | .error fault => throw (faultAt "reading" path fault)

/-- Writes a generated file under the root and puts it into the memory. -/
def writeGenerated (f : GeneratedFile) (now : Moment) : Doing Unit := do
  let s ← get
  let target := s.store.root ++ (Path.ofText f.name).parts
  let write (disk : Disk) : Doing Unit := set { s with store := { s.store with disk } }
  match s.store.disk.makeDirectories target.dropLast with
  | .error fault => throw (.sentence fault.message)
  | .ok disk =>
    match disk.write target f.content with
    | .error fault => write disk; throw (faultAt "writing" (Path.textOf target) fault)
    | .ok disk =>
      write disk
      let _ ← Doing.course storeFailure (Session.updateFile f.name f.content now)

/-! ## 3. Tasks -/

def assist (request : Request) (now : Moment) : Doing Answer :=
  Doing.course assistFailure (Session.assist request now)

/-- `execute`: does a task and gives what it prints. Relative paths start at `directory`. -/
def perform (directory : List String) (now : Moment) : Task → Doing String
  | .index paths => do
    let root := Path.textOf (← get).store.root
    for path in if paths.isEmpty then [root] else paths do
      for file in ← sourcesAt directory path do
        let _ ← openFile directory file now
    return shown (← get).store.stats.toJson
  | .context => do return shown (← get).store.view.toJson
  | .complete file line column selection => do
    let key ← openFile directory file now
    let cursor : Cursor := ⟨line, column⟩
    let patch : EditPatch := { currentFile := some (some key), cursor := some cursor }
    let _ ← editing patch now
    return shown (← assist (.completion cursor selection) now).toJson
  | .refactor file intent => do
    focusFile (← openFile directory file now) now
    let code ← readSource directory file
    return shown (← assist (.refactor code intent) now).toJson
  | .diagnose error file => do
    match file with
    | some file => focusFile (← openFile directory file now) now
    | none => pure ()
    match error with
    | some error =>
      let code ← match file with
        | some file => readSource directory file
        | none => pure ""
      return shown (← assist (.diagnosis error code) now).toJson
    | none =>
      match (← get).lastErrorRequest? with
      | some request => return shown (← assist request now).toJson
      | none => throw (.sentence "no error recorded; pass --error")
  | .generate prompt write => do
    let answer ← assist (.generation prompt) now
    if write then
      match answer with
      | .generation g => for f in g.files do writeGenerated f now
      | _ => pure ()
    return shown answer.toJson
  | .review file focus => do
    focusFile (← openFile directory file now) now
    let code ← readSource directory file
    return shown (← assist (.review code focus) now).toJson
  | .health => do
    let (report, s) := Session.providerHealth.run (← get)
    set s
    return shown (.array (report.map Health.toJson))
  | .build file run => do
    focusFile (← openFile directory file now) now
    let source ← readSource directory file
    if run then return shown (← Doing.course buildFailure (Session.run source now)).toJson
    else return shown (← Doing.course buildFailure (Session.compile source now)).toJson
  | .search query scope => do
    return shown (.array (((← get).store.memory.search query scope).map SearchHit.toJson))
  | .exportTo out => do
    let document := (← get).store.exportText
    match out with
    | none => return document ++ "\n"
    | some path =>
      let s ← get
      match s.store.disk.writeAt directory (.ofText path) document with
      | .ok disk =>
        set { s with store := { s.store with disk } }
        return ""
      | .error fault => throw (faultAt "writing" path fault)
  | .importFrom file => do
    let text ← readSource directory file
    return shown (← Doing.course .notImported (Session.importText text now)).toJson
  | .clear => do
    Doing.course storeFailure (Session.clear now)
    return shown (← get).store.stats.toJson
  | .stats => do return shown (← get).statsJson

/-! ## 4. The program -/

structure Surroundings where
  disk : Disk
  /-- Where relative paths start. -/
  directory : List String
  environment : String → Option String
  outside : Remote.Outside
  machine : Machine
  /-- Where workspaces are made. -/
  workspace : Except String String
  /-- How requests are called. -/
  requestId : Ticket → String

def openFailure (asked : String) (e : OpenError) : Failure :=
  .sentence s!"opening project at {asked}: {e.message}: {e.fault.message}"

def openSession (around : Surroundings) (i : Invocation) (now : Moment) :
    Except Failure Session := do
  let disk := around.disk
  let root := match disk.locate around.directory (.ofText i.root) with
    | .ok (names, _) => names
    | .error _ => (Path.ofText i.root).namesFrom around.directory
  let store ← (Store.openAt disk root i.root now).mapError (openFailure i.root)
  let settings := if i.offline then Settings.offline else Settings.ofEnvironment around.environment
  let members ← settings.chain.mapError fun e => .sentence e.message
  let toolchain : ProcessToolchain :=
    { compiler := i.compiler, workspace := around.workspace, machine := around.machine }
  return Session.start store (members.map (·.provider around.outside)) toolchain.toolchain
    .standard { attemptTimeout := i.timeoutMs } around.requestId

/-- Does the task of an invocation in a session and gives what comes of it. -/
def execute (around : Surroundings) (i : Invocation) (now : Moment) (session : Session) :
    Outcome × Disk :=
  let (result, session) := (perform around.directory now i.task).run session
  let closed := (Session.close.run session).2.store.disk
  match result with
  | .ok text => (.printed text, closed)
  | .error (.panicked panic) => (.panicked panic, session.store.disk)
  | .error failure => (.failed failure, closed)

/-- Runs the program and gives the disk it leaves. The way to the root of the project is made
first. -/
def run (around : Surroundings) (args : List String) (now : Moment) : Outcome × Disk :=
  match Invocation.parse around.environment args with
  | none => (.usage, around.disk)
  | some i =>
    match around.disk.makeWay around.directory (.ofText i.root) with
    | (.error fault, disk) => (.failed (openFailure i.root (.unavailable i.root fault)), disk)
    | (.ok (), disk) =>
      let around := { around with disk }
      match openSession around i now with
      | .error failure => (.failed failure, disk)
      | .ok session => execute around i now session

end CodeAssist.Command
