import CodeAssist.Session.Upkeep

/-!
Building and running from a session.

The editing state follows the toolchain: it says that something is compiled or run while that is
so, and afterwards how it ended and with which error.
-/

namespace CodeAssist.Session

/-- Why a build or a run failed to report. -/
inductive BuildError where
  | store (error : StoreError)
  | toolchain (error : ToolchainError)
  deriving DecidableEq, Repr, Inhabited

def BuildError.message : BuildError → String
  | store error => error.message
  | toolchain error => error.message

def succeededPatch (build : BuildState) : EditPatch :=
  { build := some build, lastError := some none }

def failedPatch (error : String) : EditPatch :=
  { build := some .failed, lastError := some (some error) }

def logBuild (kind : EventKind) (details : Json) (patch : EditPatch) (now : Moment) :
    Course (Except StoreError Unit) := do
  match ← addEvent kind details now with
  | .error e => return .error e
  | .ok () => return (← updateEditing patch now).map fun _ => ()

/-- `record_compilation`: logs a build and says how it ended. -/
def recordCompilation (o : CompileOutput) (now : Moment) : Course (Except StoreError Unit) :=
  logBuild .compilation
    (.object [("stderr", .text o.stderr), ("stdout", .text o.stdout), ("success", .bool o.success)])
    (if o.success then succeededPatch .succeeded else failedPatch o.stderr) now

/-- `record_execution`: logs a run and says how it ended. -/
def recordExecution (o : RunOutput) (now : Moment) : Course (Except StoreError Unit) :=
  logBuild .execution
    (.object [("error", .text o.error), ("output", .text o.output), ("success", .bool o.success)])
    (if o.success then succeededPatch .idle else failedPatch o.error) now

/-- Goes through a use of the toolchain: says that it began, and logs its end. If the toolchain
itself fails, the editing state says so. -/
def useToolchain (state : BuildState) (use : Session → Except ToolchainError α × Session)
    (log : α → Course (Except StoreError Unit)) (now : Moment) :
    Course (Except BuildError α) := do
  match ← updateEditing { build := some state } now with
  | .error e => return .error (.store e)
  | .ok _ =>
    match ← Course.act use with
    | .error e =>
      let _ ← updateEditing (failedPatch e.message) now
      return .error (.toolchain e)
    | .ok output =>
      match ← log output with
      | .error e => return .error (.store e)
      | .ok () => return .ok output

def compile (source : String) (now : Moment) : Course (Except BuildError CompileOutput) :=
  let use (s : Session) :=
    (s.toolchain.compile s.compiles source, { s with compiles := s.compiles + 1 })
  useToolchain .compiling use (recordCompilation · now) now

def run (source : String) (now : Moment) : Course (Except BuildError RunOutput) :=
  let use (s : Session) := (s.toolchain.run s.runs source, { s with runs := s.runs + 1 })
  useToolchain .running use (recordExecution · now) now

end CodeAssist.Session
