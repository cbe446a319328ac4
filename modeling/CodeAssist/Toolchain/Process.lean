import CodeAssist.Text.Bytes
import CodeAssist.Toolchain.Basic

/-!
A toolchain that starts programs.

The source is written into a workspace of its own, the compiler is started there, and the program
it made may be started after it. Every program runs under a limit of time, and only the first
bytes of what it says are kept. The workspace is thrown away in the end.

How programs behave is given by a machine.
-/

namespace CodeAssist

open Text

/-! ## 1. Machines -/

structure WorkFile where
  name : String
  bytes : List UInt8
  /-- The bits that say who may do what with it. -/
  mode : Nat := 0o644
  deriving DecidableEq, Repr, Inhabited

def WorkFile.executable (f : WorkFile) : Bool :=
  f.mode &&& 0o111 != 0

abbrev Workspace := List WorkFile

namespace Workspace

def file? (w : Workspace) (name : String) : Option WorkFile :=
  w.find? (·.name == name)

def put (w : Workspace) (f : WorkFile) : Workspace :=
  w.filter (·.name != f.name) ++ [f]

end Workspace

/-- The directory that workspaces are made in: each of them, and where it is. -/
abbrev WorkRoot := List (String × Workspace)

inductive Launch where
  /-- It cannot be started. -/
  | refused (reason : String)
  /-- It ended after some milliseconds. -/
  | ended (success : Bool) (stdout stderr : List UInt8) (tookMs : Nat) (files : Workspace)

/-- What becomes of starting a program with arguments in a workspace. -/
abbrev Machine := String → List String → Workspace → Launch

/-! ## 2. Limits -/

structure Limits where
  maxRuntimeSecs : UInt64
  maxOutputBytes : UInt64
  deriving DecidableEq, Repr, Inhabited

namespace Limits

def standard : Limits := ⟨10, 65536⟩

def toJson (l : Limits) : Json :=
  .object [("max_runtime_secs", .ofWord l.maxRuntimeSecs),
    ("max_output_bytes", .ofWord l.maxOutputBytes)]

def ofJson? (j : Json) : Option Limits := do
  let [maxRuntimeSecs, maxOutputBytes] ← j.slots? ["max_runtime_secs", "max_output_bytes"] | none
  return {
    maxRuntimeSecs := ← maxRuntimeSecs.required Json.asWord?
    maxOutputBytes := ← maxOutputBytes.required Json.asWord? }

/-- How many milliseconds a program gets; at least a second. -/
def patienceMs (l : Limits) : Nat :=
  max l.maxRuntimeSecs.toNat 1 * 1000

end Limits

/-- The text of the first bytes of what a program said. -/
def truncate (bytes : List UInt8) (maxBytes : Nat) : String :=
  String.ofList (decodeLossy (bytes.take maxBytes))

/-! ## 3. The toolchain -/

structure ProcessToolchain where
  compiler : String
  flags : List String := ["-Wall"]
  limits : Limits := .standard
  /-- Where the workspace is, or why there can be none. -/
  workspace : Except String String
  machine : Machine
  /-- Whether a program that waits runs out of time at once. -/
  impatient : Bool := false

namespace ProcessToolchain

def sourceName : String := "main.c"

def programName : String := "program"

structure Captured where
  success : Bool
  stdout : String
  stderr : String
  deriving DecidableEq, Repr, Inhabited

/-- Whether no program can be told a text, because it holds the character of number zero. -/
def isUnspeakable (text : String) : Bool :=
  text.toList.any (·.toNat == 0)

def execute (t : ProcessToolchain) (program : String) (args : List String) (files : Workspace) :
    Except ToolchainError (Captured × Workspace) :=
  if (program :: args).any isUnspeakable then
    .error (.spawn program "nul byte found in provided data")
  else match t.machine program args files with
  | .refused reason => .error (.spawn program reason)
  | .ended success stdout stderr tookMs files =>
    let patience := if t.impatient then 0 else t.limits.patienceMs
    if patience < tookMs then
      let late := s!"timed out after {t.limits.maxRuntimeSecs.toNat} seconds"
      .ok (⟨false, "", late⟩, files)
    else
      let cut (bytes : List UInt8) := truncate bytes t.limits.maxOutputBytes.toNat
      .ok (⟨success, cut stdout, cut stderr⟩, files)

/-- `prepare`: makes a workspace with the source in it. Gives where it is. -/
def prepare (t : ProcessToolchain) (source : String) (root : WorkRoot) :
    Except ToolchainError (String × WorkRoot) :=
  match t.workspace with
  | .error reason => .error (.workspace reason)
  | .ok place => .ok (place, (place, [{ name := sourceName, bytes := encode source }]) :: root)

/-- `cleanup`: throws a workspace away with all that is in it. -/
def cleanup (place : String) (root : WorkRoot) : WorkRoot :=
  root.filter (·.1 != place)

/-- Works in a workspace of its own, which is thrown away in the end, also when the work fails. -/
def inWorkspace (t : ProcessToolchain) (source : String)
    (work : String → Workspace → Except ToolchainError α) (root : WorkRoot) :
    Except ToolchainError α × WorkRoot :=
  match t.prepare source root with
  | .error e => (.error e, root)
  | .ok (place, root) => (work place ((root.lookup place).getD []), cleanup place root)

/-- `compile_in`. -/
def compileIn (t : ProcessToolchain) (files : Workspace) :
    Except ToolchainError (Captured × Workspace) :=
  t.execute t.compiler (t.flags ++ [sourceName, "-o", programName]) files

/-- `run_in`. -/
def runIn (t : ProcessToolchain) (place : String) (files : Workspace) :
    Except ToolchainError RunOutput := do
  let (compiled, files) ← t.compileIn files
  if compiled.success then
    let (ran, _) ← t.execute (place ++ "/" ++ programName) [] files
    return ⟨ran.success, ran.stdout, ran.stderr⟩
  else return ⟨false, compiled.stdout, compiled.stderr⟩

def compile (t : ProcessToolchain) (source : String) :
    WorkRoot → Except ToolchainError CompileOutput × WorkRoot :=
  t.inWorkspace source fun _ files => do
    let (captured, _) ← t.compileIn files
    return ⟨captured.success, captured.stdout, captured.stderr⟩

def run (t : ProcessToolchain) (source : String) :
    WorkRoot → Except ToolchainError RunOutput × WorkRoot :=
  t.inWorkspace source t.runIn

def toolchain (t : ProcessToolchain) : Toolchain where
  compile := fun _ source => (t.compile source []).1
  run := fun _ source => (t.run source []).1

end ProcessToolchain

end CodeAssist
