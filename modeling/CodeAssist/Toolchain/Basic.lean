import CodeAssist.Json.Wire

/-!
What a compiler and a program say, and how a toolchain fails.
-/

namespace CodeAssist

structure CompileOutput where
  success : Bool
  stdout : String
  stderr : String
  deriving DecidableEq, Repr, Inhabited

def CompileOutput.toJson (o : CompileOutput) : Json :=
  .object [("success", .bool o.success), ("stdout", .text o.stdout), ("stderr", .text o.stderr)]

def CompileOutput.ofJson? (j : Json) : Option CompileOutput := do
  let [success, stdout, stderr] ← j.slots? ["success", "stdout", "stderr"] | none
  return {
    success := ← success.required Json.asBool?
    stdout := ← stdout.required Json.asText?
    stderr := ← stderr.required Json.asText? }

structure RunOutput where
  success : Bool
  output : String
  error : String
  deriving DecidableEq, Repr, Inhabited

def RunOutput.toJson (o : RunOutput) : Json :=
  .object [("success", .bool o.success), ("output", .text o.output), ("error", .text o.error)]

def RunOutput.ofJson? (j : Json) : Option RunOutput := do
  let [success, output, error] ← j.slots? ["success", "output", "error"] | none
  return {
    success := ← success.required Json.asBool?
    output := ← output.required Json.asText?
    error := ← error.required Json.asText? }

/-- How a toolchain fails to do its work at all. -/
inductive ToolchainError where
  /-- There is no place to work in. -/
  | workspace (message : String)
  /-- A program cannot be started. -/
  | spawn (command message : String)
  deriving DecidableEq, Repr, Inhabited

def ToolchainError.message : ToolchainError → String
  | workspace message => s!"failed preparing toolchain workspace: {message}"
  | spawn command message => s!"failed spawning {command}: {message}"

/-- A compiler and a place to run programs. What it does may depend on how often it was used. -/
structure Toolchain where
  compile : Nat → String → Except ToolchainError CompileOutput
  run : Nat → String → Except ToolchainError RunOutput

/-- A toolchain that gives prepared outputs, the last one again and again. -/
def Toolchain.scripted (compiles : List (Except ToolchainError CompileOutput))
    (runs : List (Except ToolchainError RunOutput)) : Toolchain where
  compile := fun n _ => pick compiles n
  run := fun n _ => pick runs n
where
  /-- The output for the use after `n` others. -/
  pick {α : Type} (outputs : List (Except ToolchainError α)) (n : Nat) :
      Except ToolchainError α :=
    (outputs[min n (outputs.length - 1)]?).getD (.error (.workspace "no scripted output"))

end CodeAssist
