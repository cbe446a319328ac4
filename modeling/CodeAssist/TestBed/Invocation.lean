import CodeAssist.TestBed.Program

/-!
Test bed: functions, and the commands of a shell that run others.
-/

namespace CodeAssist.TestBed

open Text Act

def maxCalls : Nat := 1000

def callFunction (below : Below) (body : Command) (args : List String) : Act Unit := do
  let before ← process
  if maxCalls ≤ before.calls then
    fail s!"Maximum function recursion depth ({maxCalls}) reached"
  modifyProcess fun p =>
    { p with
      arguments := p.arguments.take 1 ++ args
      calls := p.calls + 1
      loops := 0
      locals := [] :: p.locals }
  let mend : Act Unit := do
    for (name, v) in ((← process).locals.head?).getD [] do putVar name v
    modifyProcess fun p =>
      { p with
        arguments := before.arguments
        calls := before.calls
        loops := before.loops
        locals := before.locals }
  try
    below.run body
    mend
  catch
    | .return_ status =>
      mend
      setStatus status
    | e =>
      mend
      throw e

def evalBuiltin (below : Below) : Builtin := fun args => do
  if args.isEmpty then return 0
  setStatus 0
  runText below (" ".intercalate args).toList
  return (← process).status

def dotBuiltin (below : Below) : Builtin := fun args => do
  match args with
  | [] => return 0
  | name :: _ =>
    if !name.toList.contains '/' then fail s!"{name}: not found"
    match (← world).files.file? (plainName name) with
    | none => fail s!"cannot open {name}: No such file"
    | some f =>
      setStatus 0
      try
        within (fun p => { p with speaker := some name, tested := false })
          (fun before p => { p with speaker := before.speaker, tested := before.tested })
          (runText below (charsOfBytes f.bytes))
        return (← process).status
      catch
        | .return_ status => return status
        | e => throw e

/-- Runs a command that a shell does itself, or one of the special ones; none if there is none of
this name. -/
def builtin? (below : Below) (name : String) : Option Builtin :=
  match name with
  | "eval" => some (evalBuiltin below)
  | "." => some (dotBuiltin below)
  | name => builtins.lookup name

def runBuiltin (b : Builtin) (name : String) (args : List String) : Act Unit :=
  speakingAs (some name) do setStatus (← b args)

def runApart (below : Below) (name : String) (args : List String) : Act Unit := do
  setStatus (← subshell (runExternal below name args))

end CodeAssist.TestBed
