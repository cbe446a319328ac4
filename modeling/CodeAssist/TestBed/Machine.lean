import CodeAssist.TestBed.Run

/-!
Test bed: a small machine with a shell and a few tools, to try toolchains on.

The toolchains of the model start whatever programs a `Machine` has. The machine of this directory
stands in for a real one where the model is run on examples: it has the commands that the examples
start, as far as they use them, and is no complete shell. It is not part of the model, and no
statement is about it.
-/

namespace CodeAssist.TestBed

open Text

/-! ## 1. Names -/

/-- The workspace with names whose characters stand for bytes. -/
def rawNames (files : Workspace) : Workspace :=
  files.map fun f => { f with name := bytewise f.name }

/-- The workspace with names as they are read. A name that is a path stands for no file of it. -/
def readNames (files : Workspace) : Workspace :=
  (files.filter fun f => !f.name.toList.contains '/').map fun f =>
    { f with name := String.ofList (decodeLossy (rawBytes f.name)) }

/-- The longest name of a file, and the first length of a path that is too long, in bytes. -/
def maxNameBytes : Nat := 255

@[inherit_doc maxNameBytes]
def maxPathBytes : Nat := 4096

def whyNot (files : Workspace) (path : String) : String :=
  let parts := (Path.ofText path).parts
  let isFile (p : String) := (findAt files p) matches .program _ _
  let before := (parts.take (parts.length - 1)).foldl (fun (seen, found) part =>
    let next := if seen.isEmpty && !(Path.ofText path).absolute then part else seen ++ "/" ++ part
    (next, found || isFile next || (files.file? next).isSome)) ("", false)
  if maxPathBytes ≤ path.length || parts.any (maxNameBytes < ·.length) then
    "File name too long (os error 36)"
  else if before.2 then "Not a directory (os error 20)"
  else if isDirectory path || (findAt files path) matches .denied then
    "Permission denied (os error 13)"
  else "No such file or directory (os error 2)"

/-! ## 2. Starting -/

def usualPath : String := "/usr/local/sbin:/usr/local/bin:/usr/sbin:/usr/bin:/sbin:/bin"

def firstState (files : Workspace) : State where
  world := { files := rawNames files }
  process :=
    { arguments := []
      vars := [("PATH", { value := some usualPath, exported := true })]
      channels := [(0, .nowhere), (1, .said .first), (2, .said .second)] }

def maxDepth : Nat := 20000

def launched (files : Workspace) (act : Act Unit) : Launch :=
  let (left, s) := act.run.run (firstState files)
  let on (stream : Stream) := s.world.said.flatMap fun (t, bytes) =>
    if t == stream then bytes else []
  let ended (status took : Nat) : Launch :=
    .ended (status == 0) (on .first) (on .second) took (readNames s.world.files)
  let took := max s.world.now s.world.heardUntil
  match left with
  | .ok () => ended s.process.status took
  | .error (.exit status) => ended status took
  | .error .endless => ended 1 endlessMs
  | .error _ => ended s.process.status took

def startFile (path : String) (f : WorkFile) (args : List String) (files : Workspace) : Launch :=
  if !f.executable then .refused "Permission denied (os error 13)"
  else
    match interpreter? f.bytes with
    | none => .refused "Exec format error (os error 8)"
    | some (interpreter, _) =>
      match programAt? interpreter with
      | none => .refused "No such file or directory (os error 2)"
      | some _ =>
        -- A tool that opens the file finds it under its path.
        let known := if files.any (·.name == path) then files else files.put { f with name := path }
        launched known (runFile (shellBelow maxDepth) (bytewise path) f args)

/-- The machine: programs by name, and files of the workspace by path. -/
def machine : Machine := fun path args files =>
  let raw := bytewise path
  let args := args.map bytewise
  let found := if raw.toList.contains '/' then programAt? raw else program? raw
  match found with
  | some p => launched files (runProgram (shellBelow maxDepth) p raw raw args)
  | none =>
    let p := Path.ofText path
    match p.absolute, p.parts.getLast?.bind files.file? with
    | true, some f => startFile path f args files
    | _, _ =>
      match raw.toList.contains '/', files.file? (plainName path) with
      | true, some f => startFile path f args files
      | _, _ => .refused (whyNot (rawNames files) raw)

end CodeAssist.TestBed
