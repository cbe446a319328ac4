import CodeAssist.Disk.Path
import CodeAssist.TestBed.Builtin
import CodeAssist.TestBed.Script

/-!
Test bed: the programs of the machine, and how a shell finds and runs them.

A program is a tool, the shell, or a file of the workspace, which names what interprets it or is
a script itself.
-/

namespace CodeAssist.TestBed

open Text Act

inductive Program where
  | tool (t : Tool)
  | shell
  | file (f : WorkFile)

inductive Finding where
  /-- A program, and its path. -/
  | program (p : Program) (path : String)
  | denied
  | absent

def program? (name : String) : Option Program :=
  if name == "sh" || name == "dash" then some .shell else (tool? name).map .tool

def programAt? (path : String) : Option Program :=
  let p := Path.ofText path
  match p.absolute, p.parts with
  | true, ["bin", name] => program? name
  | true, ["usr", "bin", name] => program? name
  | _, _ => none

def findAt (files : Workspace) (path : String) : Finding :=
  match programAt? path, files.file? (plainName path) with
  | some p, _ => .program p path
  | none, some f => if f.executable then .program (.file f) path else .denied
  | none, none => .absent

def findAmong (files : Workspace) (name : String) : List String → Finding
  | [] => .absent
  | dir :: rest =>
    match findAt files (if dir.isEmpty then name else dir ++ "/" ++ name) with
    | .absent => findAmong files name rest
    | .denied =>
      match findAmong files name rest with
      | .absent => .denied
      | found => found
    | found => found

/-- What is found under a name: names with a slash are paths, and others are looked for. -/
def findProgram (name : String) : Act Finding := do
  let files := (← world).files
  if name.toList.contains '/' then
    return if isDirectory name then .denied else findAt files name
  else
    let path := ((← var? "PATH").bind (·.value)).getD ""
    return findAmong files name ((Text.splitAt ':' path.toList).map String.ofList)

/-- The interpreter that a file names in its first line, with the argument given there. -/
def interpreter? (bytes : List UInt8) : Option (String × List String) :=
  match charsOfBytes bytes with
  | '#' :: '!' :: rest =>
    let line := strip (rest.takeWhile (· != '\n'))
    let path := line.takeWhile fun c => c != ' ' && c != '\t'
    let arg := strip (line.drop path.length)
    match (Path.ofText (String.ofList path)).parts, arg.isEmpty with
    | ["usr", "bin", "env"], false => some ("/usr/bin/" ++ String.ofList arg, [])
    | _, true => some (String.ofList path, [])
    | _, false => some (String.ofList path, [String.ofList arg])
  | _ => none

/-- The process of a new shell, which knows what another one hands on. -/
def Process.fresh (p : Process) (arguments : List String) : Process :=
  { arguments
    vars := ("IFS", { value := some " \t\n" }) ::
      p.vars.filter fun (name, v) => v.exported && v.value.isSome && name != "IFS"
    channels := p.channels }

/-- Runs the text of a script in this process, as a new shell does. -/
def runAsShell (below : Below) (arguments : List String) (text : List Char) : Act Unit := do
  modifyProcess fun p => { p.fresh arguments with options := p.options }
  setStatus (← apart (runText below text))

/-- Runs this process as a new shell, called by a name and with arguments: it runs a text that is
given to it, a file, or its input. -/
def startShell (below : Below) (called : String) (args : List String) : Act Unit := do
  modifyProcess fun p => { p.fresh [called] with line := 0 }
  try
    let (left, _, runsText) ← readOptions true args
    match runsText, left with
    | true, [] => fail "-c requires an argument"
    | true, text :: rest =>
      runAsShell below (if rest.isEmpty then [called] else rest) text.toList
    | false, name :: rest =>
      if !isDirectory name then
        match (← world).files.file? (plainName name) with
        | some f => runAsShell below (name :: rest) (charsOfBytes f.bytes)
        | none => fail s!"cannot open {name}: No such file"
    | false, [] =>
      let text ← readable 0
      leave 0 []
      runAsShell below [called] (charsOfBytes text)
  catch
    | .exit status => setStatus status
    | e => throw e

/-- Runs a file of the workspace as a program, or as the text of a script. -/
def runFile (below : Below) (path : String) (f : WorkFile) (args : List String) : Act Unit := do
  match interpreter? f.bytes with
  | none =>
    modifyProcess fun p => { p with options := [] }
    runAsShell below (path :: args) (charsOfBytes f.bytes)
  | some (interpreter, more) =>
    match programAt? interpreter with
    | some .shell =>
      -- A shell that opens the file finds it under its path.
      startShell below interpreter (more ++ path :: args)
    | some (.tool t) => setStatus (← runTool t interpreter (more ++ path :: args))
    | _ =>
      blame s!"{path}: not found"
      setStatus 127

def runProgram (below : Below) (p : Program) (called path : String) (args : List String) :
    Act Unit := do
  match p with
  | .tool t => setStatus (← runTool t called args)
  | .shell => startShell below called args
  | .file f => runFile below path f args

def runExternal (below : Below) (called : String) (args : List String) : Act Unit := do
  if called.isEmpty then
    blame ": Permission denied"
    setStatus 127
  else
    match ← findProgram called with
    | .program p path => runProgram below p called path args
    | .denied =>
      blame s!"{called}: Permission denied"
      setStatus 126
    | .absent =>
      blame s!"{called}: not found"
      setStatus 127

end CodeAssist.TestBed
