import CodeAssist.Command.Run
import CodeAssist.Disk.Changes
import Std.Time.DateTime.Timestamp

/-!
The program: it reads the files it needs into a disk, runs, prints, and writes what has changed.

Programs and the network are out of its reach: a build says that its compiler cannot be started,
and providers on the network are unreachable.
-/

namespace CodeAssist.Outside

/-! ## 1. The clock and the environment -/

def currentMoment : IO Moment := do
  let nanos := (← Std.Time.Timestamp.now).toNanosecondsSinceUnixEpoch.val
  let seconds := nanos.fdiv 1000000000
  let nanos := (nanos.fmod 1000000000).toNat
  return if valid : Moment.Valid seconds nanos then { seconds, nanos, valid } else .epoch

def currentEnvironment : IO (String → Option String) := do
  let names := Settings.vars ++ Command.optionVariables.map (·.2)
  let found ← names.filterMapM fun name => do
    return (← IO.getEnv name).map fun value => (name, value)
  return fun name => found.lookup name

/-- An identifier of the usual form, with a number in it. -/
def requestId (n : Nat) : String :=
  let digits := Nat.toDigits 16 n
  "00000000-0000-4000-8000-" ++ String.ofList (List.replicate (12 - digits.length) '0' ++ digits)

/-! ## 2. Files -/

/-- Whether a directory is left out: hidden ones are, but not the memory's own. -/
def isLeftOut (name : String) : Bool :=
  Command.isHidden name && name != memoryDirectory

/-- What stands at a path. Files that are not text are left out. -/
partial def nodeAt (names : List String) : IO (Option Node) := do
  let path := (← IO.currentDir) / Path.textOf names
  try
    if ← path.isDir then
      let mut entries : List (String × Node) := []
      for entry in ← path.readDir do
        unless isLeftOut entry.fileName && (← entry.path.isDir) do
          if let some node ← nodeAt (names ++ [entry.fileName]) then
            entries := entries ++ [(entry.fileName, node)]
      return some (.directory entries)
    else if ← path.pathExists then return some (.file (← IO.FS.readFile path))
    else return none
  catch _ => return none

/-- The disk with what stands at a path, or with the directory that it could stand in. -/
def takeIn (disk : Disk) (names : List String) : IO Disk := do
  let parent := names.dropLast
  let made := (disk.makeDirectories parent).toOption.getD disk
  match ← nodeAt names with
  | some node => return (made.change names fun _ => .ok (some node)).toOption.getD made
  | none =>
    let above := (← IO.currentDir) / Path.textOf parent
    return if ← above.isDir then made else disk

/-- The disk with the working directory, and with every path among the arguments. -/
def takeInAll (directory : List String) (texts : List String) : IO Disk := do
  let paths := texts.map fun text => Path.settle ((Path.ofText text).namesFrom directory)
  (directory :: paths).foldlM takeIn .empty

def carryOut : Node.Change → IO Unit
  | .directory names => IO.FS.createDirAll (Path.textOf names)
  | .file names text => IO.FS.writeFile (Path.textOf names) text

/-! ## 3. The program -/

def run (args : List String) : IO UInt32 := do
  let directory := (Path.ofText (← IO.currentDir).toString).parts
  let environment ← currentEnvironment
  let root := (environment "QUILL_ROOT").toList
  let texts := args.map fun arg => ((Command.splitOption arg).2).getD arg
  let disk ← takeInAll directory (root ++ texts)
  let first ← IO.rand 0 0xffffffff
  let around : Command.Surroundings :=
    { disk
      directory
      environment
      outside :=
        { send := fun request => .unreachable s!"error sending request for url ({request.url})"
          explain := fun _ => "no JSON" }
      machine := fun _ _ _ => .refused "Operation not permitted (os error 1)"
      workspace := .ok "/tmp"
      requestId := fun ticket => requestId (first + ticket.number) }
  let (outcome, after) := Command.run around args (← currentMoment)
  (Node.changesFrom (some disk.top) after.top).forM carryOut
  match outcome with
  | .printed text => IO.print text; return 0
  | .failed failure => IO.eprintln s!"Error: {failure.message}"; return 1
  | .panicked panic => IO.eprintln panic.message; return 101
  | .usage => IO.eprintln "error: the arguments cannot be understood"; return 2

end CodeAssist.Outside

def main (args : List String) : IO UInt32 :=
  CodeAssist.Outside.run args
