import CodeAssist.Disk.Path

/-!
A disk as a value: a tree of directories and text files.

Every operation either gives the changed disk or says why it was refused, in the words of the
system. Some paths may be sealed: the disk takes nothing new there.
-/

namespace CodeAssist

/-! ## 1. Trees -/

/-- A file with its text, or a directory with its entries. -/
inductive Node where
  | file (text : String)
  | directory (entries : List (String × Node))
  deriving Repr, Inhabited

inductive Fault where
  | denied
  | notFound
  | exists_
  | notADirectory
  | isADirectory
  | tooLong
  /-- No path may hold the character of number zero. -/
  | holdsZero
  deriving DecidableEq, Repr, Inhabited

def Fault.message : Fault → String
  | denied => "Permission denied (os error 13)"
  | notFound => "No such file or directory (os error 2)"
  | exists_ => "File exists (os error 17)"
  | notADirectory => "Not a directory (os error 20)"
  | isADirectory => "Is a directory (os error 21)"
  | tooLong => "File name too long (os error 36)"
  | holdsZero => "file name contained an unexpected NUL byte"

namespace Node

def child? (name : String) : List (String × Node) → Option Node
  | [] => none
  | (n, node) :: rest => if n == name then some node else child? name rest

/-- The entries with another node, or none, under a name. -/
def setChild (name : String) (node : Option Node) : List (String × Node) → List (String × Node)
  | [] => (node.map fun n => (name, n)).toList
  | (n, old) :: rest =>
    if n == name then (node.map fun new => (name, new)).toList ++ rest.filter (·.1 != name)
    else (n, old) :: setChild name node rest

def find : List String → Node → Except Fault Node
  | [], node => .ok node
  | _ :: _, file _ => .error .notADirectory
  | name :: rest, directory entries =>
    match child? name entries with
    | some node => find rest node
    | none => .error .notFound

/-- Changes what stands at the end of a path, where there may be nothing. -/
def change (f : Option Node → Except Fault (Option Node)) :
    List String → Option Node → Except Fault (Option Node)
  | [], node => f node
  | _ :: _, none => .error .notFound
  | _ :: _, some (file _) => .error .notADirectory
  | name :: rest, some (directory entries) => do
    let node ← change f rest (child? name entries)
    return some (directory (setChild name node entries))

/-- Makes the directories of a path that are missing. -/
def makeDirectories : List String → Option Node → Except Fault Node
  | [], none => .ok (directory [])
  | [], some (directory entries) => .ok (directory entries)
  | [], some (file _) => .error .exists_
  | _ :: _, some (file _) => .error .notADirectory
  | name :: rest, none => do
    let node ← makeDirectories rest none
    return directory [(name, node)]
  | name :: rest, some (directory entries) => do
    let node ← makeDirectories rest (child? name entries)
    return directory (setChild name (some node) entries)

end Node

/-! ## 2. Disks -/

/-- A disk. Paths are lists of names from the top. -/
structure Disk where
  top : Node
  /-- Where nothing can be written. -/
  sealed : List (List String) := []
  deriving Repr, Inhabited

namespace Disk

def empty : Disk := { top := .directory [] }

def find (d : Disk) (path : List String) : Except Fault Node :=
  d.top.find path

def read (d : Disk) (path : List String) : Except Fault String :=
  match d.find path with
  | .ok (.file text) => .ok text
  | .ok (.directory _) => .error .isADirectory
  | .error e => .error e

def change (d : Disk) (path : List String) (f : Option Node → Except Fault (Option Node)) :
    Except Fault Disk := do
  let top ← Node.change f path (some d.top)
  return { d with top := top.getD (.directory []) }

def write (d : Disk) (path : List String) (text : String) : Except Fault Disk :=
  if d.sealed.contains path then .error .denied
  else d.change path fun
    | some (.directory _) => .error .isADirectory
    | _ => .ok (some (.file text))

/-- Puts a file at another path, in place of an older one there. -/
def rename (d : Disk) (source target : List String) : Except Fault Disk :=
  if d.sealed.contains target then .error .denied
  else do
    let text ← d.read source
    let moved ← d.change target fun
      | some (.directory _) => .error .isADirectory
      | _ => .ok (some (.file text))
    moved.change source fun _ => .ok none

/-- Makes a directory and those above it, as far as they are missing. -/
def makeDirectories (d : Disk) (path : List String) : Except Fault Disk := do
  let top ← Node.makeDirectories path (some d.top)
  return { d with top }

def remove (d : Disk) (path : List String) : Disk :=
  match d.change path fun _ => .ok none with
  | .ok changed => changed
  | .error _ => d

end Disk

end CodeAssist
