import CodeAssist.Text.Line
import CodeAssist.Toolchain.Process

/-!
Test bed: what a tool of the small machine is.

A tool gets arguments and an input, and works in a workspace. It says something on two outputs and
ends with a status. Texts are made of characters that stand for bytes.
-/

namespace CodeAssist.TestBed

open Text

inductive Stream where
  | first
  | second
  deriving DecidableEq

structure Done where
  status : Nat := 0
  said : List (Stream × List UInt8) := []
  files : Workspace
  tookMs : Nat := 0
  tookInput : Bool := false

def Done.on (d : Done) (s : Stream) : List UInt8 :=
  d.said.flatMap fun (t, bytes) => if t == s then bytes else []

/-- A tool: what it does, called by a name, with arguments and an input in a workspace. -/
abbrev Tool := String → List String → List UInt8 → Workspace → Done

def rawBytes (text : String) : List UInt8 :=
  bytesOfChars text.toList

def saying (files : Workspace) (bytes : List UInt8) : Done :=
  { said := [(.first, bytes)], files }

def complaint (message : String) : Stream × List UInt8 :=
  (.second, rawBytes (message ++ "\n"))

def complain (files : Workspace) (status : Nat) (message : String) : Done :=
  { status, said := [complaint message], files }

def missing : String := "No such file or directory"

/-- The name of a file of the workspace, without what says that it is there. -/
def plainName (name : String) : String :=
  let parts := (Text.splitAt '/' name.toList).filter fun p => !p.isEmpty && p != ['.']
  match name.toList.head? == some '/', parts with
  | false, [part] => if name.toList.getLast? == some '/' then name else String.ofList part
  | _, _ => name

/-- Whether a name is that of a directory: the workspace, one that it is in, or one of the
machine. -/
def isDirectory (name : String) : Bool :=
  let parts := (Text.splitAt '/' name.toList).filter fun p => !p.isEmpty && p != ['.']
  !name.isEmpty && (parts.all (· == ['.', '.']) || (name.toList.head? == some '/' &&
    [["bin"], ["usr"], ["usr", "bin"], ["tmp"], ["dev"], ["etc"]].contains
      (parts.map String.ofList)))

/-- How many milliseconds a tool takes that never ends: more than any limit. -/
def endlessMs : Nat := Nat.pow 10 30

end CodeAssist.TestBed

namespace CodeAssist.Workspace

/-- The workspace with the bytes of a file, whose mode stays as it is. -/
def withBytes (files : Workspace) (name : String) (bytes : List UInt8) : Workspace :=
  match files.file? name with
  | some f => files.map fun g => if g.name == name then { f with bytes } else g
  | none => files ++ [{ name, bytes }]

end CodeAssist.Workspace
