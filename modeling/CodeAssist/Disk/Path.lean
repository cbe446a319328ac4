import CodeAssist.Text.Line

/-!
Paths.

A path is a list of names, read from a text with slashes between them. Doubled slashes and single
dots say nothing and are dropped; two dots are kept and name the directory above.
-/

namespace CodeAssist

open Text

structure Path where
  /-- Whether it starts at the top. -/
  absolute : Bool
  parts : List String
  deriving DecidableEq, Repr, Inhabited

namespace Path

def parent : String := ".."

def ofText (text : String) : Path :=
  { absolute := text.toList.head? == some '/'
    parts := ((splitAt '/' text.toList).map String.ofList).filter fun p => p != "" && p != "." }

def textOf (names : List String) : String :=
  if names.isEmpty then "/" else String.join (names.map ("/" ++ ·))

/-- The names of a path seen from a directory, two dots still in it. -/
def namesFrom (p : Path) (directory : List String) : List String :=
  if p.absolute then p.parts else directory ++ p.parts

def goesUp (p : Path) : Bool :=
  p.parts.contains parent

/-- Takes a name off the end of a list of names for each two dots. -/
def settle (names : List String) : List String :=
  names.foldl (fun done name => if name == parent then done.dropLast else done ++ [name]) []

/-! ## 1. Joining as text -/

/-- A text joined to the text of a directory: a text that starts at the top stands alone. -/
def join (directory text : String) : String :=
  if text.toList.head? == some '/' then text
  else if directory.isEmpty || directory.toList.getLast? == some '/' then directory ++ text
  else directory ++ "/" ++ text

end Path

end CodeAssist
