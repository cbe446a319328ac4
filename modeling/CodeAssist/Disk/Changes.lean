import CodeAssist.Disk.Basic

/-!
What is on a disk that was not there before: new directories, and files that are new or have
another text.
-/

namespace CodeAssist.Node

inductive Change where
  | directory (path : List String)
  | file (path : List String) (text : String)
  deriving DecidableEq, Repr, Inhabited

def Change.below (name : String) : Change → Change
  | directory path => .directory (name :: path)
  | file path text => .file (name :: path) text

def entriesOf : Option Node → List (String × Node)
  | some (.directory entries) => entries
  | _ => []

mutual

/-- The changes from a tree, or from nothing, to another; a directory comes before what is in it. -/
def changesFrom (old : Option Node) : Node → List Change
  | .file text =>
    match old with
    | some (.file before) => if before == text then [] else [.file [] text]
    | _ => [.file [] text]
  | .directory entries =>
    let made := match old with
      | some (.directory _) => []
      | _ => [Change.directory []]
    made ++ changesAmong (entriesOf old) entries

def changesAmong (old : List (String × Node)) : List (String × Node) → List Change
  | [] => []
  | (name, node) :: rest =>
    (changesFrom (child? name old) node).map (Change.below name) ++ changesAmong old rest

end

end CodeAssist.Node
