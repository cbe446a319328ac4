import CodeAssist.Disk.Basic

/-!
The source files below a directory.
-/

namespace CodeAssist.Command

/-! ## 1. Names -/

def sourceExtensions : List String := ["c", "h"]

/-- What follows the last dot of a name, unless the name begins with that dot. -/
def extension? (name : String) : Option String :=
  let cs := name.toList
  let tail := (cs.reverse.takeWhile (· != '.')).reverse
  if tail.length + 1 < cs.length then some (String.ofList tail) else none

/-- `is_source`: whether a name has the extension of a source file. -/
def isSourceName (name : String) : Bool :=
  ((extension? name).map sourceExtensions.contains).getD false

def isHidden (name : String) : Bool :=
  name.toList.head? == some '.'

/-! ## 2. Listings -/

/-- What a listing says of an entry. Links, pipes and devices are neither files nor directories,
and a link is not followed. -/
inductive Tree where
  | file
  | directory (entries : List (String × Tree))
  | other
  deriving Inhabited

/-- The entries of a directory, in the order in which they are listed. -/
abbrev Listing := List (String × Tree)

mutual

def treeOf : Node → Tree
  | .file _ => .file
  | .directory entries => .directory (listingOf entries)

def listingOf : List (String × Node) → Listing
  | [] => []
  | (name, node) :: rest => (name, treeOf node) :: listingOf rest

end

/-! ## 3. Collecting -/

mutual

def Tree.weight : Tree → Nat
  | .file => 1
  | .directory entries => weightOf entries + 2
  | .other => 1

def weightOf : Listing → Nat
  | [] => 0
  | (_, tree) :: rest => tree.weight + weightOf rest

end

def weightWaiting : List (List String × Listing) → Nat
  | [] => 0
  | (_, entries) :: rest => weightOf entries + 1 + weightWaiting rest

/-- Looks at the entries of the directory at `path`, and then into the directories that wait, the
last one first. Directories wait unless they are hidden. -/
def gather (path : List String) (entries : Listing) (waiting : List (List String × Listing))
    (found : List (List String)) : List (List String) :=
  match entries, waiting with
  | [], [] => found
  | [], (path, entries) :: waiting => gather path entries waiting found
  | (name, .directory inner) :: rest, waiting =>
    if isHidden name then gather path rest waiting found
    else gather path rest ((path ++ [name], inner) :: waiting) found
  | (name, .file) :: rest, waiting =>
    if isSourceName name then gather path rest waiting (found ++ [path ++ [name]])
    else gather path rest waiting found
  | (_, .other) :: rest, waiting => gather path rest waiting found
termination_by weightOf entries + weightWaiting waiting
decreasing_by all_goals simp only [weightOf, Tree.weight, weightWaiting]; omega

def pathLe : List String → List String → Bool
  | [], _ => true
  | _ :: _, [] => false
  | a :: as, b :: bs => if a == b then pathLe as bs else decide (a < b)

/-- `collect_sources`: the source files that a tree stands for, as paths below it: the tree itself
if it is a file, and else the source files in it, in order. -/
def collectSources : Tree → Except Fault (List (List String))
  | .file => .ok [[]]
  | .directory entries => .ok ((gather [] entries [] []).mergeSort pathLe)
  | .other => .error .notADirectory

end CodeAssist.Command
