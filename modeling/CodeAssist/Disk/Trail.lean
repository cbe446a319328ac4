import CodeAssist.Disk.Basic

/-!
Paths as they are walked.

Walking a path means stepping from directory to directory: a single dot stays where it is, two
dots go up, and a name has to be there. A slash at the end asks for a directory. So a path may
fail where a shorter one to the same place does not. Names and paths have a greatest length, in
bytes: that of a path counts before the first step, and that of a name once it is reached.
-/

namespace CodeAssist

open Text

/-! ## 1. Trails -/

def maxNameBytes : Nat := 255

def maxPathBytes : Nat := 4095

/-- Why no path may be written so, if none may. -/
def refusedPath? (text : String) : Option Fault :=
  if text.toList.any (·.toNat == 0) then some .holdsZero
  else if maxPathBytes < text.utf8ByteSize then some .tooLong
  else none

structure Trail where
  /-- Whether it starts at the top. -/
  absolute : Bool
  /-- The names, single and double dots among them. -/
  steps : List String
  /-- Whether it ends in a slash. -/
  slash : Bool
  /-- Why it cannot be walked at all. -/
  refusal : Option Fault := none
  deriving DecidableEq, Repr, Inhabited

namespace Trail

def stay : String := "."

def ofText (text : String) : Trail :=
  { absolute := text.toList.head? == some '/'
    steps := ((splitAt '/' text.toList).map String.ofList).filter (· != "")
    slash := text.toList.getLast? == some '/'
    refusal := refusedPath? text }

/-- Where a trail starts when relative ones start at `directory`. -/
def start (t : Trail) (directory : List String) : List String :=
  if t.absolute then [] else directory

def take (t : Trail) (count : Nat) : Trail :=
  { t with steps := t.steps.take count, slash := false }

/-- After how many steps the parts of a trail end. A single dot belongs to the part before it, and
makes a part only where a relative trail starts. -/
def partEnds (t : Trail) : List Nat :=
  (t.steps.zipIdx.filter fun (name, i) => name != stay || (i == 0 && !t.absolute)).map (·.2 + 1)

/-- The trails to the directories above, the nearest first. -/
def above (t : Trail) : List Trail :=
  (t.partEnds.dropLast.reverse).map t.take

end Trail

namespace Disk

/-! ## 2. Walking -/

def isLongName (name : String) : Bool :=
  maxNameBytes < name.utf8ByteSize

/-- Walks from a place, which has to be a directory at every step. -/
def walk (d : Disk) (reached : List String) : List String → Except Fault (List String)
  | [] => .ok reached
  | name :: rest =>
    match d.find reached with
    | .error e => .error e
    | .ok (.file _) => .error .notADirectory
    | .ok (.directory entries) =>
      if name == Trail.stay then d.walk reached rest
      else if name == Path.parent then d.walk reached.dropLast rest
      else if isLongName name then .error .tooLong
      else if (Node.child? name entries).isSome then d.walk (reached ++ [name]) rest
      else .error .notFound

def along (t : Trail) (act : Except Fault α) : Except Fault α :=
  match t.refusal with
  | some fault => .error fault
  | none => act

/-- The place that a trail leads to, and what stands there. -/
def locate (d : Disk) (directory : List String) (t : Trail) :
    Except Fault (List String × Node) := along t do
  let place ← d.walk (t.start directory) t.steps
  match ← d.find place with
  | .file text => if t.slash then .error .notADirectory else .ok (place, .file text)
  | node => .ok (place, node)

def isDirectoryAt (d : Disk) (directory : List String) (t : Trail) : Bool :=
  match d.locate directory t with
  | .ok (_, .directory _) => true
  | _ => false

def readAt (d : Disk) (directory : List String) (t : Trail) : Except Fault String := do
  d.read (← d.locate directory t).1

/-- The directory that holds the end of a trail, and the last step. At the top there is none. -/
def lastStep (d : Disk) (directory : List String) (t : Trail) :
    Except Fault (Option (List String × List (String × Node) × String)) :=
  along t <| match t.steps.getLast? with
  | none => .ok none
  | some last => do
    let place ← d.walk (t.start directory) t.steps.dropLast
    match ← d.find place with
    | .file _ => .error .notADirectory
    | .directory entries => .ok (some (place, entries, last))

def isDots (name : String) : Bool :=
  name == Trail.stay || name == Path.parent

/-- Writes the file at the end of a trail. A trail that can only end in a directory is refused. -/
def writeAt (d : Disk) (directory : List String) (t : Trail) (text : String) :
    Except Fault Disk := do
  match ← d.lastStep directory t with
  | none => .error .isADirectory
  | some (place, _, last) =>
    if isDots last || t.slash then .error .isADirectory
    else if isLongName last then .error .tooLong
    else d.write (place ++ [last]) text

/-! ## 3. Making directories -/

def makeDirectoryAt (d : Disk) (directory : List String) (t : Trail) : Except Fault Disk := do
  match ← d.lastStep directory t with
  | none => .error .exists_
  | some (place, entries, last) =>
    if isDots last || (Node.child? last entries).isSome then .error .exists_
    else if isLongName last then .error .tooLong
    else d.change (place ++ [last]) fun _ => .ok (some (.directory []))

/-- Whether a failure to make a directory does not matter, because there is one. -/
def isThere (d : Disk) (directory : List String) (t : Trail) (fault : Fault) : Bool :=
  fault == .exists_ && d.isDirectoryAt directory t

/-- Makes the first of some directories, each above the one before it, that can be made: those
that have to be made after it, and the disk. -/
def makeHighest (d : Disk) (directory : List String) :
    List Trail → Except Fault (List Trail) × Disk
  | [] => (.ok [], d)
  | t :: rest =>
    match d.makeDirectoryAt directory t with
    | .ok made => (.ok [], made)
    | .error fault =>
      if fault == .notFound then
        let (waiting, d) := d.makeHighest directory rest
        (waiting.map (· ++ [t]), d)
      else if d.isThere directory t fault then (.ok [], d)
      else (.error fault, d)

def makeEach (d : Disk) (directory : List String) : List Trail → Except Fault Unit × Disk
  | [] => (.ok (), d)
  | t :: rest =>
    match d.makeDirectoryAt directory t with
    | .ok made => made.makeEach directory rest
    | .error fault =>
      if d.isThere directory t fault then d.makeEach directory rest else (.error fault, d)

/-- Makes the directory at the end of a trail and those on the way that are missing. The disk keeps
what was made before a failure. -/
def makeWay (d : Disk) (directory : List String) (t : Trail) : Except Fault Unit × Disk :=
  if t.partEnds.isEmpty then (.ok (), d)
  else
    match d.makeHighest directory (t :: t.above) with
    | (.error fault, d) => (.error fault, d)
    | (.ok waiting, d) => d.makeEach directory waiting

end Disk

end CodeAssist
