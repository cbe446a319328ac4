import CodeAssist.TestBed.Regex.Reader
import CodeAssist.Text.Line

/-!
Test bed: patterns of a shell.

A star stands for any text, a question mark for any character, and brackets for one of a set. What
is quoted stands for itself.
-/

namespace CodeAssist.TestBed

open Text

/-! ## 1. Patterns -/

structure Cell where
  char : Char
  quoted : Bool

inductive GlobPart where
  | many
  | any
  | set (negated : Bool) (ranges : List (Char × Char))
  | char (c : Char)

abbrev Glob := List GlobPart

def Glob.fits : Glob → List Char → Bool
  | [], cs => cs.isEmpty
  | .many :: ps, cs =>
    (List.range (cs.length + 1)).any fun k => fits ps (cs.drop k)
  | .any :: ps, _ :: cs => fits ps cs
  | .set negated ranges :: ps, c :: cs =>
    (ranges.any fun (a, b) => a ≤ c && c ≤ b) != negated && fits ps cs
  | .char d :: ps, c :: cs => c == d && fits ps cs
  | _ :: _, [] => false

/-- A text without what a pattern matches at its start or its end, the shortest or the longest
such part. -/
def Glob.trim (p : Glob) (atEnd longest : Bool) (cs : List Char) : List Char :=
  let lengths := List.range (cs.length + 1)
  let tries := if longest then lengths.reverse else lengths
  let isMatch (k : Nat) : Bool :=
    p.fits (if atEnd then cs.drop (cs.length - k) else cs.take k)
  match tries.find? isMatch with
  | some k => if atEnd then cs.take (cs.length - k) else cs.drop k
  | none => cs

/-! ## 2. Reading -/

def Cell.is (cell : Cell) (c : Char) : Bool :=
  cell.char == c && !cell.quoted

/-- The class at the start of cells, after its opening bracket, and what follows it. -/
def globClass? (cells : List Cell) : Option (List (Char × Char) × List Cell) :=
  match cells with
  | colon :: rest =>
    let name := (rest.takeWhile (·.char.isAlpha)).map (·.char)
    match rest.drop name.length with
    | a :: b :: after =>
      if colon.is ':' && a.is ':' && b.is ']' then
        (classRanges.lookup (String.ofList name)).map fun ranges => (ranges, after)
      else none
    | _ => none
  | [] => none

/-- The ranges of a set up to its closing bracket, and what follows that. `first` says that nothing
of it was read. The fuel is the number of cells. -/
def globRanges : Nat → Bool → List Cell → Option (List (Char × Char) × List Cell)
  | 0, _, _ => none
  | _, _, [] => none
  | fuel + 1, first, c :: rest =>
    if c.is ']' && !first then some ([], rest)
    else
      let more (ranges : List (Char × Char)) (rest : List Cell) :=
        (globRanges fuel false rest).map fun (others, after) => (ranges ++ others, after)
      match if c.is '[' then globClass? rest else none with
      | some (ranges, after) => more ranges after
      | none =>
        match rest with
        | dash :: d :: after =>
          if dash.is '-' && !d.is ']' then more [(c.char, d.char)] after
          else more [(c.char, c.char)] rest
        | _ => more [(c.char, c.char)] rest

def globSet? (cells : List Cell) : Option (GlobPart × List Cell) :=
  let negated := cells.head?.any fun c => c.is '!' || c.is '^'
  let inside := if negated then cells.drop 1 else cells
  (globRanges (inside.length + 1) true inside).map fun (ranges, after) =>
    (.set negated ranges, after)

def globParts : Nat → List Cell → Glob
  | 0, _ => []
  | _, [] => []
  | fuel + 1, c :: rest =>
    if c.quoted then .char c.char :: globParts fuel rest
    else if c.char == '*' then .many :: globParts fuel rest
    else if c.char == '?' then .any :: globParts fuel rest
    else if c.char == '[' then
      match globSet? rest with
      | some (set, after) => set :: globParts fuel after
      | none => .char '[' :: globParts fuel rest
    else .char c.char :: globParts fuel rest

def Glob.ofCells (cells : List Cell) : Glob :=
  globParts (cells.length + 1) cells

/-! ## 3. Names -/

/-- Whether cells hold a character that makes them a pattern. -/
def isPattern (cells : List Cell) : Bool :=
  cells.any fun c => !c.quoted && (c.char == '*' || c.char == '?' || c.char == '[')

def lastPart (cells : List Cell) : List Cell × List Cell :=
  let last := (cells.reverse.takeWhile (·.char != '/')).reverse
  (cells.take (cells.length - last.length), last)

def isHere (cells : List Cell) : Bool :=
  let text := cells.map (·.char)
  !isPattern cells && text.head? != some '/' &&
    (splitAt '/' text).all fun part => part.isEmpty || part == ['.']

/-- The names that cells stand for, in order, if they are a pattern that matches any. A dot at the
start of a name has to be written. -/
def namesOf? (names : List String) (cells : List Cell) : Option (List String) :=
  let (before, last) := lastPart cells
  if !isPattern cells || !isHere before then none
  else
    let glob := Glob.ofCells last
    let showsDots := last.head?.any (·.char == '.')
    let known := (if showsDots then [".", ".."] else []) ++ names
    let found := known.filter fun n =>
      (showsDots || n.toList.head? != some '.') && glob.fits n.toList
    let start := String.ofList (before.map (·.char))
    if found.isEmpty then none
    else some ((found.mergeSort fun a b => a ≤ b).map fun n => start ++ n)

end CodeAssist.TestBed
