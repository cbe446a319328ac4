/-!
Test bed: regular expressions, for the stream editor.

A text is matched from a place on, and of all matches the longest one counts. Where several ways
lead to it, the parts take as much as they can one after the other, from left to right. So the
ways of each part are kept with the longest first, and one way for each end.
-/

namespace CodeAssist.TestBed

/-! ## 1. Expressions -/

/-- A set of characters, given by ranges, or by those it does not hold. -/
structure CharSet where
  negated : Bool := false
  ranges : List (Char × Char)
  deriving DecidableEq

inductive Edge where
  | lineStart
  | lineEnd
  | wordStart
  | wordEnd
  | wordEdge
  deriving DecidableEq

inductive Regex where
  | empty
  | one (s : CharSet)
  | edge (e : Edge)
  | both (a b : Regex)
  | either (a b : Regex)
  /-- At least `least` times, and at most as often as given. -/
  | again (least : Nat) (most : Option Nat) (a : Regex)
  | group (n : Nat) (a : Regex)
  /-- What a group matched, once more. -/
  | same (n : Nat)
  deriving DecidableEq

namespace CharSet

def single (c : Char) : CharSet :=
  { ranges := [(c, c)] }

def all : CharSet :=
  { negated := true, ranges := [] }

/-- Whether a set holds a character, in any case if `anyCase` says so. -/
def accepts (s : CharSet) (anyCase : Bool) (c : Char) : Bool :=
  let inRanges (d : Char) := s.ranges.any fun (a, b) => a ≤ d && d ≤ b
  (inRanges c || (anyCase && (inRanges c.toLower || inRanges c.toUpper))) != s.negated

end CharSet

/-! ## 2. Matching -/

abbrev Groups := List (Nat × Nat × Nat)

abbrev Way := Nat × Groups

def isWordByte (c : Char) : Bool :=
  c.isAlphanum || c == '_'

def Edge.holds (e : Edge) (text : Array Char) (i : Nat) : Bool :=
  let inWord := i != 0 && text[i - 1]?.any isWordByte
  let atWord := text[i]?.any isWordByte
  match e with
  | lineStart => i == 0
  | lineEnd => i == text.size
  | wordStart => !inWord && atWord
  | wordEnd => inWord && !atWord
  | wordEdge => inWord != atWord

/-- Ways with the longest first, and only the first one for each end. -/
def longestFirst (ways : List Way) : List Way :=
  let sorted := ways.mergeSort fun a b => b.1 ≤ a.1
  (sorted.foldl (fun kept way =>
    if kept.head?.any (·.1 == way.1) then kept else way :: kept) []).reverse

/-- The ways to match again and again, from those that are still to be followed. Each has the number
of times so far, which stops counting at `least` if there is no bound. A place is left alone when it
is reached a second time. -/
def followed (step : Way → List Way) (least : Nat) (most : Option Nat) :
    Nat → List (Nat × Way) → List (Nat × Nat) → List Way → List Way
  | 0, _, _, done => done
  | _, [], _, done => done
  | fuel + 1, (count, way) :: rest, seen, done =>
    if seen.contains (count, way.1) then followed step least most fuel rest seen done
    else
      let done := if least ≤ count then way :: done else done
      let more := if most.all (count < ·) then
          (step way).filter fun next => count < least || way.1 < next.1
        else []
      let times := if most.isSome then count + 1 else min (count + 1) least
      followed step least most fuel (more.map (fun next => (times, next)) ++ rest)
        ((count, way.1) :: seen) done

def goesOnWith (anyCase : Bool) (text : Array Char) (i start length : Nat) : Bool :=
  (List.range length).all fun k =>
    match text[i + k]?, text[start + k]? with
    | some c, some d => c == d || (anyCase && c.toLower == d.toLower)
    | _, _ => false

def Regex.ways (anyCase : Bool) (text : Array Char) : Regex → Way → List Way
  | .empty, way => [way]
  | .one s, (i, g) =>
    match text[i]? with
    | some c => if s.accepts anyCase c then [(i + 1, g)] else []
    | none => []
  | .edge e, (i, g) => if e.holds text i then [(i, g)] else []
  | .both a b, way => longestFirst ((ways anyCase text a way).flatMap (ways anyCase text b))
  | .either a b, way => longestFirst (ways anyCase text a way ++ ways anyCase text b way)
  | .again least most a, way =>
    let bound := (text.size + 2) * (text.size + 2) * (max least (most.getD 0) + 2)
    longestFirst (followed (ways anyCase text a) least most bound [(0, way)] [] []).reverse
  | .group n a, (i, g) => (ways anyCase text a (i, g)).map fun (j, h) => (j, (n, i, j) :: h)
  | .same n, (i, g) =>
    match g.lookup n with
    | some (start, stop) =>
      if goesOnWith anyCase text i start (stop - start) then [(i + (stop - start), g)] else []
    | none => []

structure Match where
  start : Nat
  stop : Nat
  groups : Groups

def Regex.search (r : Regex) (anyCase : Bool) (text : Array Char) (start : Nat) : Option Match :=
  (List.range' start (text.size + 1 - start)).findSome? fun i =>
    (r.ways anyCase text (i, [])).head?.map fun (stop, groups) => { start := i, stop, groups }

end CodeAssist.TestBed
