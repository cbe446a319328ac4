import CodeAssist.TestBed.Regex

/-!
Test bed: reading regular expressions.

There are two ways to write them. In the basic way the signs for groups, bounds and choices have a
backslash before them, and a sign that has nothing to refer to stands for itself; in the extended
way they have none, and a sign that has nothing to refer to is a mistake.

The reader keeps the groups that have begun. Each has the alternatives that were read and the parts
of the one that is being read.
-/

namespace CodeAssist.TestBed

/-! ## 1. Mistakes -/

inductive RegexMistake where
  | openBracket
  | openGroup
  | closedGroup
  | openBound
  | badBound
  | bigBound
  | badRange
  | badClass
  | nothingToRepeat
  | trailingBackslash
  | badReference

def RegexMistake.message : RegexMistake → String
  | openBracket => "Unmatched [, [^, [:, [., or [="
  | openGroup => "Unmatched ( or \\("
  | closedGroup => "Unmatched ) or \\)"
  | openBound => "Unmatched \\\x7b"
  | badBound => "Invalid content of \\\x7b\\\x7d"
  | bigBound => "Regular expression too big"
  | badRange => "Invalid range end"
  | badClass => "Invalid character class name"
  | nothingToRepeat => "Invalid preceding regular expression"
  | trailingBackslash => "Trailing backslash"
  | badReference => "Invalid back reference"

/-! ## 2. Sets -/

def classRanges : List (String × List (Char × Char)) :=
  [("alpha", [('A', 'Z'), ('a', 'z')]), ("digit", [('0', '9')]),
   ("alnum", [('0', '9'), ('A', 'Z'), ('a', 'z')]), ("upper", [('A', 'Z')]),
   ("lower", [('a', 'z')]), ("space", [('\t', '\r'), (' ', ' ')]),
   ("blank", [('\t', '\t'), (' ', ' ')]), ("punct", [('!', '/'), (':', '@'), ('[', '\x60'),
   ('\x7b', '~')]), ("print", [(' ', '~')]), ("graph", [('!', '~')]),
   ("cntrl", [('\x00', '\x1f'), ('\x7f', '\x7f')]),
   ("xdigit", [('0', '9'), ('A', 'F'), ('a', 'f')])]

/-- The name of a class, up to a colon and a closing bracket, and what follows them. -/
def className? : List Char → Option (List Char × List Char)
  | [] => none
  | c :: rest =>
    if c == ':' && rest.head? == some ']' then some ([], rest.drop 1)
    else (className? rest).map fun (before, after) => (c :: before, after)

/-- A member of a set: a character, or the ranges of a class. -/
inductive Member where
  | char (c : Char)
  | ranges (rs : List (Char × Char))

def member (cs : List Char) : Except RegexMistake (Member × List Char) :=
  match cs with
  | '[' :: sign :: rest =>
    if sign == ':' then
      match className? rest with
      | none => .ok (.char '[', sign :: rest)
      | some (name, after) =>
        match classRanges.lookup (String.ofList name) with
        | some rs => .ok (.ranges rs, after)
        | none => .error .badClass
    else .ok (.char '[', sign :: rest)
  | c :: rest => .ok (.char c, rest)
  | [] => .error .openBracket

/-- The ranges up to a closing bracket, and what follows it. A bracket that comes first stands for
itself. The fuel is the length of the text. -/
def setRanges : Nat → Bool → List (Char × Char) → List Char →
    Except RegexMistake (List (Char × Char) × List Char)
  | 0, _, _, _ => .error .openBracket
  | fuel + 1, first, done, cs =>
    match cs with
    | [] => .error .openBracket
    | ']' :: rest =>
      if first then after fuel done (.char ']') rest else .ok (done, rest)
    | cs => do
      let (m, rest) ← member cs
      after fuel done m rest
termination_by fuel => (fuel, 0)
where
  /-- Goes on after a member, which may be the start of a range. -/
  after (fuel : Nat) (done : List (Char × Char)) (m : Member) (rest : List Char) :
      Except RegexMistake (List (Char × Char) × List Char) :=
    match rest with
    | '-' :: ']' :: _ => setRanges fuel false (done ++ alone m) rest
    | '-' :: more =>
      match m with
      | .ranges _ => .error .badRange
      | .char a => do
        match ← member more with
        | (.char b, rest) =>
          if b < a then .error .badRange else setRanges fuel false (done ++ [(a, b)]) rest
        | (.ranges _, _) => .error .badRange
    | _ => setRanges fuel false (done ++ alone m) rest
  termination_by (fuel, 1)
  alone : Member → List (Char × Char)
    | .char c => [(c, c)]
    | .ranges rs => rs

def charSet (cs : List Char) : Except RegexMistake (CharSet × List Char) := do
  let negated := cs.head? == some '^'
  let (ranges, rest) ← setRanges (cs.length + 1) true [] (if negated then cs.drop 1 else cs)
  return ({ negated, ranges }, rest)

/-! ## 3. Bounds -/

def maxBound : Nat := 32767

/-- The number of some characters, if all of them are digits; none at all is no number. -/
def boundNumber? (cs : List Char) : Option Nat :=
  if !cs.isEmpty && cs.all Char.isDigit then
    some (cs.foldl (fun n d => n * 10 + (d.toNat - 0x30)) 0)
  else none

def boundsOf (cs : List Char) : Except RegexMistake (Nat × Option Nat) :=
  let low := cs.takeWhile (· != ',')
  let high := cs.drop (low.length + 1)
  let limited (least : Nat) (most : Option Nat) : Except RegexMistake (Nat × Option Nat) :=
    if most.any (· < least) then .error .badBound
    else if maxBound < most.getD least then .error .bigBound
    else .ok (least, most)
  if low.length == cs.length then
    match boundNumber? low with
    | some n => limited n (some n)
    | none => .error .badBound
  else
    match if low.isEmpty then some 0 else boundNumber? low with
    | none => .error .badBound
    | some least =>
      if high.isEmpty then limited least none
      else
        match boundNumber? high with
        | some most => limited least (some most)
        | none => .error .badBound

/-! ## 4. Reading -/

structure OpenGroup where
  number : Nat
  alternatives : List Regex := []
  /-- The parts of the one that is being read, the last one first. -/
  parts : List Regex := []

def OpenGroup.expression (g : OpenGroup) : Regex :=
  let sequence := g.parts.foldl (fun done part =>
    if done == .empty then part else .both part done) Regex.empty
  g.alternatives.foldl (fun done other => .either other done) sequence

/-- What has been read of an expression: the innermost open group, and those around it. -/
structure RegexReading where
  inner : OpenGroup := { number := 0 }
  outer : List OpenGroup := []
  begun : Nat := 0
  closed : List Nat := []

namespace RegexReading

def add (r : RegexReading) (part : Regex) : RegexReading :=
  { r with inner := { r.inner with parts := part :: r.inner.parts } }

def enter (r : RegexReading) : RegexReading :=
  { r with inner := { number := r.begun + 1 }, outer := r.inner :: r.outer, begun := r.begun + 1 }

def alternative (r : RegexReading) : RegexReading :=
  let g := r.inner
  let done := { g with alternatives := [] }.expression
  { r with inner := { g with alternatives := done :: g.alternatives, parts := [] } }

def leave (r : RegexReading) : Except RegexMistake RegexReading :=
  match r.outer with
  | [] => .error .closedGroup
  | g :: outer =>
    let n := r.inner.number
    let left := { r with inner := g, outer, closed := n :: r.closed }
    .ok { left.add (.group n r.inner.expression) with begun := r.begun }

def isFresh (r : RegexReading) : Bool :=
  match r.inner.parts with
  | [] => true
  | .edge _ :: _ => true
  | _ => false

def isRepeated (r : RegexReading) : Bool :=
  match r.inner.parts with
  | .again _ _ _ :: _ => true
  | _ => false

def repeated (r : RegexReading) (least : Nat) (most : Option Nat) : RegexReading :=
  match r.inner.parts with
  | [] => r
  | part :: parts =>
    { r with inner := { r.inner with parts := .again least most part :: parts } }

def finish (r : RegexReading) : Except RegexMistake Regex :=
  if r.outer.isEmpty then .ok r.inner.expression else .error .openGroup

end RegexReading

inductive Sign where
  | open_
  | close
  | choice
  | star
  | plus
  | optional
  | bound
  | set
  | any
  | lineStart
  | lineEnd
  | edge (e : Edge)
  | class_ (s : CharSet)
  | reference (n : Nat)
  | char (c : Char)

def wordSet : CharSet :=
  { ranges := [('0', '9'), ('A', 'Z'), ('_', '_'), ('a', 'z')] }

def blankSet : CharSet :=
  { ranges := [('\t', '\r'), (' ', ' ')] }

def escapedSign (extended : Bool) (c : Char) : Sign :=
  let basic := !extended
  if c == '(' && basic then .open_
  else if c == ')' && basic then .close
  else if c == '|' && basic then .choice
  else if c == '+' && basic then .plus
  else if c == '?' && basic then .optional
  else if c == '\x7b' && basic then .bound
  else if c == 'w' then .class_ wordSet
  else if c == 's' then .class_ blankSet
  else if c == 'b' then .edge .wordEdge
  else if c == '<' then .edge .wordStart
  else if c == '>' then .edge .wordEnd
  else if c == 'n' then .char '\n'
  else if '1' ≤ c && c ≤ '9' then .reference (c.toNat - 0x30)
  else .char c

def plainSign (extended : Bool) (c : Char) : Sign :=
  if c == '*' then .star
  else if c == '.' then .any
  else if c == '[' then .set
  else if c == '^' then .lineStart
  else if c == '$' then .lineEnd
  else if extended then
    if c == '(' then .open_
    else if c == ')' then .close
    else if c == '|' then .choice
    else if c == '+' then .plus
    else if c == '?' then .optional
    else if c == '\x7b' then .bound
    else .char c
  else .char c

/-- Whether a dollar sign ends a line in the basic way: at the end of a text, a group or an
alternative. -/
def endsPart (rest : List Char) : Bool :=
  match rest with
  | [] => true
  | '\\' :: c :: _ => c == ')' || c == '|'
  | _ => false

def boundText (extended : Bool) : List Char → Option (List Char × List Char)
  | [] => none
  | c :: rest =>
    if extended && c == '\x7d' then some ([], rest)
    else if !extended && c == '\\' && rest.head? == some '\x7d' then some ([], rest.drop 1)
    else (boundText extended rest).map fun (inside, after) => (c :: inside, after)

/-- Reads one sign, which is followed by a text. In the basic way what is repeated cannot be
repeated again by a star or a bound. -/
def readSign (extended : Bool) (r : RegexReading) (s : Sign) (rest : List Char) :
    Except RegexMistake (RegexReading × List Char) :=
  let literal (c : Char) : RegexReading × List Char := (r.add (.one (.single c)), rest)
  let repeats (c : Char) (least : Nat) (most : Option Nat) :
      Except RegexMistake (RegexReading × List Char) :=
    if !r.isFresh then .ok (r.repeated least most, rest)
    else if extended then .error .nothingToRepeat
    else .ok (literal c)
  let isTwice := !extended && r.isRepeated
  match s with
  | .open_ => .ok (r.enter, rest)
  | .close => do return (← r.leave, rest)
  | .choice => .ok (r.alternative, rest)
  | .star => if isTwice then .error .nothingToRepeat else repeats '*' 0 none
  | .plus => repeats '+' 1 none
  | .optional => repeats '?' 0 (some 1)
  | .bound =>
    if r.isFresh || isTwice then .error .nothingToRepeat
    else
      match boundText extended rest with
      | none => .error .openBound
      | some (inside, rest) => do
        let (least, most) ← boundsOf inside
        return (r.repeated least most, rest)
  | .set => do
    let (set, rest) ← charSet rest
    return (r.add (.one set), rest)
  | .any => .ok (r.add (.one .all), rest)
  | .lineStart =>
    if extended || r.inner.parts.isEmpty then .ok (r.add (.edge .lineStart), rest)
    else .ok (literal '^')
  | .lineEnd =>
    if extended || endsPart rest then .ok (r.add (.edge .lineEnd), rest) else .ok (literal '$')
  | .edge e => .ok (r.add (.edge e), rest)
  | .class_ set => .ok (r.add (.one set), rest)
  | .reference n =>
    if r.closed.contains n then .ok (r.add (.same n), rest) else .error .badReference
  | .char c => .ok (literal c)

def readSigns (extended : Bool) : Nat → RegexReading → List Char → Except RegexMistake Regex
  | 0, r, _ => r.finish
  | fuel + 1, r, cs =>
    match cs with
    | [] => r.finish
    | ['\\'] => .error .trailingBackslash
    | '\\' :: c :: rest => do
      let (r, rest) ← readSign extended r (escapedSign extended c) rest
      readSigns extended fuel r rest
    | c :: rest => do
      let (r, rest) ← readSign extended r (plainSign extended c) rest
      readSigns extended fuel r rest

/-- The regular expression that a text writes, in the extended way or in the basic one. -/
def Regex.parse (extended : Bool) (cs : List Char) : Except RegexMistake Regex :=
  readSigns extended (cs.length + 1) {} cs

def Regex.groupCount : Regex → Nat
  | .both a b => max a.groupCount b.groupCount
  | .either a b => max a.groupCount b.groupCount
  | .again _ _ a => a.groupCount
  | .group n a => max n a.groupCount
  | _ => 0

end CodeAssist.TestBed
