import CodeAssist.TestBed.Arithmetic
import CodeAssist.TestBed.Glob
import CodeAssist.TestBed.State

/-!
Test bed: what words stand for.

A word is first made into atoms: characters with what can still happen to them, and the gaps
between arguments. Where a word may become several, the atoms are split into fields, and a field
that is a pattern becomes the names that it matches.
-/

namespace CodeAssist.TestBed

open Text Act

/-! ## 1. Atoms -/

inductive Atom where
  /-- A character; the word can be split there if `splits` says so. -/
  | char (c : Char) (quoted splits : Bool)
  /-- Nothing that still makes a field. -/
  | mark
  /-- What is between two arguments. -/
  | gap

/-- The ways to run commands and to expand words one level below. -/
structure Below where
  run : Command → Act Unit
  /-- The atoms of a word, which may become several fields or not. -/
  expand : Bool → Word → Act (List Atom)

def atomsOf (quoted : Bool) (value : List Char) : List Atom :=
  if quoted then .mark :: value.map (.char · true false) else value.map (.char · false true)

def cellsOf (between : List Char) (atoms : List Atom) : List Cell :=
  atoms.flatMap fun a => match a with
    | .char c quoted _ => [⟨c, quoted⟩]
    | .mark => []
    | .gap => between.map (⟨·, true⟩)

def textOfAtoms (between : List Char) (atoms : List Atom) : String :=
  String.ofList ((cellsOf between atoms).map (·.char))

/-! ## 2. Fields -/

/-- Fields, the last of them apart as long as it may still grow. The cells of that one are in
reverse. -/
structure Fields where
  done : List (List Cell) := []
  last : Option (List Cell) := none
  /-- Whether blanks have ended a field, and nothing else was seen since. -/
  blank : Bool := false

def Fields.cut (f : Fields) : Fields :=
  { done := f.done ++ (f.last.map List.reverse).toList }

/-- The fields with an atom more. A splitter that is no blank ends a field also where there is
none, but for one after blanks that ended one. -/
def Fields.add (splitters : List Char) (f : Fields) : Atom → Fields
  | .mark => { f with last := some (f.last.getD []), blank := false }
  | .gap => f.cut
  | .char c quoted splits =>
    if !splits || !splitters.contains c then
      { f with last := some (⟨c, quoted⟩ :: f.last.getD []), blank := false }
    else if c == ' ' || c == '\t' || c == '\n' then
      if f.last.isSome then { f.cut with blank := true } else f
    else if f.last.isNone && f.blank then { f with blank := false }
    else { f with last := some (f.last.getD []) }.cut

def fieldsOf (splitters : List Char) (atoms : List Atom) : List (List Cell) :=
  (atoms.foldl (Fields.add splitters) {}).cut.done

/-! ## 3. Parameters -/

inductive ParameterValue where
  | one (text : String)
  | all (arguments : List String)

def optionLetters : List Char :=
  ['e', 'f', 'u']

def parameter? (name : String) : Act (Option ParameterValue) := do
  let p ← process
  match name with
  | "@" => return some (.all (p.arguments.drop 1))
  | "*" => return some (.all (p.arguments.drop 1))
  | "#" => return some (.one (toString (p.arguments.length - 1)))
  | "?" => return some (.one (toString p.status))
  | "-" => return some (.one (String.ofList (optionLetters.filter p.options.contains)))
  | "$" => return some (.one "2")
  | "!" => return none
  | name =>
    if name.toList.all Char.isDigit then
      return (p.arguments[(leadingDecimal name.toList)]?).map .one
    else return ((p.vars.lookup name).bind (·.value)).map .one
where
  leadingDecimal (cs : List Char) : Nat :=
    cs.foldl (fun n c => n * 10 + (c.toNat - 0x30)) 0

def between : Act (List Char) := do
  return (← splitters).take 1

def ParameterValue.text (value : ParameterValue) : Act String := do
  match value with
  | .one text => return text
  | .all arguments => return (String.ofList (← between)).intercalate arguments

def ParameterValue.atoms (value : ParameterValue) (name : String) (quoted mayBeMany : Bool) :
    Act (List Atom) := do
  match value with
  | .one text => return atomsOf quoted text.toList
  | .all arguments =>
    if mayBeMany && (!quoted || name == "@") then
      return [Atom.gap].intercalate (arguments.map fun a => atomsOf quoted a.toList)
    else return atomsOf quoted (← value.text).toList

/-- The atoms of a word that stands for a parameter: it can be split where it is not quoted. -/
def splitting (quoted : Bool) (atoms : List Atom) : List Atom :=
  if quoted then .mark :: atoms
  else atoms.map fun a => match a with
    | .char c false _ => .char c false true
    | a => a

def parameterMissing (name : String) (orEmpty : Bool) (reason : String) : Act α :=
  if !reason.isEmpty then fail s!"{name}: {reason}"
  else if orEmpty then fail s!"{name}: parameter not set or null"
  else fail s!"{name}: parameter not set"

/-- The value of a parameter that has to have one if unset parameters are refused. -/
def presentParameter (name : String) : Act (Option ParameterValue) := do
  let value ← parameter? name
  if value.isNone && (← isOn 'u') then parameterMissing name false "" else return value

def expandChoice (below : Below) (name : String) (c : Choice) (orEmpty : Bool) (word : Word)
    (quoted mayBeMany : Bool) : Act (List Atom) := do
  let value ← parameter? name
  let text ← match value with
    | some v => v.text
    | none => pure ""
  let present := if orEmpty && text.isEmpty then none else value
  let instead : Act (List Atom) := do
    return splitting quoted (← below.expand mayBeMany word)
  match c, present with
  | .replace, some _ => instead
  | .replace, none => return atomsOf quoted []
  | _, some v => v.atoms name quoted mayBeMany
  | .default, none => instead
  | .assign, none =>
    if !isName name.toList then fail s!"{name}: bad variable name"
    let text := textOfAtoms (← between) (← below.expand false word)
    assign name text
    return atomsOf quoted text.toList
  | .fail, none =>
    let reason := textOfAtoms (← between) (← below.expand false word)
    parameterMissing name orEmpty reason

def expandParameter (below : Below) (name : String) (use : Use) (quoted mayBeMany : Bool) :
    Act (List Atom) := do
  match use with
  | .bad => fail "Bad substitution"
  | .value =>
    match ← presentParameter name with
    | some v => v.atoms name quoted mayBeMany
    | none => return atomsOf quoted []
  | .length =>
    match ← presentParameter name with
    | some v => return atomsOf quoted (Nat.toDigits 10 (← v.text).length)
    | none => return atomsOf quoted ['0']
  | .choice c orEmpty word => expandChoice below name c orEmpty word quoted mayBeMany
  | .trimmed atEnd longest word =>
    let text ← match ← presentParameter name with
      | some v => v.text
      | none => pure ""
    let glob := Glob.ofCells (cellsOf (← between) (← below.expand false word))
    return atomsOf quoted (glob.trim atEnd longest text.toList)

/-! ## 4. Words -/

def capturedOutput (below : Below) (body : Command) : Act (List Char) := do
  let n := (← world).next
  modifyWorld fun w => { w with next := n + 1 }
  let status ← apart do
    modifyProcess fun p => { p with tested := false }
    setChannel 1 (some (.pipe n))
    below.run (.apart body)
  let bytes := ((← world).pipes.lookup n).getD []
  modifyWorld fun w => { w with pipes := w.pipes.filter (·.1 != n) }
  modifyProcess fun p => { p with outputStatus := status }
  let text := (charsOfBytes bytes).filter (·.toNat != 0)
  return (text.reverse.dropWhile (· == '\n')).reverse

def expandNumber (below : Below) (e : Word) : Act (List Char) := do
  let text := textOfAtoms (← between) (← below.expand false e)
  let names := (← process).vars.filterMap fun (x, v) => v.value.map fun value => (x, value)
  match arithmetic names text with
  | .error e => fail (e.message text)
  | .ok (value, changes) =>
    for (x, value) in changes.reverse do assign x value
    return (toString value.toInt).toList

def expandPiece (below : Below) (mayBeMany : Bool) : Piece → Act (List Atom)
  | .text cs quoted =>
    return if quoted && cs.isEmpty then [.mark] else cs.map (.char · quoted false)
  | .parameter name use quoted => expandParameter below name use quoted mayBeMany
  | .output body quoted => do return atomsOf quoted (← capturedOutput below body)
  | .number e quoted => do return atomsOf quoted (← expandNumber below e)

def expandWord (below : Below) (mayBeMany : Bool) (w : Word) : Act (List Atom) := do
  return (← w.mapM (expandPiece below mayBeMany)).flatten

def wholeText (below : Below) (w : Word) : Act String := do
  return textOfAtoms (← between) (← expandWord below false w)

def patternCells (below : Below) (w : Word) : Act (List Cell) := do
  return cellsOf (← between) (← expandWord below false w)

def wordTexts (below : Below) (w : Word) : Act (List String) := do
  let atoms ← expandWord below true w
  let fields := fieldsOf (← splitters) atoms
  let names := ((← world).files.map (·.name)).filter fun n => !n.toList.contains '/'
  let plain ← isOn 'f'
  return fields.flatMap fun cells =>
    match if plain then none else namesOf? names cells with
    | some found => found
    | none => [String.ofList (cells.map (·.char))]

end CodeAssist.TestBed
