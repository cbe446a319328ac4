import CodeAssist.TestBed.Sed.Script

/-!
Test bed: running the scripts of a stream editor.

The editor reads a line into the space in hand, runs the commands on it, and prints the space. A
second space can hold a text from line to line. What is to follow the line waits until it is
printed.
-/

namespace CodeAssist.TestBed.Sed

open Text

/-! ## 1. Spaces and output -/

structure Space where
  text : List Char := []
  ends : Bool := true

/-- A piece of the output: a line, or a text with all its ends. -/
inductive Written where
  | line (s : Space)
  | text (cs : List Char)

/-- The text of what was written. A last line without an end gets it before something else is
written. -/
def textOf : Bool → List Written → List Char
  | _, [] => []
  | isOpen, w :: rest =>
    let start := if isOpen then ['\n'] else []
    match w with
    | .text cs => start ++ cs ++ textOf false rest
    | .line s =>
      if s.ends then start ++ s.text ++ '\n' :: textOf false rest
      else start ++ s.text ++ textOf true rest

inductive Stop where
  /-- There are no more lines. -/
  | finished
  /-- It was told to. -/
  | quit (status : Nat)
  /-- It would never end. -/
  | endless
  deriving DecidableEq

def spacesOf (cs : List Char) : List Space :=
  let pieces := splitAt '\n' cs
  if pieces.getLast? == some [] then pieces.dropLast.map fun text => { text }
  else pieces.mapIdx fun i text => { text, ends := i + 1 < pieces.length }

/-! ## 2. What stands for a match -/

structure CaseState where
  always : Option Casing := none
  once : Option Casing := none

def Casing.apply : Casing → Char → Char
  | .upper, c => c.toUpper
  | .lower, c => c.toLower

def CaseState.apply (s : CaseState) (cs : List Char) : List Char × CaseState :=
  let rest (cs : List Char) := cs.map fun c => (s.always.map (·.apply c)).getD c
  match s.once, cs with
  | some once, c :: more => (once.apply c :: rest more, { s with once := none })
  | _, _ => (rest cs, s)

def groupText (text : Array Char) (m : Match) (n : Nat) : List Char :=
  let span := if n == 0 then some (m.start, m.stop) else m.groups.lookup n
  match span with
  | some (start, stop) => (text.extract start stop).toList
  | none => []

/-- The text of fillers for a match, while letters are being changed. -/
def fill (text : Array Char) (m : Match) : CaseState → List Filler → List Char
  | _, [] => []
  | state, .char c :: rest =>
    let (new, state) := state.apply [c]
    new ++ fill text m state rest
  | state, .group n :: rest =>
    let (new, state) := state.apply (groupText text m n)
    new ++ fill text m state rest
  | _, .casing always :: rest => fill text m { always } rest
  | state, .casingOnce c :: rest => fill text m { state with once := some c } rest

/-! ## 3. Editors -/

structure Editor where
  space : Space := {}
  held : Space := {}
  input : List Space
  number : Nat := 0
  written : List Written := []
  waiting : List Written := []
  /-- Whether a substitution changed something since a line was read. -/
  changed : Bool := false
  /-- The ends of the ranges that have begun, by the numbers of the commands. -/
  begun : List (Nat × Option Nat) := []
  /-- The numbers of the commands whose range from a line on has begun before. -/
  spent : List Nat := []
  quiet : Bool := false

namespace Editor

def print (e : Editor) (s : Space) : Editor :=
  { e with written := e.written ++ [.line s] }

def isLast (e : Editor) : Bool :=
  e.input.isEmpty

def flush (e : Editor) : Editor :=
  { e with written := e.written ++ e.waiting, waiting := [] }

/-- Ends the work on a line: it is printed if lines are, and what was to follow it follows. -/
def finishLine (e : Editor) : Editor :=
  (if e.quiet then e else e.print e.space).flush

/-- Takes the next line in hand, at the end of what is there if `appending` says so. -/
def readNext (e : Editor) (appending : Bool) : Option Editor :=
  match e.input with
  | [] => none
  | s :: input =>
    let text := if appending then e.space.text ++ '\n' :: s.text else s.text
    let e := e.flush
    some { e with space := { s with text }, input, number := e.number + 1, changed := false }

/-! ## 4. Addresses -/

def isAt (e : Editor) : Address → Bool
  | .line n => e.number == n
  | .steps first step => first ≤ e.number && (e.number - first) % step == 0
  | .last => e.isLast
  | .matching p => (p.regex.search p.anyCase e.space.text.toArray 0).isSome
  | .further _ => false

/-- The number of the last line of a range that begins at the line in hand, if its address gives
one. -/
def rangeEnd (e : Editor) : Address → Option Nat
  | .line n => some n
  | .further n => some (e.number + n)
  | _ => none

def setRange (e : Editor) (i : Nat) (range : Option (Option Nat)) : Editor :=
  let others := e.begun.filter (·.1 != i)
  { e with begun := (range.map fun r => (i, r)).toList ++ others }

/-- Whether the range of the command of a number begins at the line in hand. A range from a line on
begins once, also if that line was passed. -/
def startsAt (e : Editor) (i : Nat) (a : Address) : Bool × Editor :=
  match a with
  | .line n =>
    if n ≤ e.number && !e.spent.contains i then (true, { e with spent := i :: e.spent })
    else (false, e)
  | a => (e.isAt a, e)

/-- Whether the command of a number is for the line in hand, turned around or not. -/
def applies (e : Editor) (i : Nat) (c : Command) : Bool × Editor :=
  let (here, e) := match c.first, c.second with
    | none, _ => (true, e)
    | some a, none => (e.isAt a, e)
    | some a, some b =>
      match e.begun.lookup i with
      | some (some stop) => (e.number ≤ stop, if stop ≤ e.number then e.setRange i none else e)
      | some none => (true, if e.isAt b then e.setRange i none else e)
      | none =>
        let (starts, e) := e.startsAt i a
        if !starts then (false, e)
        else
          match e.rangeEnd b with
          | some stop =>
            let late := match a, b with
              | .line n, .line _ => n < e.number && stop < e.number
              | _, _ => false
            (!late, if stop ≤ e.number then e else e.setRange i (some (some stop)))
          | none => (true, e.setRange i (some none))
  (here != c.inverted, e)

/-! ## 5. Substitution -/

/-- Replaces matches from a place on. `count` matches were before it, and `edge` is where the last
one ended. The fuel bounds the number of matches. -/
def replace (s : Substitution) (text : Array Char) :
    Nat → Nat → Nat → Option Nat → List Char × Bool
  | 0, start, _, _ => ((text.extract start text.size).toList, false)
  | fuel + 1, start, count, edge =>
    let rest := (text.extract start text.size).toList
    match s.pattern.regex.search s.pattern.anyCase text start with
    | none => (rest, false)
    | some m =>
      let before := (text.extract start m.start).toList
      let isEmpty := m.start == m.stop
      if isEmpty && edge == some m.start then
        match text[m.start]? with
        | none => (rest, false)
        | some c =>
          let (after, changed) := replace s text fuel (m.start + 1) count none
          (before ++ c :: after, changed)
      else
        let chosen := s.nth == count + 1 || (s.everywhere && s.nth ≤ count)
        let new := if chosen then fill text m {} s.fillers
          else (text.extract m.start m.stop).toList
        if chosen && !s.everywhere then
          (before ++ new ++ (text.extract m.stop text.size).toList, true)
        else if isEmpty then
          match text[m.start]? with
          | none => (before ++ new, chosen)
          | some c =>
            let (after, changed) := replace s text fuel (m.start + 1) (count + 1) none
            (before ++ new ++ c :: after, chosen || changed)
        else
          let (after, changed) := replace s text fuel m.stop (count + 1) (some m.stop)
          (before ++ new ++ after, chosen || changed)

def substitute (e : Editor) (s : Substitution) : Editor :=
  let text := e.space.text.toArray
  let (new, changed) := replace s text (text.size + 2) 0 0 none
  if !changed then e
  else
    let e := { e with space := { e.space with text := new }, changed := true }
    if s.prints then e.print e.space else e

/-! ## 6. Commands -/

inductive Onward where
  /-- At the next command. -/
  | on
  /-- At the command of a number. -/
  | at (n : Nat)
  /-- With the next line; this one is printed if lines are. -/
  | nextLine
  /-- With the next line, without printing this one. -/
  | nextLineSilent
  /-- At the first command again, without reading a line. -/
  | again
  /-- Nowhere, after the work on the line is ended. -/
  | stop (s : Stop)

def firstLine (e : Editor) : List Char :=
  e.space.text.takeWhile (· != '\n')

/-- Does what a command says. `ranged` says that the line is inside a range that goes on. -/
def perform (commands : List Command) (e : Editor) (ranged : Bool) (d : Deed) : Editor × Onward :=
  let space := e.space
  match d with
  | .block _ => (e, .on)
  | .label _ => (e, .on)
  | .substitute s => (e.substitute s, .on)
  | .transliterate pairs =>
    let text := space.text.map fun c => (pairs.lookup c).getD c
    ({ e with space := { space with text } }, .on)
  | .append text => ({ e with waiting := e.waiting ++ [.text text] }, .on)
  | .insert text => (if text.isEmpty then e else e.print { text := text.dropLast }, .on)
  | .change text =>
    (if ranged || text.isEmpty then e else e.print { text := text.dropLast }, .nextLineSilent)
  | .delete => (e, .nextLineSilent)
  | .deleteFirst =>
    if space.text.contains '\n' then
      let text := space.text.drop (e.firstLine.length + 1)
      ({ e with space := { space with text } }, .again)
    else (e, .nextLineSilent)
  | .print => (e.print space, .on)
  | .printFirst =>
    (e.print { text := e.firstLine, ends := space.ends || space.text.contains '\n' }, .on)
  | .number => (e.print { text := Nat.toDigits 10 e.number }, .on)
  | .next =>
    if e.isLast then (e, .stop .finished)
    else
      let e := if e.quiet then e else e.print space
      match e.readNext false with
      | some e => (e, .on)
      | none => (e, .nextLine)
  | .nextAppended =>
    match e.readNext true with
    | some e => (e, .on)
    | none => (e, .stop .finished)
  | .hold => ({ e with held := space }, .on)
  | .holdAppended =>
    ({ e with held := { space with text := e.held.text ++ '\n' :: space.text } }, .on)
  | .get => ({ e with space := e.held }, .on)
  | .getAppended =>
    ({ e with space := { e.held with text := space.text ++ '\n' :: e.held.text } }, .on)
  | .exchange => ({ e with space := e.held, held := space }, .on)
  | .quit status => (e, .stop (.quit status))
  | .jump ifChanged name =>
    if ifChanged && !e.changed then (e, .on)
    else
      let e := if ifChanged then { e with changed := false } else e
      (e, (commands.findIdx? (·.deed == .label name)).elim .nextLine .at)

/-- Runs the commands from one on, until the work on the line is done. The fuel bounds the number of
commands. -/
def runFrom (commands : List Command) : Nat → Nat → Editor → Editor × Onward
  | 0, _, e => (e, .stop .endless)
  | fuel + 1, i, e =>
    match commands[i]? with
    | none => (e, .nextLine)
    | some c =>
      let (here, e) := e.applies i c
      if !here then
        match c.deed with
        | .block after => runFrom commands fuel after e
        | _ => runFrom commands fuel (i + 1) e
      else
        let ranged := !c.inverted && (e.begun.lookup i).isSome
        match e.perform commands ranged c.deed with
        | (e, .on) => runFrom commands fuel (i + 1) e
        | (e, .at n) => runFrom commands fuel n e
        | done => done

/-- Runs the commands on line after line. `fresh` says that a line is to be read first. The fuel
bounds the number of times the commands are begun. -/
def runLines (commands : List Command) (steps : Nat) : Nat → Bool → Editor → Editor × Stop
  | 0, _, e => (e, .endless)
  | fuel + 1, fresh, e =>
    match if fresh then e.readNext false else some e with
    | none => (e, .finished)
    | some e =>
      match runFrom commands steps 0 e with
      | (e, .stop (.quit status)) =>
        let e := e.finishLine
        ({ e with written := e.written ++ [.text []] }, .quit status)
      | (e, .stop s) => (e.finishLine, s)
      | (e, .again) => runLines commands steps fuel false e.flush
      | (e, .nextLineSilent) => runLines commands steps fuel true e.flush
      | (e, _) => runLines commands steps fuel true e.finishLine

/-- How many commands an editor runs for a line before it is taken to be endless. -/
def maxSteps : Nat := 10000

def run (commands : List Command) (e : Editor) : Editor × Stop :=
  let lines := e.input.foldl (fun n s => n + s.text.length + 2) 2
  runLines commands maxSteps (lines * lines) true e

end Editor

end CodeAssist.TestBed.Sed
