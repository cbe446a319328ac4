/-!
Test bed: the grammar of a shell.

A script is a list of commands. A command is a simple one, made of words and redirections, or is
built of other commands. A word is made of plain and quoted pieces, and of pieces that stand for
something else: a parameter, what a command says, or the value of an expression.

Texts are made of characters that stand for bytes.
-/

namespace CodeAssist.TestBed

/-! ## 1. Words -/

/-- What is done if a parameter has no value, or if it has one. -/
inductive Choice where
  /-- A word stands for it. -/
  | default
  /-- A word becomes its value. -/
  | assign
  /-- The shell ends, with a word as the reason. -/
  | fail
  /-- A word stands for it if it has a value. -/
  | replace

inductive Opening where
  /-- Emptied, unless files that are there are to be kept. -/
  | fresh
  /-- Emptied in any case. -/
  | over_
  /-- Written at its end. -/
  | append
  deriving DecidableEq

mutual

/-- A piece of a word. What is quoted is neither split nor taken as a pattern. -/
inductive Piece where
  | text (cs : List Char) (quoted : Bool)
  | parameter (name : String) (use : Use) (quoted : Bool)
  /-- What commands say. -/
  | output (body : Command) (quoted : Bool)
  /-- The value of an expression. -/
  | number (expression : List Piece) (quoted : Bool)

inductive Use where
  | value
  | length
  /-- Its value, unless it has none; an empty value counts as none if `orEmpty` says so. -/
  | choice (c : Choice) (orEmpty : Bool) (word : List Piece)
  /-- Its value without what a pattern matches at its start or end. -/
  | trimmed (atEnd longest : Bool) (pattern : List Piece)
  /-- Nothing that makes sense. -/
  | bad

inductive Redirection where
  | read (fd : Nat) (source : List Piece)
  | write (fd : Nat) (target : List Piece) (opening : Opening)
  /-- What one descriptor is becomes that of another, or it is closed. -/
  | copy (fd : Nat) (source : List Piece)
  /-- A text that stands in the script, by its number. -/
  | here (fd : Nat) (number : Nat)

inductive Command where
  | empty
  | simple (line : Nat) (words : List (List Piece)) (redirections : List Redirection)
  | pipe (members : List Command)
  | negated (c : Command)
  | ifSuccess (first second : Command)
  | ifFailure (first second : Command)
  | after (first second : Command)
  /-- Its output is not waited for. -/
  | background (c : Command)
  /-- A shell of its own. -/
  | apart (c : Command)
  | redirected (line : Nat) (c : Command) (redirections : List Redirection)
  | if_ (test then_ else_ : Command)
  | while_ (test body : Command) (until_ : Bool)
  /-- For each of some words, or for each argument. -/
  | for_ (line : Nat) (name : String) (words : Option (List (List Piece))) (body : Command)
  | case_ (line : Nat) (word : List Piece) (clauses : List (List (List Piece) × Command))
  | function (name : String) (body : Command)

end

abbrev Word := List Piece

instance : Inhabited Piece := ⟨.text [] false⟩

instance : Inhabited Command := ⟨.empty⟩

instance : Inhabited Redirection := ⟨.here 0 0⟩

/-! ## 2. Names -/

def isNameStart (c : Char) : Bool :=
  c.isAlpha || c == '_'

def isNameChar (c : Char) : Bool :=
  c.isAlphanum || c == '_'

def isSpecialName (c : Char) : Bool :=
  c.isDigit || ['?', '#', '@', '*', '$', '!', '-'].contains c

def isName (cs : List Char) : Bool :=
  cs.head?.any isNameStart && cs.all isNameChar

/-- The name and the value at the start of an assignment: the value goes on with the pieces after
its first. -/
def assignment? (w : Word) : Option (String × Word) :=
  match w with
  | .text cs false :: rest =>
    let name := cs.takeWhile (· != '=')
    if name.length < cs.length && isName name then
      let start := cs.drop (name.length + 1)
      some (String.ofList name, if start.isEmpty then rest else .text start false :: rest)
    else none
  | _ => none

/-- The characters of a word as they are written, and whether any of it is quoted, if it has only
plain pieces. -/
def plainText? (w : Word) : Option (List Char × Bool) :=
  w.foldl (fun done p => match done, p with
    | some (cs, quoted), .text more q => some (cs ++ more, quoted || q)
    | _, _ => none) (some ([], false))

/-! ## 3. Mistakes -/

inductive SyntaxError where
  | openQuote
  | openBrace
  | openBackquote
  | openExpression
  | badDescriptor
  | badVariable
  | badFunction
  | unexpected (what : String) (expecting : Option String)
  deriving DecidableEq

def SyntaxError.message : SyntaxError → String
  | openQuote => "Syntax error: Unterminated quoted string"
  | openBrace => "Syntax error: Missing '\x7d'"
  | openBackquote => "Syntax error: EOF in backquote substitution"
  | openExpression => "Syntax error: Missing '))'"
  | badDescriptor => "Syntax error: Bad fd number"
  | badVariable => "Syntax error: Bad for loop variable"
  | badFunction => "Syntax error: Bad function name"
  | unexpected what none => s!"Syntax error: {what} unexpected"
  | unexpected what (some other) => s!"Syntax error: {what} unexpected (expecting {other})"

def Redirection.fd : Redirection → Nat
  | read fd _ => fd
  | write fd _ _ => fd
  | copy fd _ => fd
  | here fd _ => fd

end CodeAssist.TestBed
