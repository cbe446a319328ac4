import CodeAssist.Text.Blank
import CodeAssist.Text.Word

/-!
Patterns and where they match.

A pattern reads a match at the head of a text. Matches are looked for from left to right, and the
search goes on behind each match, so matches never overlap.
-/

namespace CodeAssist.Text

/-- Reads a match at the head of a text, given the character before it: a value and the text after
the match, which is shorter. -/
abbrev Pattern (α : Type) := Option Char → List Char → Option (α × List Char)

/-! ## 1. Parts of patterns -/

/-- The text after `lit`, if it starts with it. -/
def after? (lit cs : List Char) : Option (List Char) :=
  if lit.isPrefixOf cs then some (cs.drop lit.length) else none

def afterChar? (c : Char) : List Char → Option (List Char)
  | [] => none
  | d :: rest => if d == c then some rest else none

def wordStart? (w : String) (before : Option Char) (cs : List Char) : Option (List Char) :=
  if before.any isWord then none else after? w.toList cs

def word? (cs : List Char) : Option (List Char × List Char) :=
  let run := cs.takeWhile isWord
  if run.isEmpty then none else some (run, cs.dropWhile isWord)

def blanks? (cs : List Char) : Option (List Char) :=
  if cs.head?.any isBlank then some (dropBlank cs) else none

/-! ## 2. Searching -/

/-- The matches of a pattern, each with the line it starts on. `skip` characters still belong to
the last match. -/
def matchesFrom (p : Pattern α) (skip : Nat) (before : Option Char) (line : Nat) :
    List Char → List (Nat × α)
  | [] => []
  | c :: rest =>
    let nextLine := if c == '\n' then line + 1 else line
    match skip with
    | k + 1 => matchesFrom p k (some c) nextLine rest
    | 0 =>
      match p before (c :: rest) with
      | some (a, behind) =>
        (line, a) :: matchesFrom p (rest.length - behind.length) (some c) nextLine rest
      | none => matchesFrom p 0 (some c) nextLine rest

/-- The matches of a pattern, each with the line it starts on, counted from one. -/
def matchesOf (p : Pattern α) (cs : List Char) : List (Nat × α) :=
  matchesFrom p 0 none 1 cs

/-- The value of the first match, given the character before the text. -/
def firstFrom (p : Pattern α) (before : Option Char) : List Char → Option α
  | [] => none
  | c :: rest =>
    match p before (c :: rest) with
    | some (a, _) => some a
    | none => firstFrom p (some c) rest

def firstMatch (p : Pattern α) (cs : List Char) : Option α :=
  firstFrom p none cs

def isMatch (p : Pattern α) (cs : List Char) : Bool :=
  (firstMatch p cs).isSome

/-! ## 3. Replacing -/

/-- The text with the value of each match in its place. `skip` characters still belong to the last
match. -/
def replaceFrom (p : Pattern (List Char)) (skip : Nat) (before : Option Char) :
    List Char → List Char
  | [] => []
  | c :: rest =>
    match skip with
    | k + 1 => replaceFrom p k (some c) rest
    | 0 =>
      match p before (c :: rest) with
      | some (new, behind) => new ++ replaceFrom p (rest.length - behind.length) (some c) rest
      | none => c :: replaceFrom p 0 (some c) rest

def replaceAll (p : Pattern (List Char)) (cs : List Char) : List Char :=
  replaceFrom p 0 none cs

end CodeAssist.Text
