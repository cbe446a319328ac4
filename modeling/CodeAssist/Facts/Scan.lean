import CodeAssist.Facts.Basic
import CodeAssist.Text.Pattern

/-!
Facts of a source text.

The text is matched against three patterns, not parsed: a type and a name before a parameter list
and a brace, a type and a name before `=` or `;`, and an include line. Text that is half written
gives the facts of its complete parts.
-/

namespace CodeAssist.Facts

open Text

/-! ## 1. The patterns -/

/-- Words that look like a type or a name and are neither. -/
def controlWords : List String :=
  ["if", "else", "while", "for", "switch", "return", "sizeof", "do", "case", "goto"]

/-- Two words with blanks between them. A match starts where a word starts: one that started
inside the word would go on in the same way. -/
def wordPair (before : Option Char) (cs : List Char) :
    Option ((List Char × List Char) × List Char) := do
  if before.any isWord then none
  let (type, cs) ← word? cs
  let cs ← blanks? cs
  let (name, cs) ← word? cs
  return ((type, name), dropBlank cs)

/-- A type and a name, a parameter list, and an opening brace. -/
def functionPattern : Pattern (List Char × List Char) := fun before cs => do
  let (pair, cs) ← wordPair before cs
  let cs ← afterChar? '(' cs
  let cs ← afterChar? ')' (cs.dropWhile (· != ')'))
  let cs ← afterChar? '{' (dropBlank cs)
  return (pair, cs)

/-- A type and a name before `=` or `;`. -/
def variablePattern : Pattern (List Char × List Char) := fun before cs => do
  let (pair, cs) ← wordPair before cs
  match cs with
  | c :: rest => if c == '=' || c == ';' then some (pair, rest) else none
  | [] => none

def closesHeader (c : Char) : Bool :=
  c == '>' || c == '"'

/-- An include of a header between angle brackets or quotes. -/
def includePattern : Pattern (List Char) := fun _ cs => do
  let cs ← after? "#include".toList cs
  match dropBlank cs with
  | c :: cs =>
    if c == '<' || c == '"' then
      let header := cs.takeWhile (!closesHeader ·)
      match cs.dropWhile (!closesHeader ·) with
      | _ :: rest => if header.isEmpty then none else some (header, rest)
      | [] => none
    else none
  | [] => none

/-! ## 2. The facts -/

/-- `is_identifier_pair`: whether a type and a name can be ones: no control words, and a name
without a leading digit. -/
def isIdentifierPair (type name : String) : Bool :=
  !controlWords.contains type && !controlWords.contains name &&
    !name.toList.head?.any isAsciiDigit

def functionOf (line : Nat) (type name : List Char) : Option FunctionFact :=
  let type := String.ofList type
  let name := String.ofList name
  if isIdentifierPair type name then some ⟨type, name, line⟩ else none

def variableOf (line : Nat) (type name : List Char) : Option VariableFact :=
  let type := String.ofList type
  let name := String.ofList name
  if isIdentifierPair type name then some ⟨type, name, line⟩ else none

def ofChars (cs : List Char) : Facts where
  functions := (matchesOf functionPattern cs).filterMap fun (line, type, name) =>
    functionOf line type name
  vars := (matchesOf variablePattern cs).filterMap fun (line, type, name) =>
    variableOf line type name
  includes := (matchesOf includePattern cs).map fun (line, header) =>
    ⟨String.ofList (strip header), line⟩

/-- `extract_facts`: the facts of a text. -/
def ofText (content : String) : Facts :=
  ofChars content.toList

end CodeAssist.Facts
