import CodeAssist.Offline.Segment
import CodeAssist.Text.Line
import CodeAssist.Text.Pattern

/-!
Refactoring without a network: formatting, and two small improvements.

The rules are applied one after the other; a rule that changes the text is listed by its label.
-/

namespace CodeAssist.Offline

open Text

/-! ## 1. White space -/

def crlfPattern : Pattern (List Char) := fun _ cs => do
  let rest ← after? ['\r', '\n'] cs
  return (['\n'], rest)

def tabPattern : Pattern (List Char) := fun _ cs => do
  let rest ← afterChar? '\t' cs
  return ([' ', ' ', ' ', ' '], rest)

/-- The text without blanks at the ends of its lines. -/
def trimLines (cs : List Char) : List Char :=
  joinWith ['\n'] ((lines cs).map dropBlankEnd) ++
    (if cs.getLast? == some '\n' then ['\n'] else [])

def blankRunPattern : Pattern (List Char) := fun _ cs => do
  let rest ← after? ['\n', '\n', '\n'] cs
  return (['\n', '\n'], rest.dropWhile (· == '\n'))

/-! ## 2. Spacing inside code -/

def spacedKeywords : List String :=
  ["if", "for", "while", "switch", "return"]

def keywordPattern : Pattern (List Char) := fun before cs =>
  spacedKeywords.findSome? fun w => do
    let rest ← wordStart? w before cs
    let rest ← afterChar? '(' rest
    return (w.toList ++ [' ', '('], rest)

/-- A comma right before a character that is not blank. -/
def commaPattern : Pattern (List Char) := fun _ cs => do
  let rest ← afterChar? ',' cs
  match rest with
  | c :: rest => if isBlank c then none else some ([',', ' ', c], rest)
  | [] => none

def isSpaceOrTab (c : Char) : Bool :=
  c == ' ' || c == '\t'

def braceBelowPattern : Pattern (List Char) := fun _ cs => do
  let rest ← afterChar? ')' cs
  let rest ← afterChar? '\n' (rest.dropWhile isSpaceOrTab)
  let rest ← afterChar? '{' (rest.dropWhile isSpaceOrTab)
  return ([')', ' ', '{'], rest)

def braceTightPattern : Pattern (List Char) := fun _ cs => do
  let rest ← after? [')', '{'] cs
  return ([')', ' ', '{'], rest)

/-! ## 3. Improvements -/

/-- A definition of `main` with an empty parameter list. -/
def bareMainPattern : Pattern (List Char) := fun before cs => do
  let rest ← wordStart? "int" before cs
  let rest ← blanks? rest
  let rest ← after? "main".toList rest
  let rest ← afterChar? '(' (dropBlank rest)
  let rest ← afterChar? ')' (dropBlank rest)
  return ("int main(void)".toList, rest)

def isConstantChar (c : Char) : Bool :=
  c != '%' && c != '"' && c != '\\'

def constantPrintPattern : Pattern (List Char) := fun before cs => do
  let rest ← wordStart? "printf(\"" before cs
  let text := rest.takeWhile isConstantChar
  let rest ← after? "\\n\");".toList (rest.dropWhile isConstantChar)
  return ("puts(\"".toList ++ text ++ "\");".toList, rest)

/-- Constant lines printed by `puts`, where the header that declares it is included. -/
def preferPuts (cs : List Char) : List Char :=
  if occurs "#include <stdio.h>".toList cs then replaceAll constantPrintPattern cs else cs

/-! ## 4. The rules -/

/-- A rule: what it does, and doing it. -/
structure Rule where
  label : String
  apply : List Char → List Char

/-- The rules, in the order they are applied. -/
def rules : List Rule :=
  [⟨"Normalized line endings to LF", replaceAll crlfPattern⟩,
   ⟨"Expanded tabs to four spaces", replaceAll tabPattern⟩,
   ⟨"Removed trailing whitespace", trimLines⟩,
   ⟨"Collapsed runs of blank lines", replaceAll blankRunPattern⟩,
   ⟨"Added a space between control keywords and parentheses",
    mapCode (replaceAll keywordPattern)⟩,
   ⟨"Added a space after commas", mapCode (replaceAll commaPattern)⟩,
   ⟨"Placed opening braces on the statement line",
    mapCode fun cs => replaceAll braceTightPattern (replaceAll braceBelowPattern cs)⟩,
   ⟨"Declared main with an explicit void parameter list", replaceAll bareMainPattern⟩,
   ⟨"Replaced constant printf calls with puts", preferPuts⟩]

/-- Code after the rules, and the labels of those that changed it. -/
def applyRules : List Rule → List Char → List Char × List String
  | [], cs => (cs, [])
  | rule :: more, cs =>
    let next := rule.apply cs
    let (final, labels) := applyRules more next
    (final, if next == cs then labels else rule.label :: labels)

/-- `LocalRefactor`: code that was tidied, and how. -/
structure Tidied where
  code : String
  explanation : String
  changes : List String
  deriving DecidableEq, Repr

/-- `refactor_locally`: code tidied by the rules; blank code is left alone. -/
def tidy (code : String) : Tidied :=
  if isBlankText code then ⟨code, "Nothing to refactor: the code is empty.", []⟩
  else
    let (final, changes) := applyRules rules code.toList
    let explanation :=
      if changes.isEmpty then "The code already follows the local formatting rules."
      else s!"Applied {changes.length} local formatting and best-practice fixes."
    ⟨String.ofList final, explanation, changes⟩

end CodeAssist.Offline
