import CodeAssist.Text.Case
import CodeAssist.Text.Line
import CodeAssist.Text.Pattern

/-!
Diagnosis without a network: a table of common compiler messages.
-/

namespace CodeAssist.Offline

open Text

/-! ## 1. Reading a message -/

def locationPattern : Pattern (List Char) := fun _ cs => do
  let rest ← afterChar? ':' cs
  let digits := rest.takeWhile isDigit
  if digits.isEmpty then none
  let rest ← afterChar? ':' (rest.dropWhile isDigit)
  return (digits, rest)

def opensName (c : Char) : Bool :=
  c == '‘' || c.toNat == 0x27 || c.toNat == 0x60

def closesName (c : Char) : Bool :=
  c == '’' || c.toNat == 0x27

def quotedNamePattern : Pattern (List Char) := fun _ cs => do
  match cs with
  | c :: rest =>
    if opensName c then
      let (name, rest) ← word? rest
      match rest with
      | d :: rest => if closesName d then some (name, rest) else none
      | [] => none
    else none
  | [] => none

/-- A number in ASCII digits, if it fits into 64 bits. -/
def lineNumber? (digits : List Char) : Option Nat :=
  if digits.all isAsciiDigit then
    let n := digits.foldl (fun n d => n * 10 + (d.toNat - 0x30)) 0
    if n < Nat.pow 2 64 then some n else none
  else none

/-! ## 2. The missing semicolon -/

/-- Whether a statement on the line lacks its semicolon: the line is not blank, ends neither in a
semicolon nor in a brace, and is no directive. -/
def needsSemicolon (line : List Char) : Bool :=
  let trimmed := dropBlankEnd line
  let last := trimmed.getLast?
  !trimmed.all isBlank && last != some ';' && last != some '{' && last != some '}' &&
    (dropBlank trimmed).head? != some '#'

/-- The line the compiler means by a reported index: the nearest line before it that is not
blank, if it needs a semicolon, or else the reported one, if that does. -/
def semicolonLine? (ls : List (List Char)) (reported : Nat) : Option Nat :=
  let before := ((ls.take reported).zipIdx.reverse.find? fun (line, _) => !line.all isBlank)
  match before.filter fun (line, _) => needsSemicolon line with
  | some (_, index) => some index
  | none => if (ls[reported]?).any needsSemicolon then some reported else none

/-- `insert_semicolon`: the code with a semicolon at the end of the statement that a report at a
line, counted from one, is about. -/
def insertSemicolon (code : List Char) (reported : Nat) : Option (List Char) :=
  let ls := lines code
  if reported == 0 || ls.length < reported then none
  else do
    let index ← semicolonLine? ls (reported - 1)
    let fixed := ls.modify index fun line => dropBlankEnd line ++ [';']
    return joinWith ['\n'] fixed ++ (if code.getLast? == some '\n' then ['\n'] else [])

/-! ## 3. The table -/

/-- `header_for`: the header that declares a library function. -/
def headerOf? (function : String) : Option String :=
  if ["printf", "scanf", "puts", "putchar", "getchar", "fgets", "fopen", "fclose",
      "fprintf"].contains function then some "stdio.h"
  else if ["malloc", "calloc", "realloc", "free", "exit", "atoi", "abs"].contains function then
    some "stdlib.h"
  else if ["strlen", "strcpy", "strcmp", "strcat", "memcpy", "memset"].contains function then
    some "string.h"
  else if ["sqrt", "pow", "sin", "cos", "fabs"].contains function then some "math.h"
  else none

/-- `LocalDiagnosis`: what is wrong, how to mend it, and why. -/
structure Advice where
  diagnosis : String
  suggestedFix : String
  explanation : String
  deriving DecidableEq, Repr

def semicolonAdvice (line : Option Nat) (code : String) : Advice where
  diagnosis := "A statement is missing its terminating semicolon."
  suggestedFix :=
    match line.bind (insertSemicolon code.toList) with
    | some fixed => String.ofList fixed
    | none => "Add `;` at the end of the statement before the reported location."
  explanation := "Every C statement ends with `;`. The compiler reports the error at the " ++
    "token after the missing semicolon, usually on the next line."

def declarationAdvice (name : Option String) (code : String) : Advice :=
  let function := name.getD "the function"
  let header := headerOf? function
  { diagnosis := s!"`{function}` is called before it is declared."
    suggestedFix :=
      match header.filter fun h => !contains code s!"<{h}>" with
      | some h => s!"#include <{h}>\n{code}"
      | none => s!"Declare a prototype for `{function}` before its first use."
    explanation :=
      match header with
      | some h => s!"`{function}` is declared in <{h}>, which must be included."
      | none => "C requires a declaration or prototype before a function is called." }

def undeclaredAdvice (name : Option String) : Advice :=
  let variable_ := name.getD "an identifier"
  { diagnosis := s!"Undeclared variable or function: {variable_}."
    suggestedFix := s!"Declare `{variable_}` before use (for example `int {variable_} = 0;`) " ++
      "or check its spelling."
    explanation := "Every variable must be declared in scope before it is used." }

/-- Advice on a symbol that the linker does not find. -/
def undefinedAdvice (name : Option String) : Advice :=
  let symbol := name.getD "a symbol"
  { diagnosis := s!"{symbol} is referenced but never defined."
    suggestedFix := s!"Implement `{symbol}` or link the object file or library that defines it, " ++
      "and check the spelling."
    explanation := "The linker found a declaration but no definition." }

def typeAdvice : Advice where
  diagnosis := "A value is used with an incompatible type."
  suggestedFix := "Make the declared type match the value, or add an explicit cast where the " ++
    "conversion is intended."
  explanation := "C converts between some types silently, but pointers and integers, or " ++
    "mismatched pointer types, need matching declarations."

def grammarAdvice : Advice where
  diagnosis := "Syntax error detected in the code."
  suggestedFix := "Check for missing semicolons, brackets, or parentheses near the reported line."
  explanation := "The parser met a token it did not expect at this point."

/-- Advice on a message that the table does not know. -/
def generalAdvice : Advice where
  diagnosis := "Unable to analyze the error automatically."
  suggestedFix := "Please check the syntax around the reported location and try again."
  explanation := "Basic error analysis performed."

/-- `diagnose_locally`: the advice on a compiler message about some code: the first entry of the
table that fits. -/
def diagnose (errorMessage code : String) : Advice :=
  let low := lowerChars errorMessage.toList
  let mentions (phrases : List String) : Bool := phrases.any fun p => occurs p.toList low
  let name := (firstMatch quotedNamePattern errorMessage.toList).map String.ofList
  let line := (firstMatch locationPattern errorMessage.toList).bind lineNumber?
  if mentions ["expected ';'", "expected ‘;’", "missing semicolon"] then semicolonAdvice line code
  else if mentions ["implicit declaration"] then declarationAdvice name code
  else if mentions ["undeclared"] then undeclaredAdvice name
  else if mentions ["undefined reference"] then undefinedAdvice name
  else if mentions ["incompatible", "makes integer from pointer", "makes pointer from integer",
      "type mismatch"] then typeAdvice
  else if mentions ["syntax error", "expected"] then grammarAdvice
  else generalAdvice

end CodeAssist.Offline
