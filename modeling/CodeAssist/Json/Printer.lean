import CodeAssist.Json.Basic
import CodeAssist.Number.Decimal

/-!
JSON text of values: compact, and pretty with two blanks a level.
-/

namespace CodeAssist.Json

/-! ## 1. Strings and numbers -/

def hexDigit (n : Nat) : Char :=
  if n < 10 then Char.ofNat (0x30 + n) else Char.ofNat (0x57 + n)

/-- A character inside a quoted string: quotes, backslashes and control characters escaped. -/
def escapeChar (c : Char) : List Char :=
  if c == '"' then ['\\', '"']
  else if c == '\\' then ['\\', '\\']
  else if c == '\n' then ['\\', 'n']
  else if c == '\r' then ['\\', 'r']
  else if c == '\t' then ['\\', 't']
  else if c.toNat == 0x08 then ['\\', 'b']
  else if c.toNat == 0x0c then ['\\', 'f']
  else if c.toNat < 0x20 then
    ['\\', 'u', '0', '0', hexDigit (c.toNat / 16), hexDigit (c.toNat % 16)]
  else [c]

def quote (s : String) : List Char :=
  '"' :: s.toList.flatMap escapeChar ++ ['"']

/-- The text of a number; an infinity is written as null. -/
def writeNumeral : Numeral → List Char
  | .natural n => Number.digitsOf n
  | .negative n => '-' :: Number.digitsOf n
  | .real x => (Number.double.write Number.plainLayout x).getD "null".toList

def writeBool (b : Bool) : List Char :=
  if b then "true".toList else "false".toList

/-! ## 2. Compact text -/

mutual

def compact : Json → List Char
  | null => "null".toList
  | bool b => writeBool b
  | number n => writeNumeral n
  | text s => quote s
  | array items => '[' :: compactItems items ++ [']']
  | object fields => '{' :: compactFields fields ++ ['}']

def compactItems : List Json → List Char
  | [] => []
  | [j] => compact j
  | j :: rest => compact j ++ ',' :: compactItems rest

def compactFields : List (String × Json) → List Char
  | [] => []
  | [(k, v)] => quote k ++ ':' :: compact v
  | (k, v) :: rest => quote k ++ ':' :: compact v ++ ',' :: compactFields rest

end

def render (j : Json) : String :=
  String.ofList (compact j)

/-! ## 3. Pretty text -/

def newline (depth : Nat) : List Char :=
  '\n' :: List.replicate (2 * depth) ' '

mutual

/-- The text of a value at a depth, every item and field on a line of its own. -/
def prettyAt (depth : Nat) : Json → List Char
  | null => "null".toList
  | bool b => writeBool b
  | number n => writeNumeral n
  | text s => quote s
  | array [] => ['[', ']']
  | array (j :: rest) =>
    '[' :: newline (depth + 1) ++ prettyItems (depth + 1) (j :: rest) ++ newline depth ++ [']']
  | object [] => ['{', '}']
  | object (f :: rest) =>
    '{' :: newline (depth + 1) ++ prettyFields (depth + 1) (f :: rest) ++ newline depth ++ ['}']

def prettyItems (depth : Nat) : List Json → List Char
  | [] => []
  | [j] => prettyAt depth j
  | j :: rest => prettyAt depth j ++ ',' :: newline depth ++ prettyItems depth rest

def prettyFields (depth : Nat) : List (String × Json) → List Char
  | [] => []
  | [(k, v)] => quote k ++ ':' :: ' ' :: prettyAt depth v
  | (k, v) :: rest =>
    quote k ++ ':' :: ' ' :: prettyAt depth v ++ ',' :: newline depth ++ prettyFields depth rest

end

def pretty (j : Json) : String :=
  String.ofList (prettyAt 0 j)

end CodeAssist.Json
