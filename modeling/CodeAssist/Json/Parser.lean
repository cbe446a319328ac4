import CodeAssist.Json.Basic
import CodeAssist.Number.Decimal
import CodeAssist.Text.Word

/-!
Reading JSON text.

The grammar is strict: no raw control characters in strings, no lone surrogates, no leading
zeros, no text after the value, and at most 127 arrays and objects inside one another. A reader
gives the value it found and the text after it.
-/

namespace CodeAssist.Json

open Text (isAsciiDigit)

/-! ## 1. Blanks and words -/

def isSpace (c : Char) : Bool :=
  c == ' ' || c == '\n' || c == '\t' || c == '\r'

def skipSpace (cs : List Char) : List Char :=
  cs.dropWhile isSpace

/-- The text after `word`, if it starts with it. -/
def afterWord (word cs : List Char) : Option (List Char) :=
  if word.isPrefixOf cs then some (cs.drop word.length) else none

/-! ## 2. Strings -/

def hexValue (c : Char) : Option Nat :=
  if '0' ≤ c && c ≤ '9' then some (c.toNat - 0x30)
  else if 'a' ≤ c && c ≤ 'f' then some (c.toNat - 0x57)
  else if 'A' ≤ c && c ≤ 'F' then some (c.toNat - 0x37)
  else none

def hexValue4 (a b c d : Char) : Option Nat := do
  let a ← hexValue a
  let b ← hexValue b
  let c ← hexValue c
  let d ← hexValue d
  return ((a * 16 + b) * 16 + c) * 16 + d

def simpleEscape (c : Char) : Option Char :=
  if c == '"' then some '"'
  else if c == '\\' then some '\\'
  else if c == '/' then some '/'
  else if c == 'b' then some (Char.ofNat 0x08)
  else if c == 'f' then some (Char.ofNat 0x0c)
  else if c == 'n' then some '\n'
  else if c == 'r' then some '\r'
  else if c == 't' then some '\t'
  else none

def isHighSurrogate (n : Nat) : Bool :=
  0xd800 ≤ n && n ≤ 0xdbff

def isLowSurrogate (n : Nat) : Bool :=
  0xdc00 ≤ n && n ≤ 0xdfff

def pairChar (high low : Nat) : Char :=
  Char.ofNat (0x10000 + (high - 0xd800) * 0x400 + (low - 0xdc00))

def stringBody : List Char → Option (List Char × List Char)
  | [] => none
  | c :: rest =>
    if c == '"' then some ([], rest)
    else if c == '\\' then
      match rest with
      | [] => none
      | e :: more =>
        if e == 'u' then
          match more with
          | a :: b :: x :: y :: more =>
            match hexValue4 a b x y with
            | none => none
            | some unit =>
              if isHighSurrogate unit then
                match more with
                | '\\' :: 'u' :: a' :: b' :: x' :: y' :: more =>
                  match hexValue4 a' b' x' y' with
                  | none => none
                  | some low =>
                    if isLowSurrogate low then
                      (stringBody more).map fun (s, after) => (pairChar unit low :: s, after)
                    else none
                | _ => none
              else if isLowSurrogate unit then none
              else (stringBody more).map fun (s, after) => (Char.ofNat unit :: s, after)
          | _ => none
        else
          match simpleEscape e with
          | none => none
          | some ch => (stringBody more).map fun (s, after) => (ch :: s, after)
    else if c.toNat < 0x20 then none
    else (stringBody rest).map fun (s, after) => (c :: s, after)

/-! ## 3. Numbers -/

/-- The greatest natural a number holds exactly. -/
def maxNatural : Nat := Nat.pow 2 64 - 1

/-- Appends digits to a significand for as long as it stays within `maxNatural`: the significand
and how many digits it took. -/
def gather (significand : Nat) : List Char → Nat × Nat
  | [] => (significand, 0)
  | d :: rest =>
    let next := significand * 10 + (d.toNat - 0x30)
    if maxNatural < next then (significand, 0)
    else
      let (total, count) := gather next rest
      (total, count + 1)

def natOfDigits (ds : List Char) : Nat :=
  ds.foldl (fun n d => n * 10 + (d.toNat - 0x30)) 0

/-- The digits after a point: none without one, nothing for a point without digits. -/
def fraction : List Char → Option (Option (List Char) × List Char)
  | '.' :: rest =>
    let ds := rest.takeWhile isAsciiDigit
    if ds.isEmpty then none else some (some ds, rest.dropWhile isAsciiDigit)
  | cs => some (none, cs)

def exponentDigits (negative : Bool) (cs : List Char) : Option (Option Int × List Char) :=
  let ds := cs.takeWhile isAsciiDigit
  if ds.isEmpty then none
  else
    let n : Int := natOfDigits ds
    some (some (if negative then -n else n), cs.dropWhile isAsciiDigit)

def exponentPart : List Char → Option (Option Int × List Char)
  | c :: rest =>
    if c == 'e' || c == 'E' then
      match rest with
      | '-' :: more => exponentDigits true more
      | '+' :: more => exponentDigits false more
      | _ => exponentDigits false rest
    else some (none, c :: rest)
  | [] => some (none, [])

/-- The digits before the point: a lone zero, or digits that start with none. -/
def wholePart : List Char → Option (List Char × List Char)
  | [] => none
  | c :: rest =>
    if c == '0' then (if rest.head?.any isAsciiDigit then none else some (['0'], rest))
    else if isAsciiDigit c then
      some (c :: rest.takeWhile isAsciiDigit, rest.dropWhile isAsciiDigit)
    else none

/-- The number written by its parts. Digits that do not fit into the significand are dropped,
those before the point each adding one to the power of ten. -/
def numeral (negative : Bool) (whole : List Char) (frac : Option (List Char)) (exp : Option Int) :
    Option Numeral :=
  let (high, used) := gather 0 whole
  let left := whole.length - used
  match frac, exp with
  | none, none =>
    if left != 0 then (Number.ofDecimal negative high left).map .real
    else if !negative then some (.natural high)
    else if 0 < high && high ≤ Nat.pow 2 63 then some (.negative high)
    else (Number.ofDecimal true high 0).map .real
  | _, _ =>
    let (total, places) := gather high (frac.getD [])
    (Number.ofDecimal negative total ((left : Int) - places + exp.getD 0)).map .real

def unsignedNumber (negative : Bool) (cs : List Char) : Option (Json × List Char) := do
  let (whole, cs) ← wholePart cs
  let (frac, cs) ← fraction cs
  let (exp, cs) ← exponentPart cs
  let n ← numeral negative whole frac exp
  return (number n, cs)

/-! ## 4. Values -/

/-- The items of an array, from the first one to the closing bracket. `fuel` bounds their
number. -/
def itemsFrom (item : List Char → Option (Json × List Char)) :
    Nat → List Char → Option (List Json × List Char)
  | 0, _ => none
  | fuel + 1, cs =>
    match item cs with
    | none => none
    | some (v, rest) =>
      match skipSpace rest with
      | ',' :: more => (itemsFrom item fuel more).map fun (vs, after) => (v :: vs, after)
      | ']' :: after => some ([v], after)
      | _ => none

/-- The fields of an object, from the first one to the closing brace. `fuel` bounds their
number. -/
def fieldsFrom (item : List Char → Option (Json × List Char)) :
    Nat → List Char → Option (List (String × Json) × List Char)
  | 0, _ => none
  | fuel + 1, cs =>
    match skipSpace cs with
    | '"' :: rest =>
      match stringBody rest with
      | none => none
      | some (key, rest) =>
        match skipSpace rest with
        | ':' :: rest =>
          match item rest with
          | none => none
          | some (v, rest) =>
            let field := (String.ofList key, v)
            match skipSpace rest with
            | ',' :: more => (fieldsFrom item fuel more).map fun (fs, after) => (field :: fs, after)
            | '}' :: after => some ([field], after)
            | _ => none
        | _ => none
    | _ => none

def scalar (cs : List Char) : Option (Json × List Char) :=
  match cs with
  | 'n' :: _ => (afterWord "null".toList cs).map fun after => (null, after)
  | 't' :: _ => (afterWord "true".toList cs).map fun after => (bool true, after)
  | 'f' :: _ => (afterWord "false".toList cs).map fun after => (bool false, after)
  | '"' :: rest => (stringBody rest).map fun (s, after) => (text (String.ofList s), after)
  | '-' :: rest => unsignedNumber true rest
  | _ => unsignedNumber false cs

/-- A value at the head of a text, with at most `depth` containers inside one another. `fuel`
bounds the size of each container. -/
def value (fuel : Nat) : Nat → List Char → Option (Json × List Char)
  | 0, cs =>
    match skipSpace cs with
    | '[' :: _ => none
    | '{' :: _ => none
    | cs => scalar cs
  | depth + 1, cs =>
    match skipSpace cs with
    | '[' :: rest =>
      match skipSpace rest with
      | ']' :: after => some (array [], after)
      | _ => (itemsFrom (value fuel depth) fuel rest).map fun (vs, after) => (array vs, after)
    | '{' :: rest =>
      match skipSpace rest with
      | '}' :: after => some (object [], after)
      | _ => (fieldsFrom (value fuel depth) fuel rest).map fun (fs, after) => (object fs, after)
    | cs => scalar cs

/-- How many containers may lie inside one another. -/
def maxDepth : Nat := 127

/-- The value at the head of a text, fields as written, and the text after it. -/
def parseHead (cs : List Char) : Option (Json × List Char) :=
  (value cs.length maxDepth cs).map fun (j, rest) => (j, skipSpace rest)

/-- The value that a whole text writes, fields as written. -/
def parseChars (cs : List Char) : Option Json :=
  match parseHead cs with
  | some (j, rest) => if rest.isEmpty then some j else none
  | none => none

/-- The value that a string writes, fields as written. -/
def parse (s : String) : Option Json :=
  parseChars s.toList

/-- The value that a string writes, objects read as maps. -/
def read (s : String) : Option Json :=
  (parse s).map canonical

end CodeAssist.Json
