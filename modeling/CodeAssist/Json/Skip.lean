import CodeAssist.Json.Parser

/-!
Passing over JSON values that nobody asked for.

A value that is passed over has to follow the grammar, but nothing is made of it: its numbers may
be too large to hold, its strings may hold half a surrogate pair, and it may be as deep as it
likes.
-/

namespace CodeAssist.Json

/-! ## 1. Scalars -/

/-- The text after a string, from behind its opening quote. -/
def skipString : List Char → Option (List Char)
  | [] => none
  | c :: rest =>
    if c == '"' then some rest
    else if c == '\\' then
      match rest with
      | 'u' :: a :: b :: x :: y :: more =>
        if (hexValue4 a b x y).isSome then skipString more else none
      | e :: more => if (simpleEscape e).isSome then skipString more else none
      | [] => none
    else if c.toNat < 0x20 then none
    else skipString rest

def skipNumber (cs : List Char) : Option (List Char) := do
  let (_, cs) ← wholePart cs
  let (_, cs) ← fraction cs
  let (_, cs) ← exponentPart cs
  return cs

def skipScalar (cs : List Char) : Option (List Char) :=
  match cs with
  | 'n' :: _ => afterWord "null".toList cs
  | 't' :: _ => afterWord "true".toList cs
  | 'f' :: _ => afterWord "false".toList cs
  | '"' :: rest => skipString rest
  | '-' :: rest => skipNumber rest
  | _ => skipNumber cs

/-! ## 2. Containers -/

inductive Container where
  | list
  | map
  deriving DecidableEq, Repr

def Container.close : Container → Char
  | list => ']'
  | map => '}'

def skipKey (cs : List Char) : Option (List Char) :=
  match skipSpace cs with
  | '"' :: rest =>
    match (skipString rest).map skipSpace with
    | some (':' :: after) => some after
    | _ => none
  | _ => none

def Container.next (c : Container) (cs : List Char) : Option (List Char) :=
  match c with
  | list => some cs
  | map => skipKey cs

/-- What follows a value inside open containers, the innermost first: those of them that stay open
and the text from their next value on, or no containers and the text after them all. -/
def afterValue : List Container → List Char → Option (List Container × List Char)
  | [], cs => some ([], cs)
  | inner :: outer, cs =>
    match skipSpace cs with
    | [] => none
    | c :: rest =>
      if c == ',' then (inner.next rest).map fun more => (inner :: outer, more)
      else if c == inner.close then afterValue outer rest
      else none

/-- The containers that are open, and the text from a value on, after a container was opened. -/
def openContainer (c : Container) (outer : List Container) (cs : List Char) :
    Option (List Container × List Char) :=
  match skipSpace cs with
  | [] => none
  | d :: rest =>
    if d == c.close then afterValue outer rest
    else (c.next cs).map fun more => (c :: outer, more)

/-- The text after a value and after the containers it lies in. `fuel` bounds the number of
values. -/
def skipWithin : Nat → List Container → List Char → Option (List Char)
  | 0, _, _ => none
  | fuel + 1, containers, cs =>
    let step := match skipSpace cs with
      | '[' :: rest => openContainer .list containers rest
      | '{' :: rest => openContainer .map containers rest
      | cs => (skipScalar cs).bind (afterValue containers)
    match step with
    | none => none
    | some ([], rest) => some rest
    | some (containers, rest) => skipWithin fuel containers rest

def skipValue (cs : List Char) : Option (List Char) :=
  skipWithin (cs.length + 1) [] cs

end CodeAssist.Json
