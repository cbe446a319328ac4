import CodeAssist.Json.Skip
import CodeAssist.Moment

/-!
Reading JSON text by the shape it should have.

A reader goes through a text from left to right and stops at the first place where the text is no
JSON or is not of its shape, so of two faults the earlier one counts. What it gives is the value
with the fields it knows; the fields it does not know are passed over.
-/

namespace CodeAssist.Json

/-! ## 1. Readers -/

/-- Why a text cannot be read. -/
inductive Refusal where
  /-- It is no JSON. -/
  | malformed
  /-- It is not of the shape it should have. -/
  | mismatched
  deriving DecidableEq, Repr, Inhabited

/-- A reader takes a value from the head of a text, given how many containers may lie inside one
another there. -/
abbrev Reader := Nat → List Char → Except Refusal (Json × List Char)

/-- The refusal of a value that is of another kind than the one asked for. -/
def otherKind (cs : List Char) : Refusal :=
  match cs with
  | '[' :: _ => .mismatched
  | '{' :: _ => .mismatched
  | _ => if (scalar cs).isSome then .mismatched else .malformed

namespace Reader

/-! ## 2. Scalars -/

def free : Reader := fun depth cs =>
  match value cs.length depth cs with
  | some read => .ok read
  | none => .error .malformed

def textWith (test : String → Bool) : Reader := fun _ cs =>
  match skipSpace cs with
  | '"' :: rest =>
    match stringBody rest with
    | none => .error .malformed
    | some (s, after) =>
      let s := String.ofList s
      if test s then .ok (.text s, after) else .error .mismatched
  | cs => .error (otherKind cs)

def text : Reader :=
  textWith fun _ => true

def timestamp : Reader :=
  textWith fun s => (Moment.ofText? s).isSome

def natural (bits : Nat) : Reader := fun _ cs =>
  let cs := skipSpace cs
  match scalar cs with
  | some (number (.natural n), after) =>
    if n < Nat.pow 2 bits then .ok (.ofNat n, after) else .error .mismatched
  | _ => .error (otherKind cs)

def afterNull (cs : List Char) : Except Refusal (List Char) :=
  match afterWord "null".toList cs with
  | some after => .ok after
  | none => .error (otherKind cs)

def nullable (item : Reader) : Reader := fun depth cs =>
  match skipSpace cs with
  | 'n' :: rest => do return (.null, ← afterNull ('n' :: rest))
  | cs => item depth cs

/-! ## 3. Names -/

/-- One of some names, from behind its opening quote. -/
def nameAfterQuote (names : List String) (cs : List Char) :
    Except Refusal (String × List Char) :=
  match stringBody cs with
  | none => .error .malformed
  | some (s, after) =>
    let s := String.ofList s
    if names.contains s then .ok (s, after) else .error .mismatched

def afterChar (c : Char) (cs : List Char) : Except Refusal (List Char) :=
  match skipSpace cs with
  | [] => .error .malformed
  | d :: rest => if d == c then .ok rest else .error .malformed

/-- One of some names: a string, or an object of that one name and null. -/
def oneOf (names : List String) : Reader := fun depth cs =>
  match skipSpace cs with
  | '"' :: rest => do
    let (name, after) ← nameAfterQuote names rest
    return (.text name, after)
  | '{' :: rest =>
    if depth == 0 then .error .malformed
    else
      match skipSpace rest with
      | '"' :: rest => do
        let (name, rest) ← nameAfterQuote names rest
        let rest ← afterChar ':' rest
        let rest ← afterNull (skipSpace rest)
        return (.text name, ← afterChar '}' rest)
      | cs => .error (otherKind cs)
  | _ => .error .malformed

/-! ## 4. Lists and maps -/

/-- Items up to the closing bracket, from the first one on. `fuel` bounds their number. -/
def items (item : List Char → Except Refusal (Json × List Char)) :
    Nat → List Char → Except Refusal (List Json × List Char)
  | 0, _ => .error .malformed
  | fuel + 1, cs => do
    let (j, rest) ← item cs
    match skipSpace rest with
    | ',' :: more =>
      let (js, after) ← items item fuel more
      return (j :: js, after)
    | ']' :: after => return ([j], after)
    | _ => .error .malformed

def list (item : Reader) : Reader := fun depth cs =>
  match skipSpace cs with
  | '[' :: rest =>
    if depth == 0 then .error .malformed
    else
      match skipSpace rest with
      | ']' :: after => .ok (array [], after)
      | _ => do
        let (js, after) ← items (item (depth - 1)) rest.length rest
        return (array js, after)
  | cs => .error (otherKind cs)

def key (cs : List Char) : Except Refusal (String × List Char) :=
  match skipSpace cs with
  | '"' :: rest =>
    match stringBody rest with
    | some (s, after) => .ok (String.ofList s, after)
    | none => .error .malformed
  | _ => .error .malformed

/-- Fields up to the closing brace, from the first one on: each goes to `field` with its name, the
names before it and the text after the name. A field is kept or passed over. `fuel` bounds their
number. -/
def fields
    (field : String → List String → List Char → Except Refusal (Option Json × List Char)) :
    Nat → List String → List Char → Except Refusal (List (String × Json) × List Char)
  | 0, _, _ => .error .malformed
  | fuel + 1, earlier, cs => do
    let (name, rest) ← key cs
    let (kept, rest) ← field name earlier rest
    let this := (kept.map fun j => (name, j)).toList
    match skipSpace rest with
    | ',' :: more =>
      let (others, after) ← fields field fuel (name :: earlier) more
      return (this ++ others, after)
    | '}' :: _ => return (this, skipSpace rest)
    | _ => .error .malformed

def map (item : Reader) : Reader := fun depth cs =>
  match skipSpace cs with
  | '{' :: rest =>
    if depth == 0 then .error .malformed
    else
      match skipSpace rest with
      | '}' :: after => .ok (object [], after)
      | _ => do
        let entry := fun _ _ cs => do
          let (j, after) ← item (depth - 1) (← afterChar ':' cs)
          return (some j, after)
        let (entries, after) ← fields entry rest.length [] rest
        return (object entries, ← afterChar '}' after)
  | cs => .error (otherKind cs)

/-! ## 5. Records -/

/-- When a field of a record may be missing. -/
inductive Presence where
  /-- It may not. -/
  | always
  /-- By name it may, by position it may not. -/
  | byPosition
  /-- It may. -/
  | never
  deriving DecidableEq, Repr

structure Field where
  name : String
  needed : Presence
  reader : Reader

def required (name : String) (reader : Reader) : Field :=
  ⟨name, .always, reader⟩

def optional (name : String) (reader : Reader) : Field :=
  ⟨name, .never, reader⟩

/-- A field of a record by name: a known one is read and may come once, another is passed over. -/
def knownField (known : List Field) (depth : Nat) (name : String) (earlier : List String)
    (cs : List Char) : Except Refusal (Option Json × List Char) :=
  match known.find? fun f => f.name == name with
  | some f =>
    if earlier.contains name then .error .mismatched
    else do
      let (j, after) ← f.reader depth (← afterChar ':' cs)
      return (some j, after)
  | none => do
    match skipValue (← afterChar ':' cs) with
    | some after => return (none, after)
    | none => .error .malformed

/-- The fields of a record by position, `first` telling whether none was read before. The list may
end where the rest of the fields may be missing. -/
def positional (depth : Nat) (first : Bool) :
    List Field → List Char → Except Refusal (List Json × List Char)
  | [], cs => do return ([], ← afterChar ']' cs)
  | f :: rest, cs =>
    match skipSpace cs with
    | ']' :: after =>
      if (f :: rest).all fun g => g.needed == .never then .ok ([], after) else .error .mismatched
    | cs => do
      let cs ← if first then .ok cs else afterChar ',' cs
      let (j, cs) ← f.reader depth cs
      let (js, after) ← positional depth false rest cs
      return (j :: js, after)

/-- A record: an object of its fields by name, or an array of them by position. -/
def record (known : List Field) : Reader := fun depth cs =>
  match skipSpace cs with
  | '{' :: rest =>
    if depth == 0 then .error .malformed
    else do
      let (found, after) ← match skipSpace rest with
        | '}' :: after => .ok ([], '}' :: after)
        | _ => fields (knownField known (depth - 1)) rest.length [] rest
      let missing (f : Field) := f.needed == .always && (lookup f.name found).isNone
      if known.any missing then .error .mismatched
      else return (object found, ← afterChar '}' after)
  | '[' :: rest =>
    if depth == 0 then .error .malformed
    else do
      let (js, after) ← positional (depth - 1) true known rest
      return (array js, after)
  | cs => .error (otherKind cs)

end Reader

/-! ## 6. Texts -/

/-- What a text says, read by `reader` and then by `item`. What follows the value is looked at
last. -/
def decode (reader : Reader) (item : Json → Option α) (cs : List Char) : Except Refusal α := do
  let (j, rest) ← reader maxDepth cs
  match item j with
  | none => .error .mismatched
  | some a => if (skipSpace rest).isEmpty then .ok a else .error .malformed

end CodeAssist.Json
