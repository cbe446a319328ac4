import CodeAssist.Json.Basic
import CodeAssist.Moment
import CodeAssist.Table

/-!
Reading typed values out of JSON.

A record is read from an object by field names, unknown fields ignored and a repeated known field
refused, or from an array by position. A field that may be missing says so where it is read.
-/

namespace CodeAssist.Json

/-! ## 1. Plain values -/

def asWord32? (j : Json) : Option UInt32 :=
  j.asNat?.bind fun n => if n < Nat.pow 2 32 then some (UInt32.ofNat n) else none

def asWord? (j : Json) : Option UInt64 :=
  j.asNat?.bind fun n => if n < Nat.pow 2 64 then some (UInt64.ofNat n) else none

def ofWord (w : UInt64) : Json :=
  ofNat w.toNat

/-- A number of the 32-bit floating-point format; any number is rounded to it. -/
def asSingle? : Json → Option Number.Binary
  | number (.natural n) => some (Number.single.ofNat n)
  | number (.negative n) => some (Number.single.ofInt (-(n : Int)))
  | number (.real x) => some (Number.single.convert x)
  | _ => none

/-- A number of the 32-bit format as a value: the fewest digits that read back, or null for an
infinity. -/
def ofSingle : Number.Binary → Json
  | .finite negative significand exponent =>
    let (digits, power) := Number.single.shortest significand exponent
    match Number.ofDecimal negative digits power with
    | some x => number (.real x)
    | none => null
  | .infinite _ => null

def asMoment? (j : Json) : Option Moment :=
  j.asText?.bind Moment.ofText?

def ofMoment (m : Moment) : Json :=
  text m.toText

/-! ## 2. Containers -/

/-- Every item read; nothing when one of them cannot be. -/
def readItems (item : Json → Option α) : List Json → Option (List α)
  | [] => some []
  | j :: rest => do
    let a ← item j
    let more ← readItems item rest
    return a :: more

def asList? (item : Json → Option α) (j : Json) : Option (List α) :=
  j.asArray?.bind (readItems item)

def asTexts? (j : Json) : Option (List String) :=
  j.asList? asText?

def asOption? (item : Json → Option α) (j : Json) : Option (Option α) :=
  if j.isNull then some none else (item j).map some

/-- An optional value: null when there is none. -/
def ofOption (item : α → Json) : Option α → Json
  | some a => item a
  | none => null

/-- The entries of an object put one after the other into `done`. -/
def readEntries (item : Json → Option α) (done : Table α) :
    List (String × Json) → Option (Table α)
  | [] => some done
  | (k, v) :: rest => do
    let a ← item v
    readEntries item (done.put k a) rest

/-- An object as a table in the order of its keys' first appearance, later values winning. -/
def asTable? (item : Json → Option α) (j : Json) : Option (Table α) :=
  match j with
  | object fields => readEntries item .empty fields
  | _ => none

def ofTable (item : α → Json) (t : Table α) : Json :=
  object (t.entries.map fun e => (e.1, item e.2))

/-! ## 3. Records -/

/-- What a value says about one field of a record. -/
inductive Slot where
  /-- The field's value. -/
  | given (value : Json)
  /-- No field of that name. -/
  | unnamed
  /-- The array ends before that position. -/
  | beyond

def occurrences (name : String) (fields : List (String × Json)) : Nat :=
  (fields.filter fun f => f.1 == name).length

def slots? (names : List String) (j : Json) : Option (List Slot) :=
  match j with
  | object fields =>
    if names.any fun name => 1 < occurrences name fields then none
    else some (names.map fun name => ((lookup name fields).map Slot.given).getD .unnamed)
  | array items =>
    if names.length < items.length then none
    else some (items.map .given ++ List.replicate (names.length - items.length) .beyond)
  | _ => none

namespace Slot

def required (item : Json → Option α) : Slot → Option α
  | given j => item j
  | _ => none

def default (fallback : α) (item : Json → Option α) : Slot → Option α
  | given j => item j
  | _ => some fallback

/-- The value of a field that may be null, or missing by name. -/
def nullable (item : Json → Option α) : Slot → Option (Option α)
  | given j => j.asOption? item
  | unnamed => some none
  | beyond => none

/-- The value of a field that may be null or missing. -/
def optional (item : Json → Option α) : Slot → Option (Option α)
  | given j => j.asOption? item
  | _ => some none

end Slot

/-- The tag of a tagged record and the record without it: the field of that name, or the first
item. -/
def tagged? (tag : String) (j : Json) : Option (String × Json) :=
  match j with
  | object fields =>
    if occurrences tag fields == 1 then
      match lookup tag fields with
      | some (text name) => some (name, object (fields.filter fun f => f.1 != tag))
      | _ => none
    else none
  | array (text name :: rest) => some (name, array rest)
  | _ => none

/-- One of a set of names, written as a string or as an object of that one name and null. -/
def asName? (j : Json) : Option String :=
  match j with
  | text name => some name
  | object [(name, null)] => some name
  | _ => none

/-- One of a set of names in a field of a tagged record, where an empty object counts as null. -/
def asTaggedName? (j : Json) : Option String :=
  match j with
  | object [(name, object [])] => some name
  | _ => j.asName?

end CodeAssist.Json
