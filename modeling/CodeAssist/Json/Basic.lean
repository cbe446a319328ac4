import CodeAssist.Number.Binary

/-!
JSON values.

An object keeps its fields in the order they were written, repetitions included, so a value says
all that its text says. `canonical` is the reading of an object as a map: keys ascending, the last
of several equal keys counting.
-/

namespace CodeAssist

/-- A JSON number: a natural below 2 ^ 64, the negation of a positive natural up to 2 ^ 63, or a
64-bit floating-point number. -/
inductive Numeral where
  | natural (n : Nat)
  | negative (n : Nat)
  | real (x : Number.Binary)
  deriving DecidableEq, Repr, Inhabited

inductive Json where
  | null
  | bool (b : Bool)
  | number (n : Numeral)
  | text (s : String)
  | array (items : List Json)
  | object (fields : List (String × Json))
  deriving Repr, Inhabited, BEq

namespace Json

/-! ## 1. Reading a value -/

def lookup (key : String) : List (String × Json) → Option Json
  | [] => none
  | (k, v) :: rest => if k == key then some v else lookup key rest

/-- The member of an object; nothing for other values. -/
def get? (j : Json) (key : String) : Option Json :=
  match j with
  | object fields => lookup key fields
  | _ => none

def asText? : Json → Option String
  | text s => some s
  | _ => none

def asArray? : Json → Option (List Json)
  | array items => some items
  | _ => none

def asNat? : Json → Option Nat
  | number (.natural n) => some n
  | _ => none

def asBool? : Json → Option Bool
  | bool b => some b
  | _ => none

def isNull : Json → Bool
  | null => true
  | _ => false

def isObject : Json → Bool
  | object _ => true
  | _ => false

def isArray : Json → Bool
  | array _ => true
  | _ => false

/-! ## 2. Building a value -/

def ofNat (n : Nat) : Json :=
  number (.natural n)

def ofTexts (ts : List String) : Json :=
  array (ts.map text)

/-! ## 3. Objects as maps -/

/-- Puts a field into ascending fields, over an equal key. -/
def insertField (key : String) (value : Json) : List (String × Json) → List (String × Json)
  | [] => [(key, value)]
  | (k, v) :: rest =>
    if key < k then (key, value) :: (k, v) :: rest
    else if key == k then (key, value) :: rest
    else (k, v) :: insertField key value rest

mutual

/-- The value with every object's keys ascending and unique, the last of equal keys kept. -/
def canonical : Json → Json
  | array items => array (canonicalItems items)
  | object fields => object (canonicalFields [] fields)
  | j => j

/-- `canonical` on each item. -/
def canonicalItems : List Json → List Json
  | [] => []
  | j :: rest => canonical j :: canonicalItems rest

/-- The fields put one after the other into `done`. -/
def canonicalFields (done : List (String × Json)) : List (String × Json) → List (String × Json)
  | [] => done
  | (k, v) :: rest => canonicalFields (insertField k (canonical v) done) rest

end

end Json

end CodeAssist
