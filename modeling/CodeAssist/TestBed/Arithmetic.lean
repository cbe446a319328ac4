import CodeAssist.TestBed.Format
import CodeAssist.TestBed.Syntax

/-!
Test bed: arithmetic of a shell.

Numbers have 64 bits and wrap around. An expression is worked out while it is read: what stands
after a mistake is not looked at.
-/

namespace CodeAssist.TestBed

/-! ## 1. Numbers -/

def greatest : Nat := 9223372036854775807

/-- The number that a text is, with blanks around it and a sign. An empty text is zero. -/
def numberOf? (text : String) : Option Int64 :=
  let cs := text.toList.dropWhile isBlankByte
  let (negative, digits) := match cs with
    | '-' :: rest => (true, rest)
    | '+' :: rest => (false, rest)
    | cs => (false, cs)
  if !digits.head?.any Char.isDigit then
    if text.toList.all isBlankByte then some 0 else none
  else
    let (n, length) := leadingMagnitude digits
    let limit := if negative then greatest + 1 else greatest
    if limit < n || !(digits.drop length).all isBlankByte then none
    else some (Int64.ofInt (if negative then -(n : Int) else n))

/-! ## 2. Tokens -/

inductive Operation where
  | multiply
  | divide
  | remainder
  | add
  | subtract
  | less
  | atMost
  | greater
  | atLeast
  | equal
  | different
  | both
  | either

def Operation.weakness : Operation → Nat
  | multiply | divide | remainder => 0
  | add | subtract => 1
  | less | atMost | greater | atLeast => 2
  | equal | different => 3
  | both => 4
  | either => 5

inductive ArithToken where
  | number (n : Int64)
  | name (x : String)
  | operation (op : Operation)
  | assign
  | open_
  | close
  | not
  | bad

def arithSigns : List (String × ArithToken) :=
  [("<=", .operation .atMost), (">=", .operation .atLeast), ("==", .operation .equal),
    ("!=", .operation .different), ("&&", .operation .both), ("||", .operation .either),
    ("*", .operation .multiply), ("/", .operation .divide), ("%", .operation .remainder),
    ("+", .operation .add), ("-", .operation .subtract), ("<", .operation .less),
    (">", .operation .greater), ("=", .assign), ("(", .open_), (")", .close), ("!", .not)]

def arithTokens : Nat → List Char → List ArithToken
  | 0, _ => []
  | _, [] => []
  | fuel + 1, c :: rest =>
    if c == ' ' || c == '\t' || c == '\n' then arithTokens fuel rest
    else if c.isDigit then
      let (n, length) := leadingMagnitude (c :: rest)
      .number (Int64.ofNat (min n greatest)) :: arithTokens fuel ((c :: rest).drop length)
    else if isNameStart c then
      let name := (c :: rest).takeWhile isNameChar
      .name (String.ofList name) :: arithTokens fuel ((c :: rest).drop name.length)
    else
      match arithSigns.find? fun (sign, _) => sign.toList.isPrefixOf (c :: rest) with
      | some (sign, t) => t :: arithTokens fuel ((c :: rest).drop sign.length)
      | none => [.bad]

/-! ## 3. Values -/

inductive ArithError where
  | expecting (what : String)
  | divisionByZero
  | badNumber (text : String)

def ArithError.message (text : String) : ArithError → String
  | expecting what => s!"arithmetic expression: expecting {what}: \"{text}\""
  | divisionByZero => s!"arithmetic expression: division by zero: \"{text}\""
  | badNumber n => s!"Illegal number: {n}"

def truth (b : Bool) : Int64 :=
  if b then 1 else 0

def Operation.apply (op : Operation) (a b : Int64) : Except ArithError Int64 :=
  match op with
  | multiply => .ok (a * b)
  | divide => if b == 0 then .error .divisionByZero else .ok (a / b)
  | remainder => if b == 0 then .error .divisionByZero else .ok (a % b)
  | add => .ok (a + b)
  | subtract => .ok (a - b)
  | less => .ok (truth (a < b))
  | atMost => .ok (truth (a ≤ b))
  | greater => .ok (truth (b < a))
  | atLeast => .ok (truth (b ≤ a))
  | equal => .ok (truth (a == b))
  | different => .ok (truth (a != b))
  | both => .ok (truth (a != 0 && b != 0))
  | either => .ok (truth (a != 0 || b != 0))

/-- What is known while an expression is worked out: the values of names, those that were changed
last first. -/
abbrev ArithNames := List (String × String)

abbrev Arith := StateT ArithNames (Except ArithError)

def numberOfName (x : String) : Arith Int64 := do
  let text := ((← get).lookup x).getD ""
  match numberOf? text with
  | some n => return n
  | none => throw (.badNumber text)

inductive ArithLevel where
  | assignment
  | operations
  | primary
  /-- The operators that follow a value, as long as they bind more strongly than a bound. -/
  | following (value : Int64) (op : Operation) (bound : Nat)

/-- The value at the start of tokens, and what follows it. The fuel bounds the depth. -/
def valueAt : Nat → ArithLevel → List ArithToken → Arith (Int64 × List ArithToken)
  | 0, _, _ => throw (.expecting "primary")
  | fuel + 1, .assignment, ts =>
    match ts with
    | .name x :: .assign :: rest => do
      let (value, rest) ← valueAt fuel .assignment rest
      modify fun names => (x, toString value.toInt) :: names
      return (value, rest)
    | ts => valueAt fuel .operations ts
  | fuel + 1, .operations, ts => do
    let (a, rest) ← valueAt fuel .primary ts
    match rest with
    | .operation op :: rest => valueAt fuel (.following a op 6) rest
    | rest => return (a, rest)
  | fuel + 1, .following a op bound, ts => do
    let (b, rest) ← valueAt fuel .primary ts
    let (b, rest) ← match rest with
      | .operation next :: after =>
        if next.weakness < op.weakness then valueAt fuel (.following b next op.weakness) after
        else pure (b, rest)
      | rest => pure (b, rest)
    let value ← StateT.lift (op.apply a b)
    match rest with
    | .operation next :: after =>
      if next.weakness < bound then valueAt fuel (.following value next bound) after
      else return (value, rest)
    | rest => return (value, rest)
  | fuel + 1, .primary, ts =>
    match ts with
    | .open_ :: rest => do
      let (value, rest) ← valueAt fuel .assignment rest
      match rest with
      | .close :: rest => return (value, rest)
      | _ => throw (.expecting "')'")
    | .number n :: rest => return (n, rest)
    | .name x :: rest => return (← numberOfName x, rest)
    | .operation .add :: rest => valueAt fuel .primary rest
    | .operation .subtract :: rest => do
      let (value, rest) ← valueAt fuel .primary rest
      return (-value, rest)
    | .not :: rest => do
      let (value, rest) ← valueAt fuel .primary rest
      return (truth (value == 0), rest)
    | _ => throw (.expecting "primary")

/-- The value of an expression, and the names that it changes, the last change first. -/
def arithmetic (names : ArithNames) (text : String) :
    Except ArithError (Int64 × List (String × String)) := do
  let tokens := arithTokens (text.length + 1) text.toList
  let ((value, rest), after) ← (valueAt (8 * tokens.length + 16) .assignment tokens).run names
  if rest.isEmpty then return (value, after.take (after.length - names.length))
  else throw (.expecting "EOF")

end CodeAssist.TestBed
