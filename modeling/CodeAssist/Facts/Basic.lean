import CodeAssist.Json.Wire

/-!
What is known about a source file: the functions it defines, the variables it declares and the
headers it includes, each with the line it starts on.
-/

namespace CodeAssist

structure FunctionFact where
  returnType : String
  name : String
  line : Nat
  deriving DecidableEq, Repr, Inhabited

structure VariableFact where
  type : String
  name : String
  line : Nat
  deriving DecidableEq, Repr, Inhabited

/-- `ImportFact`: an include of a header. -/
structure IncludeFact where
  header : String
  line : Nat
  deriving DecidableEq, Repr, Inhabited

/-- `FileFacts`: what is found in a file. -/
structure Facts where
  functions : List FunctionFact
  vars : List VariableFact
  includes : List IncludeFact
  deriving DecidableEq, Repr, Inhabited

/-! ## JSON forms -/

def FunctionFact.toJson (f : FunctionFact) : Json :=
  .object [("return_type", .text f.returnType), ("name", .text f.name), ("line", .ofNat f.line)]

def FunctionFact.ofJson? (j : Json) : Option FunctionFact := do
  let [returnType, name, line] ← j.slots? ["return_type", "name", "line"] | none
  return {
    returnType := ← returnType.required Json.asText?
    name := ← name.required Json.asText?
    line := ← line.required Json.asNat? }

def VariableFact.toJson (v : VariableFact) : Json :=
  .object [("type", .text v.type), ("name", .text v.name), ("line", .ofNat v.line)]

def VariableFact.ofJson? (j : Json) : Option VariableFact := do
  let [type, name, line] ← j.slots? ["type", "name", "line"] | none
  return {
    type := ← type.required Json.asText?
    name := ← name.required Json.asText?
    line := ← line.required Json.asNat? }

def IncludeFact.toJson (i : IncludeFact) : Json :=
  .object [("header", .text i.header), ("line", .ofNat i.line)]

def IncludeFact.ofJson? (j : Json) : Option IncludeFact := do
  let [header, line] ← j.slots? ["header", "line"] | none
  return { header := ← header.required Json.asText?, line := ← line.required Json.asNat? }

namespace Facts

def empty : Facts := ⟨[], [], []⟩

def isEmpty (f : Facts) : Bool :=
  f.functions.isEmpty && f.vars.isEmpty && f.includes.isEmpty

def toJson (f : Facts) : Json :=
  .object [("functions", .array (f.functions.map FunctionFact.toJson)),
    ("variables", .array (f.vars.map VariableFact.toJson)),
    ("imports", .array (f.includes.map IncludeFact.toJson))]

def ofJson? (j : Json) : Option Facts := do
  let [functions, vars, includes] ← j.slots? ["functions", "variables", "imports"] | none
  return {
    functions := ← functions.default [] (Json.asList? FunctionFact.ofJson?)
    vars := ← vars.default [] (Json.asList? VariableFact.ofJson?)
    includes := ← includes.default [] (Json.asList? IncludeFact.ofJson?) }

end Facts

end CodeAssist
