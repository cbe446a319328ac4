import CodeAssist.Json.Reader
import CodeAssist.Memory.Basic

/-!
The shapes of the records of a memory, for reading them from text.

Each reader goes with the form of its record as a JSON value: what it accepts, `ofJson?` of that
record understands.
-/

namespace CodeAssist

open Json.Reader

/-! ## 1. Where the developer is -/

def Cursor.reader : Json.Reader :=
  record [required "line" (natural 64), required "column" (natural 64)]

def Action.reader : Json.Reader :=
  oneOf (Action.all.map Action.name)

def BuildState.reader : Json.Reader :=
  oneOf (BuildState.all.map BuildState.name)

def Editing.reader : Json.Reader :=
  record [optional "current_file" (nullable text), optional "cursor" Cursor.reader,
    optional "selected_text" text, optional "compilation_state" BuildState.reader,
    optional "last_error" (nullable text)]

def EditPatch.reader : Json.Reader :=
  record [optional "current_file" (nullable text), optional "cursor" (nullable Cursor.reader),
    optional "selected_text" (nullable text),
    optional "compilation_state" (nullable BuildState.reader),
    optional "last_error" (nullable text)]

/-! ## 2. Files -/

def FunctionFact.reader : Json.Reader :=
  record [required "return_type" text, required "name" text, required "line" (natural 64)]

def VariableFact.reader : Json.Reader :=
  record [required "type" text, required "name" text, required "line" (natural 64)]

def IncludeFact.reader : Json.Reader :=
  record [required "header" text, required "line" (natural 64)]

def Facts.reader : Json.Reader :=
  record [optional "functions" (list FunctionFact.reader),
    optional "variables" (list VariableFact.reader),
    optional "imports" (list IncludeFact.reader)]

def SourceFile.reader : Json.Reader :=
  record [required "path" text, required "content" text, required "size" (natural 64),
    required "last_modified" timestamp, optional "facts" Facts.reader]

/-! ## 3. The memory -/

def Project.reader : Json.Reader :=
  record [required "id" text, required "name" text, required "root" text,
    required "created_at" timestamp, required "last_modified" timestamp]

def Event.reader : Json.Reader :=
  record [required "action" (oneOf (EventKind.all.map EventKind.name)), optional "details" free,
    required "timestamp" timestamp]

def Exchange.reader : Json.Reader :=
  record [required "kind" Action.reader, required "prompt" text, required "response" text,
    optional "metadata" (map free), required "timestamp" timestamp]

def Memory.reader : Json.Reader :=
  record [required "schema_version" (natural 32), required "project" Project.reader,
    optional "files" (map SourceFile.reader), optional "context" Editing.reader,
    optional "history" (list Event.reader), optional "interactions" (list Exchange.reader)]

def Memory.ofText? (s : String) : Option Memory :=
  (Json.decode reader ofJson? s.toList).toOption

end CodeAssist
