import CodeAssist.Action.Basic

/-!
Where the developer is and what the toolchain last said.

A patch changes some of it. For the two fields that may be empty, a patch can leave the field
alone, empty it, or fill it.
-/

namespace CodeAssist

/-! ## 1. The state of the build -/

/-- `CompilationState`: what the toolchain is doing, or how it last ended. -/
inductive BuildState where
  | idle
  | compiling
  | succeeded
  | failed
  | running
  deriving DecidableEq, Repr, Inhabited

namespace BuildState

def name : BuildState → String
  | idle => "idle"
  | compiling => "compiling"
  | succeeded => "succeeded"
  | failed => "failed"
  | running => "running"

def all : List BuildState :=
  [idle, compiling, succeeded, failed, running]

def ofName? (s : String) : Option BuildState :=
  all.find? fun v => v.name == s

def toJson (b : BuildState) : Json :=
  .text b.name

def ofJson? (j : Json) : Option BuildState :=
  j.asName?.bind ofName?

end BuildState

/-! ## 2. The editing state -/

/-- `EditingContext`: the editor's state as far as assistance needs it. -/
structure Editing where
  currentFile : Option String
  cursor : Cursor
  selectedText : String
  build : BuildState
  lastError : Option String
  deriving DecidableEq, Repr, Inhabited

namespace Editing

/-- The state of an editor that has reported nothing. -/
def initial : Editing := ⟨none, .start, "", .idle, none⟩

def toJson (e : Editing) : Json :=
  .object [("current_file", Json.ofOption .text e.currentFile), ("cursor", e.cursor.toJson),
    ("selected_text", .text e.selectedText), ("compilation_state", e.build.toJson),
    ("last_error", Json.ofOption .text e.lastError)]

def ofJson? (j : Json) : Option Editing := do
  let [currentFile, cursor, selectedText, build, lastError] ←
    j.slots? ["current_file", "cursor", "selected_text", "compilation_state", "last_error"] | none
  return {
    currentFile := ← currentFile.optional Json.asText?
    cursor := ← cursor.default .start Cursor.ofJson?
    selectedText := ← selectedText.default "" Json.asText?
    build := ← build.default .idle BuildState.ofJson?
    lastError := ← lastError.optional Json.asText? }

end Editing

/-! ## 3. Patches -/

/-- `ContextPatch`: a partial update. `none` leaves a field alone; `some none` empties it. -/
structure EditPatch where
  currentFile : Option (Option String) := none
  cursor : Option Cursor := none
  selectedText : Option String := none
  build : Option BuildState := none
  lastError : Option (Option String) := none
  deriving DecidableEq, Repr, Inhabited

namespace EditPatch

/-- Whether a patch changes nothing whatever it is applied to. -/
def isEmpty (p : EditPatch) : Bool :=
  p.currentFile.isNone && p.cursor.isNone && p.selectedText.isNone && p.build.isNone &&
    p.lastError.isNone

def apply (p : EditPatch) (e : Editing) : Editing :=
  { currentFile := p.currentFile.getD e.currentFile
    cursor := p.cursor.getD e.cursor
    selectedText := p.selectedText.getD e.selectedText
    build := p.build.getD e.build
    lastError := p.lastError.getD e.lastError }

def changes (p : EditPatch) (e : Editing) : Bool :=
  p.apply e != e

/-- A field of a patch, left out when it is left alone. -/
def patchField (name : String) (item : α → Json) : Option α → List (String × Json)
  | some a => [(name, item a)]
  | none => []

def toJson (p : EditPatch) : Json :=
  .object <|
    patchField "current_file" (Json.ofOption .text) p.currentFile ++
    patchField "cursor" Cursor.toJson p.cursor ++
    patchField "selected_text" .text p.selectedText ++
    patchField "compilation_state" BuildState.toJson p.build ++
    patchField "last_error" (Json.ofOption .text) p.lastError

/-- A field that null empties and absence leaves alone. -/
def emptiable (item : Json → Option α) : Json.Slot → Option (Option (Option α))
  | .given j => (j.asOption? item).map some
  | _ => some none

def ofJson? (j : Json) : Option EditPatch := do
  let [currentFile, cursor, selectedText, build, lastError] ←
    j.slots? ["current_file", "cursor", "selected_text", "compilation_state", "last_error"] | none
  return {
    currentFile := ← emptiable Json.asText? currentFile
    cursor := ← cursor.optional Cursor.ofJson?
    selectedText := ← selectedText.optional Json.asText?
    build := ← build.optional BuildState.ofJson?
    lastError := ← emptiable Json.asText? lastError }

end EditPatch

end CodeAssist
