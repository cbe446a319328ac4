import CodeAssist.Prompt.Build

/-!
The fingerprint of a request: what has to be equal for an earlier answer to do.

The content of the open file takes part by its length and by the text of the cursor line only.
-/

namespace CodeAssist

structure Fingerprint where
  action : Action
  file : String
  line : UInt64
  column : UInt64
  /-- The texts of the request, joined by the null character. -/
  selection : String
  /-- Length of the open file in bytes. -/
  contentLength : Nat
  cursorLineText : String
  deriving DecidableEq, Repr, Inhabited

namespace Fingerprint

/-- Two texts with the null character between them. -/
def joined (first second : String) : String :=
  first ++ String.singleton (Char.ofNat 0) ++ second

/-- The texts of a request; nothing for a generation, which is never answered from a cache. -/
def selectionOf : Request → Option String
  | .completion _ selection => some selection
  | .refactor code intent => some (joined intent code)
  | .diagnosis errorMessage code => some (joined errorMessage code)
  | .review code focus => some (joined (",".intercalate focus) code)
  | .generation _ => none

/-- `for_request`: the fingerprint of a request; none for a generation. -/
def ofRequest? (request : Request) (view : View) : Option Fingerprint :=
  (selectionOf request).map fun selection =>
    let cursor := Prompt.cursorOf request view
    { action := request.action
      file := (view.openFile.map (·.path)).getD ""
      line := cursor.line
      column := cursor.column
      selection
      contentLength := (view.openFile.map (·.content.utf8ByteSize)).getD 0
      cursorLineText := ((Prompt.cursorLineText view cursor).map String.ofList).getD "" }

def toJson (f : Fingerprint) : Json :=
  .object [("action", f.action.toJson), ("file", .text f.file), ("line", .ofWord f.line),
    ("column", .ofWord f.column), ("selection", .text f.selection),
    ("content_len", .ofNat f.contentLength), ("cursor_line_text", .text f.cursorLineText)]

end Fingerprint

end CodeAssist
