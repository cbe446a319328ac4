import CodeAssist.Session.Course

/-!
The memory of a session, as courses: what an editor reports, what is imported, and the end.
-/

namespace CodeAssist.Session

def updateFile (path content : String) (now : Moment) : Course (Except StoreError SourceFile) :=
  Course.update (fun store => .file store.root path content now) now

def updateEditing (p : EditPatch) (now : Moment) : Course (Except StoreError Editing) :=
  Course.update (fun store => .editing store.memory.editing p now) now

def addEvent (kind : EventKind) (details : Json) (now : Moment) : Course (Except StoreError Unit) :=
  Course.update (fun _ => .event kind details now) now

def clearingCaches (c : Course (Except ε α)) : Course (Except ε α) := do
  match ← c with
  | .ok a =>
    modify clearCaches
    return .ok a
  | .error e => return .error e

/-- Merges a document into the memory. When it is merged and written, the cached answers go. -/
def importJson (j : Json) (now : Moment) : Course (Except Store.ImportError ImportSummary) :=
  clearingCaches (Course.update (fun store => .document store.root j now) now)

def importText (text : String) (now : Moment) : Course (Except Store.ImportError ImportSummary) :=
  clearingCaches (Course.update (fun store => .documentText store.root text now) now)

/-- Forgets all but the project. When that is written, the cached answers go. -/
def clear (now : Moment) : Course (Except StoreError Unit) :=
  clearingCaches (Course.update (fun _ => .clearing now) now)

/-- Cancels what is going on, drops stale answers and writes what is not written. -/
def close : Course (Except StoreError Unit) := do
  modify retire
  Course.flush

end CodeAssist.Session
