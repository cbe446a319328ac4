import CodeAssist.Text.Blank
import CodeAssist.Text.Line
import CodeAssist.Text.Word

/-!
Lists in a reply.

A list line starts, after blanks, with a dash, a star or a bullet, or with a number and a point or
a bracket, and then blanks.
-/

namespace CodeAssist.Reply

open Text

/-- The text after blanks of which there is at least one. -/
def afterMarkerBlanks? (cs : List Char) : Option (List Char) :=
  if cs.head?.any isBlank then some (dropBlank cs) else none

def afterMarker? (cs : List Char) : Option (List Char) :=
  match cs with
  | [] => none
  | c :: rest =>
    if c == '-' || c == '*' || c == '•' then afterMarkerBlanks? rest
    else if isDigit c then
      match cs.dropWhile isDigit with
      | d :: rest => if d == '.' || d == ')' then afterMarkerBlanks? rest else none
      | [] => none
    else none

def dropMarker (cs : List Char) : List Char :=
  (afterMarker? cs).getD cs

/-- The lines that are no list lines, and the items of those that are. An empty item is left
out. -/
def splitItems : List (List Char) → List (List Char) × List (List Char)
  | [] => ([], [])
  | line :: rest =>
    let (kept, items) := splitItems rest
    match afterMarker? (dropBlank line) with
    | some item => (kept, if (strip item).isEmpty then items else strip item :: items)
    | none => (line :: kept, items)

/-- `split_list_items`: prose without its list lines, trimmed, and the items of the list. -/
def splitList (prose : String) : String × List String :=
  let (kept, items) := splitItems (lines prose.toList)
  (String.ofList (strip (joinWith ['\n'] kept)), items.map String.ofList)

end CodeAssist.Reply
