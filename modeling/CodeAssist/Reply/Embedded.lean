import CodeAssist.Json.Parser
import CodeAssist.Text.Blank

/-!
A JSON object inside a reply.

The whole reply may be the object. Otherwise the text from the first opening brace to the brace
that closes it is taken, braces inside strings not counting.
-/

namespace CodeAssist.Reply

open Text

/-- Where a scan for the closing brace stands. -/
inductive BraceScan where
  | code
  | inString
  | escaped

/-- The text up to and with the brace that closes the first one, `depth` braces being open. -/
def balanced (state : BraceScan) (depth : Nat) : List Char → Option (List Char)
  | [] => none
  | c :: rest =>
    match state with
    | .escaped => (balanced .inString depth rest).map (c :: ·)
    | .inString =>
      let next := if c == '\\' then .escaped else if c == '"' then .code else .inString
      (balanced next depth rest).map (c :: ·)
    | .code =>
      if c == '"' then (balanced .inString depth rest).map (c :: ·)
      else if c == '{' then (balanced .code (depth + 1) rest).map (c :: ·)
      else if c == '}' then
        if depth ≤ 1 then some [c] else (balanced .code (depth - 1) rest).map (c :: ·)
      else (balanced .code depth rest).map (c :: ·)

def objectOnly (j : Option Json) : Option Json :=
  j.filter Json.isObject

def embeddedIn (cs : List Char) : Option Json :=
  match objectOnly ((Json.parseChars (strip cs)).map Json.canonical) with
  | some j => some j
  | none =>
    match balanced .code 0 (cs.dropWhile (· != '{')) with
    | some candidate => objectOnly ((Json.parseChars candidate).map Json.canonical)
    | none => none

/-- `json_object`: the object that a text is, or that its first balanced braces hold. -/
def embedded (text : String) : Option Json :=
  embeddedIn text.toList

end CodeAssist.Reply
