import CodeAssist.Provider.Basic
import CodeAssist.Reply.Fence
import CodeAssist.Reply.Listing

/-!
Suggestions in a reply: one for each line that says something, in order, with falling
confidence.
-/

namespace CodeAssist.Reply

open Text

/-! ## 1. Confidence -/

/-- `confidence_for`: nine tenths less a tenth for each rank, in the 32-bit format, and never below
a tenth. Ranks beyond 65535 count as that. -/
def confidence (rank : Nat) : Number.Binary :=
  let step := Number.single.mul (Options.tenths 1) (Number.single.ofNat (min rank 65535))
  let value := Number.single.sub (Options.tenths 9) step
  if value.lt (Options.tenths 1) then Options.tenths 1 else value

/-! ## 2. Labels and kinds -/

def maxLabel : Nat := 60

def firstLine (content : List Char) : List Char :=
  strip ((lines content).headD [])

/-- `label_for`: the label of a completion: its first line up to a semicolon or a brace. -/
def label (content : String) : String :=
  let first := firstLine content.toList
  let part := strip (first.takeWhile fun c => c != ';' && c != '{')
  let cut := (if part.isEmpty then first else part).take maxLabel
  if cut.isEmpty then "suggestion" else String.ofList cut

def typeWords : List String :=
  ["int", "char", "float", "double", "long", "short", "unsigned", "bool", "size_t"]

def controlWords : List String :=
  ["if", "for", "while", "switch", "do"]

def typePattern : Pattern Unit := fun before cs =>
  typeWords.findSome? fun w => do
    let rest ← wordStart? w before cs
    if rest.head?.any isBlank then some ((), rest) else none

def controlPattern : Pattern Unit := fun before cs =>
  controlWords.findSome? fun w => do
    let rest ← wordStart? w before cs
    if rest.head?.any isWord then none else some ((), rest)

/-- `kind_for`: the kind of a completion, by the words and signs in it. -/
def kindOf (content : String) : SuggestionKind :=
  let low := lowerChars content.toList
  if (after? "#include".toList (dropBlank low)).isSome then .header
  else if isMatch typePattern low then .value
  else if isMatch controlPattern low then .snippet
  else if low.contains '(' && low.contains ')' then .function
  else .text

/-! ## 3. Suggestions -/

def maxSuggestions : Nat := 10

/-- The line without surrounding blanks and list marker. -/
def suggestionText (line : List Char) : List Char :=
  dropMarker (dropBlank (dropBlankEnd line))

/-- Whether a line can be a suggestion: neither blank nor a fence. -/
def isSuggestionLine (line : List Char) : Bool :=
  !line.all isBlank && !isFence line

def suggestion (rank : Nat) (insertText : String) : Suggestion where
  label := label insertText
  insertText := insertText
  confidence := confidence rank
  kind := kindOf insertText

/-- `suggestions_from_text`: the suggestions of a text, the most likely first. -/
def suggested (text : String) : List Suggestion :=
  let texts := ((lines text.toList).filter isSuggestionLine).map suggestionText
  let kept := (texts.filter (!·.isEmpty)).take maxSuggestions
  kept.zipIdx.map fun (t, rank) => suggestion rank (String.ofList t)

end CodeAssist.Reply
