import CodeAssist.Reply.Suggestions

/-!
Completion without a network.

Candidates come from the word being typed, the project's names, the standard library and a few
snippets; the first five different ones are offered.
-/

namespace CodeAssist.Offline

open Text

/-! ## 1. What can be offered -/

def maxOffered : Nat := 5

def libraryFunctions : List String :=
  ["printf", "scanf", "puts", "putchar", "getchar", "fgets", "fopen", "fclose", "fprintf",
   "malloc", "calloc", "realloc", "free", "exit", "atoi", "strlen", "strcpy", "strcmp", "strcat",
   "memcpy", "memset", "sqrt", "pow"]

def keywords : List String :=
  ["int", "char", "float", "double", "void", "long", "unsigned", "const", "static", "struct",
   "if", "else", "while", "for", "do", "switch", "case", "break", "continue", "return", "sizeof",
   "typedef"]

def snippets : List (String × String) :=
  [("for", "for (int i = 0; i < n; i++) \x7b\n    \n\x7d"),
   ("while", "while (condition) \x7b\n    \n\x7d"),
   ("if", "if (condition) \x7b\n    \n\x7d"),
   ("switch", "switch (value) \x7b\ncase 0:\n    break;\ndefault:\n    break;\n\x7d"),
   ("main", "int main(void) \x7b\n    \n    return 0;\n\x7d")]

def headers : List String :=
  ["stdio.h", "stdlib.h", "string.h", "math.h", "stdbool.h", "ctype.h"]

/-! ## 2. Candidates -/

structure Candidate where
  label : String
  insertText : String
  kind : SuggestionKind
  deriving DecidableEq, Repr

def Candidate.plain (kind : SuggestionKind) (name : String) : Candidate :=
  ⟨name, name, kind⟩

/-- A candidate that inserts its label and `ending`. -/
def Candidate.call (ending name : String) : Candidate :=
  ⟨name, name ++ ending, .function⟩

def Candidate.snippet (s : String × String) : Candidate :=
  ⟨s.1, s.2, .snippet⟩

/-- Characters of the word being typed: ASCII letters, digits and underscores. -/
def isFragmentChar (c : Char) : Bool :=
  isAsciiAlnum c || c == '_'

/-- The word being typed: the longest run of its characters at the end of the line. -/
def fragment (line : List Char) : List Char :=
  (line.reverse.takeWhile isFragmentChar).reverse

def headerCandidates : List Candidate :=
  headers.map fun h => ⟨h, s!"#include <{h}>", .header⟩

/-- Candidates where no word has been started, by what the trimmed line ends with. -/
def openCandidates (line : List Char) (functions vars : List String) : List Candidate :=
  let last := line.getLast?
  if last == some '(' || last == some ',' then vars.map (.plain .value)
  else if last.isNone || last == some '{' || last == some ';' || last == some '}' then
    (functions.filter (· != "main")).map (.call "();") ++ (snippets.take 3).map .snippet
  else (keywords.take maxOffered).map (.plain .text)

def wordCandidates (word : List Char) (functions vars : List String) : List Candidate :=
  let extends_ (name : String) : Bool := word.isPrefixOf name.toList && name.toList != word
  (functions.filter extends_).map (.call "()") ++
  (vars.filter extends_).map (.plain .value) ++
  (libraryFunctions.filter extends_).map (.call "()") ++
  (keywords.filter extends_).map (.plain .text) ++
  (snippets.filter fun s => word.isPrefixOf s.1.toList).map .snippet

def candidates (linePrefix : String) (functions vars : List String) : List Candidate :=
  let line := strip linePrefix.toList
  let word := fragment linePrefix.toList
  if line.head? == some '#' then headerCandidates
  else if word.isEmpty then openCandidates line functions vars
  else wordCandidates word functions vars

/-! ## 3. Suggestions -/

/-- Candidates without those that insert what an earlier one does. -/
def distinct (seen : List String) : List Candidate → List Candidate
  | [] => []
  | c :: rest =>
    if seen.contains c.insertText then distinct seen rest
    else c :: distinct (c.insertText :: seen) rest

/-- `complete_locally`: the candidates for what is being typed. -/
def complete (linePrefix : String) (functions vars : List String) : List Suggestion :=
  let kept := (distinct [] (candidates linePrefix functions vars)).take maxOffered
  kept.zipIdx.map fun (c, rank) => ⟨c.label, c.insertText, Reply.confidence rank, c.kind⟩

end CodeAssist.Offline
