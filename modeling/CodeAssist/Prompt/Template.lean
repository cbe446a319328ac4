import CodeAssist.Action.Basic

/-!
Instructions to a provider, one for each kind of action. They ask for the forms of reply that
outcomes are read from.
-/

namespace CodeAssist.Prompt

open Text

def isTagChar (c : Char) : Bool :=
  isAsciiAlnum c || c == '+' || c == '#'

/-- `fence_tag`: the tag of code fences for a language: its name in lower case, without other
characters than letters, digits, plus and hash. -/
def fenceTag (language : String) : String :=
  String.ofList (((strip language.toList).map asciiLower).filter isTagChar)

/-- `system_prompt`: what a provider is to do, and in which form. -/
def instructions (action : Action) (language : String) : String :=
  let fence := fenceTag language
  match action with
  | .completion =>
    s!"You are a {language} programming assistant embedded in a code editor. " ++
    "Suggest completions for the code at the cursor, using the functions and variables " ++
    "already defined in the project where they fit.\n" ++
    "Reply with at most five candidate completions, one per line, most likely first. " ++
    "Do not add commentary or code fences."
  | .refactor =>
    s!"You are a {language} programming assistant that refactors code. Keep the " ++
    s!"original behaviour, improve readability and structure, and stay within " ++
    s!"standard {language}.\n" ++
    s!"Reply with the complete refactored code in a single ```{fence} block. After the block, " ++
    "give a short explanation and list each change on its own line starting with \"- \"."
  | .diagnosis =>
    s!"You are a {language} programming assistant that explains compiler errors. " ++
    "Identify the cause of the error in the given code and how to fix it.\n" ++
    s!"Reply with a short diagnosis paragraph, then the corrected code in a single ```{fence} " ++
    "block, then an explanation of the fix."
  | .generation =>
    s!"You are a {language} programming assistant that writes small, compilable " ++
    s!"{language} projects from a description.\n" ++
    "Reply with a single JSON object and nothing else, shaped as " ++
    s!"\x7b\"files\": [\x7b\"name\": \"main.{fence}\", \"content\": \"...\", " ++
    s!"\"purpose\": \"...\"\x7d], \"main_file\": \"main.{fence}\", \"explanation\": \"...\"\x7d."
  | .review =>
    s!"You are a {language} code reviewer. Look for bugs, unsafe memory or input " ++
    "handling, portability problems and readability issues, and suggest concrete improvements.\n" ++
    "Reply with a single JSON object and nothing else, shaped as " ++
    "\x7b\"summary\": \"...\", \"issues\": [\x7b\"message\": \"...\", \"line\": 1, " ++
    "\"severity\": \"error|warning|info\"\x7d], \"suggestions\": [\"...\"]\x7d."

end CodeAssist.Prompt
