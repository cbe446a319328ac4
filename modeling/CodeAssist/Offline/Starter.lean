import CodeAssist.Outcome
import CodeAssist.Text.Line

/-!
Generation without a network: one of two small programs.
-/

namespace CodeAssist.Offline

open Text

def greetingProgram : String :=
  "#include <stdio.h>\n\nint main(void) \x7b\n    printf(\"Hello, World!\\n\");\n" ++
  "    return 0;\n\x7d\n"

def calculatorProgram : String :=
  "\n".intercalate [
    "#include <stdio.h>",
    "",
    "int main(void) \x7b",
    "    int a, b, result;",
    "    char operation;",
    "",
    "    printf(\"Enter first number: \");",
    "    scanf(\"%d\", &a);",
    "",
    "    printf(\"Enter operation (+, -, *, /): \");",
    "    scanf(\" %c\", &operation);",
    "",
    "    printf(\"Enter second number: \");",
    "    scanf(\"%d\", &b);",
    "",
    "    switch (operation) \x7b",
    "        case '+':",
    "            result = a + b;",
    "            break;",
    "        case '-':",
    "            result = a - b;",
    "            break;",
    "        case '*':",
    "            result = a * b;",
    "            break;",
    "        case '/':",
    "            if (b == 0) \x7b",
    "                printf(\"Error: Division by zero!\\n\");",
    "                return 1;",
    "            \x7d",
    "            result = a / b;",
    "            break;",
    "        default:",
    "            printf(\"Error: Invalid operation!\\n\");",
    "            return 1;",
    "    \x7d",
    "",
    "    printf(\"Result: %d\\n\", result);",
    "    return 0;",
    "\x7d",
    ""]

/-- A program for a description: a file, and what it is. -/
structure Starter where
  file : GeneratedFile
  explanation : String
  deriving DecidableEq, Repr

/-- `generate_locally`: the program for a description. -/
def starter (prompt : String) : Starter :=
  if occurs "calculator".toList (lowerChars prompt.toList) then
    { file := ⟨"main.c", calculatorProgram, "Interactive integer calculator"⟩
      explanation := "Generated a calculator template that reads two integers and an operator." }
  else
    { file := ⟨"main.c", greetingProgram, "Program entry point"⟩
      explanation := "Generated a minimal hello-world template; refine the request or enable a " ++
        "remote provider for more." }

/-- The JSON form of a program: its files, the main one and an explanation. -/
def Starter.toJson (s : Starter) : Json :=
  .object [("explanation", .text s.explanation),
    ("files", .array [.object [("content", .text s.file.content), ("name", .text s.file.name),
      ("purpose", .text s.file.purpose)]]),
    ("main_file", .text s.file.name)]

end CodeAssist.Offline
