import CodeAssist.Proofs.Offline.Prints

/-!
What tidying does to the literals and comments of a text.

Of the nine rules, the three for the layout of code never change a literal or a comment, white space
apart; each of the others does, and for each the condition is exact. The four for white space do
where a newline comes to stand right behind a backslash of a literal (`ShieldedBreak`), the rule for
`main` where a bare definition of it is quoted or commented out (`MainsInCode`), the rule for
constant prints where such a call is (`PrintsInCode`). A text free of these keeps its literals and
comments, but for the arguments of the calls that became calls of `puts` (`tidy_keeps_marks`).
-/

namespace CodeAssist.Offline

open Text

/-- A backslash of a literal whose line ends behind other blanks, with something visible on the next
line. Right behind the backslash a newline would not end the literal: that is what tells that the
backslash shields what follows. -/
def ShieldedBreak (cs : List Char) : Prop :=
  ∃ front gap c rest, cs = front ++ '\\' :: (gap ++ c :: rest) ∧
    (lastKind (front ++ ['\\', '\n']) = .stringLiteral ∨
      lastKind (front ++ ['\\', '\n']) = .charLiteral) ∧
    gap.all isBlank = true ∧ gap.head? ≠ some '\n' ∧ newlines gap = 1 ∧ isBlank c = false

theorem Mode.literal_of_step {m : Mode} {c : Char} {kind : LiteralKind}
    (h : m.step c = .shielded kind) : m = .literal kind ∧ c = '\\' := by
  cases m <;> grind [Mode.step, Mode.stepCode]

/-- A newline behind a backslash stays in a literal only where the backslash shields it. -/
theorem Mode.literal_of_break {m : Mode} {kind : LiteralKind}
    (h : (modeAfter m ['\\', '\n']).kind = kind.segment) : m = .literal kind := by
  cases m with
  | literal other => cases other <;> cases kind <;> first | rfl | exact absurd h (by decide)
  | shielded other => cases other <;> cases kind <;> exact absurd h (by decide)
  | _ => cases kind <;> exact absurd h (by decide)

theorem breaksIn_code_iff (cs : List Char) : BreaksIn .code cs ↔ ShieldedBreak cs := by
  constructor
  · rintro ⟨front, gap, c, rest, rfl, ⟨⟨kind, hmode⟩, hhead, hone⟩, hgap, hc⟩
    rcases List.eq_nil_or_concat front with rfl | ⟨front, d, rfl⟩
    · cases hmode
    · rw [List.concat_eq_append, modeAfter_append] at hmode
      obtain ⟨hliteral, rfl⟩ := Mode.literal_of_step hmode
      refine ⟨front, gap, c, rest, by simp, ?_, hgap, hhead, hone, hc⟩
      rw [lastKind_eq, modeAfter_append, hliteral]
      cases kind
      · exact .inl rfl
      · exact .inr rfl
  · rintro ⟨front, gap, c, rest, rfl, hkind, hgap, hhead, hone, hc⟩
    rw [lastKind_eq, modeAfter_append] at hkind
    have hliteral : ∃ kind, modeAfter .code front = .literal kind := by
      rcases hkind with hstring | hchar
      · exact ⟨.string, Mode.literal_of_break hstring⟩
      · exact ⟨.char, Mode.literal_of_break hchar⟩
    obtain ⟨kind, hliteral⟩ := hliteral
    refine ⟨front ++ ['\\'], gap, c, rest, by simp, ⟨⟨kind, ?_⟩, hhead, hone⟩, hgap, hc⟩
    rw [modeAfter_append, hliteral]
    rfl

def nameMain (cs : List Char) : List Char :=
  replaceAll bareMainPattern (layOut (respace cs))

theorem applyRules_cons (rule : Rule) (more : List Rule) (cs : List Char) :
    (applyRules (rule :: more) cs).1 = (applyRules more (rule.apply cs)).1 := rfl

theorem applyRules_rules (cs : List Char) :
    (applyRules rules cs).1 = preferPuts (nameMain cs) := by
  simp only [rules, applyRules_cons]
  rw [applyRules, nameMain, layOut, respace]

theorem tidy_code (code : String) : (tidy code).code.toList =
    if isBlankText code = true then code.toList else preferPuts (nameMain code.toList) := by
  rw [tidy]
  split
  · rfl
  · rw [← applyRules_rules, String.toList_ofList]

theorem bareMarks_respace_iff (cs : List Char) :
    bareMarks (respace cs) = bareMarks cs ↔ ¬ ShieldedBreak cs := by
  rw [bareMarks_eq_iff, bareScan_respace, breaksIn_code_iff]

theorem bareMarks_nameMain_iff (cs : List Char) :
    bareMarks (nameMain cs) = bareMarks (layOut (respace cs)) ↔
      MainsInCode (layOut (respace cs)) := by
  rw [bareMarks_eq_iff]
  exact bareScan_bareMain (layOut (respace cs))

theorem bareMarks_nameMain {cs : List Char} (hbreak : ¬ ShieldedBreak cs)
    (hmain : MainsInCode (layOut (respace cs))) : bareMarks (nameMain cs) = bareMarks cs := by
  calc bareMarks (nameMain cs) = bareMarks (layOut (respace cs)) :=
        (bareMarks_nameMain_iff cs).2 hmain
    _ = bareMarks (respace cs) := by rw [bareMarks, marks_layOut, bareMarks]
    _ = bareMarks cs := (bareMarks_respace_iff cs).2 hbreak

/-- Tidied code has the literals and comments of the code, white space and the arguments of calls of
`puts` apart, unless one of three conditions fails; each is exact for the rules that it is about. -/
theorem tidy_keeps_marks (code : String) :
    (tidy code).code.toList =
      (if isBlankText code = true then code.toList else preferPuts (nameMain code.toList)) ∧
    (bareMarks (respace code.toList) = bareMarks code.toList ↔ ¬ ShieldedBreak code.toList) ∧
    marks (layOut (respace code.toList)) = marks (respace code.toList) ∧
    (bareMarks (nameMain code.toList) = bareMarks (layOut (respace code.toList)) ↔
      MainsInCode (layOut (respace code.toList))) ∧
    (PutsInstead (nameMain code.toList) (preferPuts (nameMain code.toList)) ↔
      (occurs "#include <stdio.h>".toList (nameMain code.toList) = true →
        PrintsInCode (nameMain code.toList))) ∧
    (¬ ShieldedBreak code.toList → MainsInCode (layOut (respace code.toList)) →
      (occurs "#include <stdio.h>".toList (nameMain code.toList) = true →
        PrintsInCode (nameMain code.toList)) →
      ∃ named, bareMarks named = bareMarks code.toList ∧
        PutsInstead named (tidy code).code.toList) := by
  refine ⟨tidy_code code, bareMarks_respace_iff _, marks_layOut _, bareMarks_nameMain_iff _,
    putsInstead_preferPuts_iff _, ?_⟩
  intro hbreak hmain hprint
  rw [tidy_code]
  split
  · exact ⟨code.toList, rfl, .of_marks rfl⟩
  · exact ⟨nameMain code.toList, bareMarks_nameMain hbreak hmain,
      (putsInstead_preferPuts_iff _).2 hprint⟩

/-- A program with code-like text in a literal and in a comment. -/
def greeting : String :=
  "#include <stdio.h>\nint main() \x7b\n\tprintf(\"if(a,b)\tmain()\\n\"); // for(a,b)\n\x7d\n"

theorem tidy_keeps_marks_greeting :
    ¬ ShieldedBreak greeting.toList ∧ MainsInCode (layOut (respace greeting.toList)) ∧
    PrintsInCode (nameMain greeting.toList) ∧
    ∃ named, bareMarks named = bareMarks greeting.toList ∧
      PutsInstead named (tidy greeting).code.toList := by
  have hkept : bareMarks (respace greeting.toList) = bareMarks greeting.toList ∧
      bareMarks (nameMain greeting.toList) = bareMarks (layOut (respace greeting.toList)) ∧
      occurs "#include <stdio.h>".toList (nameMain greeting.toList) = true := by
    decide +kernel
  have hbreak := (bareMarks_respace_iff _).1 hkept.1
  have hmain := (bareMarks_nameMain_iff _).1 hkept.2.1
  have hputs : PutsInstead (nameMain greeting.toList) (preferPuts (nameMain greeting.toList)) := by
    refine ⟨[⟨"#include <stdio.h>\nint main(void) \x7b\n    ".toList,
      "#include <stdio.h>\nint main(void) \x7b\n    ".toList, "if(a,b)    main()".toList⟩],
      " // for(a,b)\n\x7d\n".toList, " // for(a,b)\n\x7d\n".toList, ?_⟩
    decide +kernel
  have hprint := (putsInstead_preferPuts_iff _).1 hputs hkept.2.2
  exact ⟨hbreak, hmain, hprint,
    (tidy_keeps_marks greeting).2.2.2.2.2 hbreak hmain fun _ => hprint⟩

/-- A text that quotes a bare definition of `main`, and prints nothing. -/
theorem quoted_main_rewritten :
    occurs "printf".toList "char *s = \"int main()\";\n".toList = false ∧
    (tidy "char *s = \"int main()\";\n").code = "char *s = \"int main(void)\";\n" ∧
    bareMarks (tidy "char *s = \"int main()\";\n").code.toList ≠
      bareMarks "char *s = \"int main()\";\n".toList := by
  decide +kernel

end CodeAssist.Offline
