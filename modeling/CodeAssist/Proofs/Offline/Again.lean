import CodeAssist.Proofs.Offline.Improved
import CodeAssist.Proofs.Offline.LaidOut
import CodeAssist.Proofs.Offline.Respaced
import CodeAssist.Proofs.Offline.Visible

/-!
Tidying code that was tidied.

The rules are applied once and in order, so that a rule may leave work for itself or for a rule
before it. The four for white space leave none, and neither does the rule for `main`. There are
three ways in which tidied code may still change when it is tidied again:

* the rule for commas takes two commas for one and the character behind it, and gives `, ,` without
  a blank behind the second (`CommasDoubled`);
* the rule for constant prints ends a literal two characters earlier, which may be right behind the
  name of another print (`NestedPrint`);
* the improvements also work on quoted text and comments. Where one takes a line end out of an open
  literal or a line comment, what was text may become code, which the rules for layout see then.

`tidy_again_iff` says for which code there is nothing left to do.
-/

namespace CodeAssist.Offline

open Text

/-- Tidying leaves the code as it is, and lists no change. -/
def IsTidy (code : String) : Prop :=
  (tidy code).code = code ∧ (tidy code).changes = []

theorem isTidy_of_blank {code : String} (hcode : isBlankText code = true) : IsTidy code := by
  rw [IsTidy, tidy, if_pos hcode]
  exact ⟨rfl, rfl⟩

theorem isTidy_iff {code : String} (hcode : isBlankText code = false) :
    IsTidy code ↔ ∀ rule ∈ rules, rule.apply code.toList = code.toList := by
  rw [IsTidy, tidy_changes hcode, applyRules_labels_eq_nil_iff]
  refine and_iff_right_of_imp fun h => ?_
  rw [← String.toList_inj, tidy_code, if_neg (by simp [hcode]), ← applyRules_rules,
    applyRules_eq_self h]

/-- The rule for constant prints leaves a text alone if it does not apply or finds none. -/
theorem preferPuts_eq_self_iff (cs : List Char) : preferPuts cs = cs ↔
    (occurs "#include <stdio.h>".toList cs = true → isMatch constantPrintPattern cs = false) := by
  rw [preferPuts]
  split
  · rename_i hstdio
    refine ⟨fun h _ => ?_, fun h => replaceAll_eq_self (h hstdio)⟩
    have hlighter := isMatch_print_or_lighter cs
    rw [h] at hlighter
    exact hlighter.resolve_right (Int.lt_irrefl _)
  · rename_i hstdio
    exact iff_of_true rfl fun h => absurd h hstdio

theorem isMatch_main_tidied (cs : List Char) :
    isMatch bareMainPattern (preferPuts (nameMain cs)) = false := by
  have hmain : isMatch bareMainPattern (nameMain cs) = false := isMatch_main _
  rw [preferPuts]
  split
  · exact isMatch_main_prints hmain
  · exact hmain

theorem preferPuts_preferPuts_iff (cs : List Char) :
    preferPuts (preferPuts cs) = preferPuts cs ↔
      (occurs "#include <stdio.h>".toList (preferPuts cs) = true → ¬ NestedPrint cs) := by
  rw [preferPuts_eq_self_iff]
  refine imp_congr_right fun hstdio => ?_
  rw [preferPuts] at hstdio ⊢
  split at hstdio
  · rename_i hsource
    rw [if_pos hsource, ← Bool.not_eq_true, isMatch_prints_iff]
  · contradiction

/-- Of all the rules, those for layout and the one for constant prints may find something in tidied
code. -/
theorem isTidy_tidied_iff {code : String} (hcode : isBlankText code = false) :
    IsTidy (tidy code).code ↔ LaidOut (preferPuts (nameMain code.toList)) ∧
      (occurs "#include <stdio.h>".toList (preferPuts (nameMain code.toList)) = true →
        ¬ NestedPrint (nameMain code.toList)) := by
  have hblank : isBlankText (tidy code).code = false := by
    refine Bool.eq_false_iff.2 fun h => ?_
    rw [isBlankText_of_tidy code h] at hcode
    cases hcode
  have hspaced := respaced_tidied code.toList
  have hmain := replaceAll_eq_self (isMatch_main_tidied code.toList)
  rw [isTidy_iff hblank, tidy_code, if_neg (by simp [hcode]), laidOut_iff_rules,
    ← preferPuts_preferPuts_iff]
  simp only [rules, List.forall_mem_cons, hspaced.crlf, hspaced.tab, hspaced.trimLines,
    hspaced.blankRun, hmain, true_and]
  simp [and_assoc]

/-- Tidied code is tidy if and only if it is laid out and no constant print of it opened another.
Where neither improvement was made, that is so if and only if no commas were doubled. -/
theorem tidy_again_iff (code : String) :
    (IsTidy (tidy code).code ↔ isBlankText code = true ∨
      LaidOut (tidy code).code.toList ∧
        (occurs "#include <stdio.h>".toList (tidy code).code.toList = true →
          ¬ NestedPrint (nameMain code.toList))) ∧
    ("Declared main with an explicit void parameter list" ∉ (tidy code).changes →
      "Replaced constant printf calls with puts" ∉ (tidy code).changes →
      (IsTidy (tidy code).code ↔
        isBlankText code = true ∨ ¬ CommasDoubled (respace code.toList))) := by
  by_cases hcode : isBlankText code = true
  · have hsame : IsTidy (tidy code).code := by
      rw [tidy, if_pos hcode]
      exact isTidy_of_blank hcode
    simp only [hsame, hcode, true_or, implies_true, and_self]
  · rw [Bool.not_eq_true] at hcode
    have hcode' : ¬ isBlankText code = true := by simp [hcode]
    rw [isTidy_tidied_iff hcode, mem_changes_main hcode, mem_changes_puts hcode, Decidable.not_not,
      Decidable.not_not, tidy_code, if_neg hcode', or_iff_right hcode', or_iff_right hcode']
    refine ⟨Iff.rfl, fun hmain hputs => ?_⟩
    rw [← preferPuts_preferPuts_iff, hputs, hputs, hmain, and_iff_left rfl, laidOut_layOut_iff]

theorem tidy_again_iff_call :
    "Declared main with an explicit void parameter list" ∉ (tidy "f(a,b);").changes ∧
      "Replaced constant printf calls with puts" ∉ (tidy "f(a,b);").changes ∧
      (tidy "f(a,b);").changes = ["Added a space after commas"] ∧
      IsTidy (tidy "f(a,b);").code := by
  have hmain : "Declared main with an explicit void parameter list" ∉ (tidy "f(a,b);").changes := by
    decide +kernel
  have hputs : "Replaced constant printf calls with puts" ∉ (tidy "f(a,b);").changes := by
    decide +kernel
  have hcommas : ¬ CommasDoubled (respace "f(a,b);".toList) :=
    (laidOut_layOut_iff _).1 (by decide +kernel)
  exact ⟨hmain, hputs, by decide +kernel,
    ((tidy_again_iff "f(a,b);").2 hmain hputs).2 (.inr hcommas)⟩

/-- Tidied code that tidying changes: two commas in a row. -/
theorem tidy_again_commas : (tidy "f(a,,b);").code = "f(a, ,b);" ∧
    (tidy "f(a, ,b);").code = "f(a, , b);" ∧
    (tidy "f(a, ,b);").changes = ["Added a space after commas"] := by
  decide +kernel

-- a constant print that opened another, and a definition of `main` over two lines of a literal
example : (tidy (tidy "#include <stdio.h>\nprintf(\"a printf(\\n\");b\\n\");").code).changes =
    ["Replaced constant printf calls with puts"] := by
  decide +kernel

example : (tidy (tidy "\"int\nmain()\",b").code).changes = ["Added a space after commas"] := by
  decide +kernel

end CodeAssist.Offline
