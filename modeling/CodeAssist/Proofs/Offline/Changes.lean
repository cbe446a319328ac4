import CodeAssist.Proofs.Offline.Marks
import CodeAssist.Proofs.Offline.Wording

/-!
Which rules a tidied text lists.

A rule is listed if and only if it changed the text that the rules before it gave, for each rule has
a label of its own (`mem_applyRules`). No rule is listed if and only if each leaves the text alone
(`applyRules_labels_eq_nil_iff`), and then the text is the one that was given.
-/

namespace CodeAssist.Offline

open Text List

theorem tidy_changes {code : String} (hcode : isBlankText code = false) :
    (tidy code).changes = (applyRules rules code.toList).2 := by
  rw [tidy, if_neg (by simp [hcode])]

theorem applyRules_append (front back : List Rule) (cs : List Char) :
    applyRules (front ++ back) cs =
      ((applyRules back (applyRules front cs).1).1,
        (applyRules front cs).2 ++ (applyRules back (applyRules front cs).1).2) := by
  induction front generalizing cs with
  | nil => rfl
  | cons rule front ih =>
    simp only [cons_append, applyRules, ih]
    split <;> simp

/-- A rule with a label of its own is listed if and only if it changed what it was given. -/
theorem mem_applyRules {front back : List Rule} {rule : Rule}
    (hfront : ∀ r ∈ front, r.label ≠ rule.label) (hback : ∀ r ∈ back, r.label ≠ rule.label)
    (cs : List Char) :
    rule.label ∈ (applyRules (front ++ rule :: back) cs).2 ↔
      rule.apply (applyRules front cs).1 ≠ (applyRules front cs).1 := by
  have hnot : ∀ {rs : List Rule}, (∀ r ∈ rs, r.label ≠ rule.label) → ∀ cs,
      rule.label ∉ (applyRules rs cs).2 := by
    intro rs hrs cs hmem
    obtain ⟨r, hr, hlabel⟩ := mem_labels hmem
    exact hrs r hr hlabel
  rw [applyRules_append, mem_append, or_iff_right (hnot hfront cs), applyRules]
  simp only
  split
  · rename_i hsame
    exact iff_of_false (hnot hback _) (not_not_intro (beq_iff_eq.1 hsame))
  · rename_i hchanged
    exact iff_of_true mem_cons_self fun hsame => hchanged (beq_iff_eq.2 hsame)

theorem applyRules_labels_eq_nil_iff (rs : List Rule) (cs : List Char) :
    (applyRules rs cs).2 = [] ↔ ∀ rule ∈ rs, rule.apply cs = cs := by
  induction rs with
  | nil => simp [applyRules]
  | cons rule rs ih =>
    rw [applyRules, forall_mem_cons, ← ih]
    simp only
    by_cases hsame : rule.apply cs = cs <;> simp [hsame]

theorem applyRules_eq_self {rs : List Rule} {cs : List Char}
    (h : ∀ rule ∈ rs, rule.apply cs = cs) : (applyRules rs cs).1 = cs := by
  induction rs with
  | nil => rfl
  | cons rule rs ih =>
    rw [forall_mem_cons] at h
    rw [applyRules_cons, h.1, ih h.2]

/-! The two improvements. -/

theorem mem_changes_main {code : String} (hcode : isBlankText code = false) :
    "Declared main with an explicit void parameter list" ∈ (tidy code).changes ↔
      nameMain code.toList ≠ layOut (respace code.toList) := by
  have hsplit : rules = rules.take 7 ++ ⟨"Declared main with an explicit void parameter list",
      replaceAll bareMainPattern⟩ :: rules.drop 8 := rfl
  have hfront : (applyRules (rules.take 7) code.toList).1 = layOut (respace code.toList) := by
    simp only [rules, take_succ_cons, take_zero, applyRules_cons]
    rw [applyRules, layOut, respace]
  rw [tidy_changes hcode, hsplit, mem_applyRules (by decide) (by decide), hfront, nameMain]

theorem mem_changes_puts {code : String} (hcode : isBlankText code = false) :
    "Replaced constant printf calls with puts" ∈ (tidy code).changes ↔
      preferPuts (nameMain code.toList) ≠ nameMain code.toList := by
  have hsplit : rules =
      rules.take 8 ++ [⟨"Replaced constant printf calls with puts", preferPuts⟩] := rfl
  have hfront : (applyRules (rules.take 8) code.toList).1 = nameMain code.toList := by
    simp only [rules, take_succ_cons, take_zero, applyRules_cons]
    rw [applyRules, nameMain, layOut, respace]
  rw [tidy_changes hcode, hsplit, mem_applyRules (by decide) (by decide), hfront]

end CodeAssist.Offline
