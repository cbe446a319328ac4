import CodeAssist.Text.Line
import CodeAssist.Text.Pattern
import Mathlib.Data.List.Infix

/-!
What is found in texts.

A pattern goes through a text by steps, and what a step reads stands before what it leaves
(`after?_eq_some`). A needle occurs where the text is something, the needle, and something
(`occurs_iff_isInfix`). Of texts that repeat, each is found where it comes first (`firsts_eq`).
-/

namespace CodeAssist.Text

open List

variable {cs rest : List Char}

/-! ## 1. Steps of a pattern -/

/-- What follows a literal has the literal before it. -/
theorem after?_eq_some {lit : List Char} (h : after? lit cs = some rest) :
    cs = lit ++ rest := by
  rw [after?] at h
  split at h
  · rename_i hprefix
    obtain ⟨tail, rfl⟩ := isPrefixOf_iff_prefix.1 hprefix
    rw [← Option.some.inj h, drop_left]
  · cases h

theorem after?_append (lit rest : List Char) : after? lit (lit ++ rest) = some rest := by
  have hstarts : lit.isPrefixOf (lit ++ rest) = true := by simp
  rw [after?, if_pos hstarts, drop_left]

theorem afterChar?_eq_some {c : Char} (h : afterChar? c cs = some rest) :
    cs = c :: rest := by
  cases cs with
  | nil => cases h
  | cons d tail =>
    rw [afterChar?] at h
    split at h
    · rename_i hd
      rw [beq_iff_eq.1 hd, Option.some.inj h]
    · cases h

theorem wordStart?_eq_some {w : String} {before : Option Char}
    (h : wordStart? w before cs = some rest) : cs = w.toList ++ rest := by
  rw [wordStart?] at h
  split at h
  · cases h
  · exact after?_eq_some h

theorem wordStart?_boundary {w : String} {before : Option Char}
    (h : wordStart? w before cs = some rest) : before.any isWord = false := by
  rw [wordStart?] at h
  split at h
  · cases h
  · rename_i hbefore
    exact Bool.eq_false_iff.2 hbefore

/-! ## 2. Needles -/

/-- A needle occurs in a text exactly when the text is something, the needle, and something. -/
theorem occurs_iff_isInfix {needle cs : List Char} : occurs needle cs = true ↔ needle <:+: cs := by
  induction cs with
  | nil => rw [occurs, List.isEmpty_iff, infix_nil]
  | cons c rest ih =>
    rw [occurs, Bool.or_eq_true, isPrefixOf_iff_prefix, ih, infix_cons_iff]

/-! ## 3. Repeats -/

/-- Texts without their repeats are those that were not seen, each once. -/
theorem firsts_eq (seen names : List String) :
    firsts seen names = (names.filter (!seen.contains ·)).eraseDups := by
  induction names generalizing seen with
  | nil => simp [firsts]
  | cons name rest ih =>
    rw [firsts]
    by_cases hseen : seen.contains name = true
    · rw [if_pos hseen, ih, filter_cons_of_neg (by simpa using hseen)]
    · rw [if_neg hseen, ih, filter_cons_of_pos (by simpa using hseen), eraseDups_cons,
        filter_filter]
      congr 3
      funext x
      by_cases hx : x = name <;> simp [hx]

theorem firsts_nodup (seen names : List String) :
    (firsts seen names).Nodup ∧ ∀ x ∈ firsts seen names, x ∉ seen := by
  induction names generalizing seen with
  | nil => simp [firsts]
  | cons name rest ih =>
    rw [firsts]
    split
    · exact ih seen
    · rename_i hseen
      obtain ⟨hnodup, hnew⟩ := ih (name :: seen)
      refine ⟨nodup_cons.2 ⟨fun hmem => hnew name hmem mem_cons_self, hnodup⟩, ?_⟩
      refine forall_mem_cons.2 ⟨by simpa using hseen, fun x hx hold => ?_⟩
      exact hnew x hx (mem_cons_of_mem _ hold)

end CodeAssist.Text
