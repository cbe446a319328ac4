import CodeAssist.Offline.Tidy
import CodeAssist.Proofs.Text.Finding
import CodeAssist.Proofs.Text.Trimming

/-!
What the parts of tidying read.

The segments of a text, one after the other, are the text (`segments_flatMap`).
-/

namespace CodeAssist.Offline

open Text List

/-- Segments that are, one after the other, a text. -/
def Spans (found : List Segment) (cs : List Char) : Prop :=
  found.flatMap (·.text) = cs

mutual

/-- Segments span the text that they were cut from. -/
theorem segmentsInCode_spans (acc : List Char) :
    ∀ cs, Spans (segmentsInCode acc cs) (acc.reverse ++ cs)
  | [] => by simp [Spans, segmentsInCode]
  | c :: rest => by
    rw [segmentsInCode.eq_def]
    have hliteral := fun kind quote => segmentsInLiteral_spans kind quote [c] rest
    have hcode := segmentsInCode_spans (c :: acc) rest
    simp only [Spans, reverse_cons, append_assoc, singleton_append]
      at hcode hliteral ⊢
    split
    · simpa using hliteral _ _
    · split
      · simpa using hliteral _ _
      · split
        · rename_i hslash
          split
          · rename_i more
            have := segmentsInLine_spans ['/', '/'] more
            simpa [Spans, beq_iff_eq.1 hslash] using this
          · rename_i more
            have := segmentsInBlock_spans ['*', '/'] more
            simpa [Spans, beq_iff_eq.1 hslash] using this
          · exact hcode
        · exact hcode
termination_by cs => cs.length

theorem segmentsInLiteral_spans (kind : SegmentKind) (quote : Char) (acc : List Char) :
    ∀ cs, Spans (segmentsInLiteral kind quote acc cs) (acc.reverse ++ cs)
  | [] => by simp [Spans, segmentsInLiteral]
  | c :: rest => by
    rw [segmentsInLiteral.eq_def]
    have hcode := segmentsInCode_spans [] rest
    have hliteral := segmentsInLiteral_spans kind quote (c :: acc) rest
    simp only [Spans, reverse_cons, append_assoc, singleton_append]
      at hcode hliteral ⊢
    split
    · cases rest with
      | nil => simp
      | cons e more =>
        have := segmentsInLiteral_spans kind quote (e :: c :: acc) more
        simpa [Spans] using this
    · split
      · simpa using hcode
      · exact hliteral
termination_by cs => cs.length

theorem segmentsInLine_spans (acc : List Char) :
    ∀ cs, Spans (segmentsInLine acc cs) (acc.reverse ++ cs)
  | [] => by simp [Spans, segmentsInLine]
  | c :: rest => by
    rw [segmentsInLine.eq_def]
    have hcode := segmentsInCode_spans [c] rest
    have hline := segmentsInLine_spans (c :: acc) rest
    simp only [Spans, reverse_cons, append_assoc, singleton_append] at hcode hline ⊢
    split
    · simpa using hcode
    · exact hline
termination_by cs => cs.length

theorem segmentsInBlock_spans (acc : List Char) :
    ∀ cs, Spans (segmentsInBlock acc cs) (acc.reverse ++ cs)
  | [] => by simp [Spans, segmentsInBlock]
  | c :: rest => by
    rw [segmentsInBlock.eq_def]
    have hblock := segmentsInBlock_spans (c :: acc) rest
    simp only [Spans, reverse_cons, append_assoc, singleton_append] at hblock ⊢
    split
    · split
      · rename_i more
        have := segmentsInCode_spans [] more
        simpa [Spans] using this
      · exact hblock
    · exact hblock
termination_by cs => cs.length

end

theorem segments_flatMap (cs : List Char) : (segments cs).flatMap (·.text) = cs :=
  segmentsInCode_spans [] cs

end CodeAssist.Offline
