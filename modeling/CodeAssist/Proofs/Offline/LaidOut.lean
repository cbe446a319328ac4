import CodeAssist.Proofs.Offline.Layout

/-!
Texts that the rules for layout leave alone.

A text is laid out if all its code is (`LaidOut`). The rules for layout leave such a text alone, and
no other (`laidOut_iff_rules`); they bring it about unless commas are doubled somewhere in the code
(`laidOut_layOut_iff`).
-/

namespace CodeAssist.Offline

open Text List

/-! ## 1. Layout of the code of a text -/

/-- Every stretch of code of the text is laid out. -/
def LaidOut (cs : List Char) : Prop :=
  ∀ s ∈ segments cs, s.kind = .code → IsLaid s.text

instance (cs : List Char) : Decidable (LaidOut cs) :=
  inferInstanceAs (Decidable (∀ s ∈ segments cs, s.kind = .code → IsLaid s.text))

/-- Somewhere in the code two commas stand right before something visible. -/
def CommasDoubled (cs : List Char) : Prop :=
  ∃ s ∈ segments cs, s.kind = .code ∧ DoubledComma s.text

theorem segments_layOut (cs : List Char) :
    segments (layOut cs) = (segments cs).map (Segment.changed layOutStretch) := by
  rw [layOut, segments_mapCode (braceTightPattern_keepsLayout.keepsCode.comp
      braceBelowPattern_keepsLayout.keepsCode),
    segments_mapCode commaPattern_keepsLayout.keepsCode,
    segments_mapCode keywordPattern_keepsLayout.keepsCode, map_map, map_map]
  refine map_congr_left fun s _ => ?_
  obtain ⟨kind, text⟩ := s
  by_cases hkind : kind = .code <;>
    simp [Segment.changed, Segment.mapCode, layOutStretch, hkind]

/-- The rules for layout leave nothing to do if and only if no two commas stood together. -/
theorem laidOut_layOut_iff (cs : List Char) : LaidOut (layOut cs) ↔ ¬ CommasDoubled cs := by
  rw [LaidOut, segments_layOut, CommasDoubled]
  constructor
  · rintro h ⟨⟨kind, text⟩, hs, rfl, hdoubled⟩
    exact (isLaid_layOutStretch_iff text).1 (h _ (mem_map_of_mem hs) rfl) hdoubled
  · intro h t ht hkind
    obtain ⟨⟨kind, text⟩, hs, rfl⟩ := mem_map.1 ht
    obtain rfl : kind = .code := hkind
    exact (isLaid_layOutStretch_iff text).2 fun hdoubled => h ⟨_, hs, rfl, hdoubled⟩

/-! ## 2. The rules for layout on such a text -/

theorem mapCode_eq_self_iff {f : List Char → List Char} (hf : KeepsCode f) (cs : List Char) :
    mapCode f cs = cs ↔ ∀ s ∈ segments cs, s.kind = .code → f s.text = s.text := by
  constructor
  · rintro h ⟨kind, text⟩ hs rfl
    have hsegments := segments_mapCode hf cs
    rw [h, ← map_id (segments cs), map_map] at hsegments
    exact (congrArg Segment.text (map_inj_left.1 hsegments _ hs)).symm
  · intro h
    have hsame : ∀ s ∈ segments cs, s.mapCode f = s.text := by
      intro s hs
      rw [Segment.mapCode]
      split
      · rename_i hkind
        exact h s hs (beq_iff_eq.1 hkind)
      · rfl
    rw [mapCode, flatMap_def, map_congr_left hsame, ← flatMap_def, segments_flatMap]

/-- Where each value is longer than its match, a text left alone has no match. -/
theorem replaceAll_eq_self_iff {p : Pattern (List Char)} (hp : p.Reads)
    (h : ∀ before piece behind new, p before (piece ++ behind) = some (new, behind) →
      piece.length < new.length) (cs : List Char) :
    replaceAll p cs = cs ↔ isMatch p cs = false := by
  refine ⟨fun hsame => ?_, replaceAll_eq_self⟩
  have hlighter := isMatch_or_lighter hp (fun cs => -(cs.length : Int))
    (fun xs ys => by simp; omega)
    (fun before piece behind new hmatch => by
      have hlonger := h _ _ _ _ hmatch
      omega) cs
  rw [hsame] at hlighter
  exact hlighter.resolve_right (Int.lt_irrefl _)

theorem replaceAll_keyword_eq_self_iff (cs : List Char) :
    replaceAll keywordPattern cs = cs ↔ isMatch keywordPattern cs = false := by
  refine replaceAll_eq_self_iff keywordPattern_keepsLayout.reads ?_ cs
  intro before piece behind new h
  obtain ⟨w, -, -, hpiece, rfl⟩ := keywordPattern_eq_some h
  rw [append_cancel_right hpiece]
  simp

theorem replaceAll_comma_eq_self_iff (cs : List Char) :
    replaceAll commaPattern cs = cs ↔ isMatch commaPattern cs = false := by
  refine replaceAll_eq_self_iff commaPattern_keepsLayout.reads ?_ cs
  intro before piece behind new h
  obtain ⟨c, -, hpiece, rfl⟩ := commaPattern_eq_some h
  rw [append_cancel_right hpiece]
  simp

/-- A brace moved up takes a newline with it, which a brace set apart does not bring back. -/
theorem replaceAll_braces_eq_self_iff (cs : List Char) :
    replaceAll braceTightPattern (replaceAll braceBelowPattern cs) = cs ↔
      isMatch braceBelowPattern cs = false ∧ isMatch braceTightPattern cs = false := by
  have htight : ∀ cs, replaceAll braceTightPattern cs = cs ↔
      isMatch braceTightPattern cs = false := by
    refine replaceAll_eq_self_iff braceTightPattern_keepsLayout.reads ?_
    intro before piece behind new h
    obtain ⟨hpiece, rfl⟩ := braceTightPattern_eq_some h
    rw [append_cancel_right hpiece]
    simp
  constructor
  · intro h
    have hbelow := isMatch_or_lighter braceBelowPattern_keepsLayout.reads
      (fun cs => (newlines cs : Int)) (fun xs ys => by simp [newlines])
      (fun before piece behind new hmatch => by
        obtain ⟨right, left, -, -, hpiece, rfl⟩ := braceBelowPattern_eq_some hmatch
        rw [append_cancel_right hpiece]
        simp [newlines]
        omega) cs
    have hlines : newlines (replaceAll braceTightPattern (replaceAll braceBelowPattern cs)) =
        newlines (replaceAll braceBelowPattern cs) := by
      refine braceTightPattern_related (r := fun xs ys => newlines ys = newlines xs) ⟨?_, ?_⟩ rfl _
      · exact fun _ => rfl
      · intro xs ys xs' ys' hxs hys
        simp only [newlines, count_append] at hxs hys ⊢
        omega
    rw [h] at hlines
    have hnone := hbelow.resolve_right (by omega)
    rw [replaceAll_eq_self hnone] at h
    exact ⟨hnone, (htight cs).1 h⟩
  · rintro ⟨hbelow, htight'⟩
    rw [replaceAll_eq_self hbelow, replaceAll_eq_self htight']

/-- The rules for layout leave a text alone if and only if it is laid out. -/
theorem laidOut_iff_rules (cs : List Char) : LaidOut cs ↔
    mapCode (replaceAll keywordPattern) cs = cs ∧ mapCode (replaceAll commaPattern) cs = cs ∧
      mapCode (fun text => replaceAll braceTightPattern (replaceAll braceBelowPattern text)) cs =
        cs := by
  rw [mapCode_eq_self_iff keywordPattern_keepsLayout.keepsCode,
    mapCode_eq_self_iff commaPattern_keepsLayout.keepsCode,
    mapCode_eq_self_iff (braceTightPattern_keepsLayout.keepsCode.comp
      braceBelowPattern_keepsLayout.keepsCode)]
  simp only [replaceAll_keyword_eq_self_iff, replaceAll_comma_eq_self_iff,
    replaceAll_braces_eq_self_iff, LaidOut, IsLaid]
  grind

end CodeAssist.Offline
