import CodeAssist.Proofs.Text.Trimming
import CodeAssist.Reply.Listing
import Mathlib.Data.List.DropRight

/-!
List markers, and the list lines of a text.

`IsMarker` says what a list marker is, blanks included. The reader takes all blanks that follow the
sign, so of a line with a marker it leaves what begins visibly (`exists_of_afterMarker?`), and a
line without one it leaves alone (`afterMarker?_eq_none_iff`).
-/

namespace CodeAssist.Reply

open Text List

/-! ## 1. Markers -/

/-- A dash, a star or a bullet, or a number with a point or a bracket, and blanks behind it. -/
inductive IsMarker : List Char → Prop where
  | sign {c : Char} {ws : List Char} (hc : c ∈ ['-', '*', '•']) (hne : ws ≠ [])
      (hws : ws.all isBlank = true) : IsMarker (c :: ws)
  | number {ds : List Char} {d : Char} {ws : List Char} (hds : ds ≠ [])
      (hdigits : ds.all isDigit = true) (hd : d ∈ ['.', ')']) (hne : ws ≠ [])
      (hws : ws.all isBlank = true) : IsMarker (ds ++ d :: ws)

def IsListLine (line : List Char) : Prop :=
  ∃ marker, IsMarker marker ∧ marker <+: dropBlank line

theorem exists_of_afterMarkerBlanks? {cs rest : List Char}
    (h : afterMarkerBlanks? cs = some rest) :
    ∃ ws, ws ≠ [] ∧ ws.all isBlank = true ∧ cs = ws ++ rest ∧ dropBlank rest = rest := by
  rw [afterMarkerBlanks?] at h
  split at h
  · rename_i hhead
    cases h
    obtain ⟨c, hc, hblank⟩ := (Option.any_eq_true _ _).1 hhead
    obtain ⟨more, rfl⟩ := head?_eq_some_iff.1 hc
    refine ⟨(c :: more).takeWhile isBlank, ?_, all_takeWhile, ?_, ?_⟩
    · rw [takeWhile_cons, hblank]
      exact cons_ne_nil _ _
    · exact takeWhile_append_dropWhile.symm
    · exact dropWhile_idempotent isBlank _
  · cases h

theorem afterMarkerBlanks?_append {ws : List Char} (hne : ws ≠ []) (hws : ws.all isBlank = true)
    (rest : List Char) : afterMarkerBlanks? (ws ++ rest) = some (dropBlank rest) := by
  obtain ⟨c, more, rfl⟩ := exists_cons_of_ne_nil hne
  have hc : isBlank c = true := (Bool.and_eq_true_iff.1 hws).1
  have hhead : ((c :: more ++ rest).head?.any isBlank) = true := hc
  rw [afterMarkerBlanks?, if_pos hhead, dropBlank_append hws]

theorem afterMarker?_append {marker : List Char} (h : IsMarker marker) (rest : List Char) :
    afterMarker? (marker ++ rest) = some (dropBlank rest) := by
  cases h with
  | @sign c ws hc hne hws =>
    have hsign : (c == '-' || c == '*' || c == '•') = true := by
      simpa [or_assoc] using hc
    rw [cons_append, afterMarker?, if_pos hsign, afterMarkerBlanks?_append hne hws]
  | @number ds d ws hds hdigits hd hne hws =>
    obtain ⟨c, more, rfl⟩ := exists_cons_of_ne_nil hds
    have hc : isDigit c = true := (Bool.and_eq_true_iff.1 hdigits).1
    have hsign : ¬(c == '-' || c == '*' || c == '•') = true := by
      intro hsign
      simp only [Bool.or_eq_true, beq_iff_eq] at hsign
      rcases hsign with (rfl | rfl) | rfl <;> exact absurd hc (by decide)
    have hpoint : (d == '.' || d == ')') = true := by simpa using hd
    have hdigit : isDigit d = false := by
      simp only [mem_cons, not_mem_nil, or_false] at hd
      rcases hd with rfl | rfl <;> decide
    have hdrop : (c :: (more ++ d :: (ws ++ rest))).dropWhile isDigit = d :: (ws ++ rest) := by
      rw [← cons_append, dropWhile_append_of_pos (all_eq_true.1 hdigits),
        dropWhile_cons, hdigit]
      rfl
    rw [show c :: more ++ d :: ws ++ rest = c :: (more ++ d :: (ws ++ rest)) by simp, afterMarker?,
      if_neg hsign, if_pos hc, hdrop]
    simp only
    rw [if_pos hpoint, afterMarkerBlanks?_append hne hws]

theorem exists_of_afterMarker? {cs rest : List Char} (h : afterMarker? cs = some rest) :
    ∃ marker, IsMarker marker ∧ cs = marker ++ rest ∧ dropBlank rest = rest := by
  cases cs with
  | nil => cases h
  | cons c tail =>
    rw [afterMarker?] at h
    split at h
    · rename_i hsign
      obtain ⟨ws, hne, hws, rfl, hrest⟩ := exists_of_afterMarkerBlanks? h
      exact ⟨c :: ws, .sign (by simpa [or_assoc] using hsign) hne hws, rfl, hrest⟩
    · split at h
      · rename_i hc
        split at h
        · rename_i d tail' hdrop
          split at h
          · rename_i hpoint
            obtain ⟨ws, hne, hws, rfl, hrest⟩ := exists_of_afterMarkerBlanks? h
            have hsplit := takeWhile_append_dropWhile (p := isDigit) (l := c :: tail)
            rw [hdrop] at hsplit
            refine ⟨(c :: tail).takeWhile isDigit ++ d :: ws, .number ?_ all_takeWhile
              (by simpa using hpoint) hne hws, ?_, hrest⟩
            · rw [takeWhile_cons, hc]
              exact cons_ne_nil _ _
            · rw [append_assoc, cons_append, hsplit]
          · cases h
        · cases h
      · cases h

theorem afterMarker?_eq_none_iff (cs : List Char) :
    afterMarker? cs = none ↔ ∀ marker, IsMarker marker → ¬marker <+: cs := by
  constructor
  · rintro hnone marker hmarker ⟨rest, rfl⟩
    rw [afterMarker?_append hmarker] at hnone
    cases hnone
  · intro h
    cases hread : afterMarker? cs with
    | none => rfl
    | some rest =>
      obtain ⟨marker, hmarker, rfl, -⟩ := exists_of_afterMarker? hread
      exact absurd (prefix_append marker rest) (h marker hmarker)

/-! ## 2. List lines -/

theorem not_isListLine_iff (line : List Char) :
    ¬IsListLine line ↔ afterMarker? (dropBlank line) = none := by
  rw [afterMarker?_eq_none_iff, IsListLine]
  simp

instance : DecidablePred IsListLine := fun line =>
  decidable_of_iff (¬afterMarker? (dropBlank line) = none)
    ((not_congr (not_isListLine_iff line)).symm.trans Classical.not_not)

theorem splitItems_kept {ls : List (List Char)} (h : ∀ line ∈ ls, ¬IsListLine line)
    (rest : List (List Char)) :
    splitItems (ls ++ rest) = (ls ++ (splitItems rest).1, (splitItems rest).2) := by
  induction ls with
  | nil => rfl
  | cons line ls ih =>
    obtain ⟨hline, hls⟩ := forall_mem_cons.1 h
    rw [cons_append, splitItems, ih hls, (not_isListLine_iff line).1 hline]
    rfl

def itemLine (item : List Char) : List Char :=
  '-' :: ' ' :: item

/-- Items that are trimmed are read from their lines as they are. -/
theorem splitItems_items {items : List (List Char)}
    (h : ∀ item ∈ items, item ≠ [] ∧ strip item = item) :
    splitItems (items.map itemLine) = ([], items) := by
  have hdash : IsMarker ['-', ' '] := .sign (by decide) (by decide) (by decide)
  induction items with
  | nil => rfl
  | cons item items ih =>
    obtain ⟨⟨hne, htrim⟩, hitems⟩ := forall_mem_cons.1 h
    have hread : afterMarker? (dropBlank (itemLine item)) = some (dropBlank item) :=
      afterMarker?_append hdash item
    have hitem : strip (dropBlank item) = item :=
      (congrArg dropBlankEnd (dropWhile_idempotent isBlank item)).trans htrim
    rw [map_cons, splitItems, ih hitems, hread]
    simp [hitem, hne]

end CodeAssist.Reply
