import CodeAssist.Proofs.Json.Spelling

/-!
Values in canonical form, and what printing and reading keeps of them.
-/

namespace CodeAssist.Json

open List

variable {fs done : List (String × Json)}

/-! ## 1. Ascending keys -/

def Ascending (entries : List (String × α)) : Prop :=
  entries.Pairwise fun a b => a.1 < b.1

theorem Ascending.nodup {entries : List (String × α)} (h : Ascending entries) :
    (entries.map (·.1)).Nodup :=
  pairwise_map.2 (h.imp fun hlt => String.ne_of_lt hlt)

theorem mem_insertField {k : String} {v : Json} {f : String × Json} (h : f ∈ insertField k v fs) :
    f = (k, v) ∨ f ∈ fs := by
  induction fs with
  | nil => exact .inl (mem_singleton.1 h)
  | cons g rest ih =>
    obtain ⟨k', v'⟩ := g
    rw [insertField] at h
    split at h
    · exact mem_cons.1 h
    split at h
    · rcases mem_cons.1 h with rfl | hrest
      · exact .inl rfl
      · exact .inr (mem_cons_of_mem _ hrest)
    · rcases mem_cons.1 h with rfl | hrest
      · exact .inr mem_cons_self
      · exact (ih hrest).imp_right (mem_cons_of_mem _)

/-- A field put into ascending fields leaves them ascending. -/
theorem insertField_ascending (h : Ascending fs) (k : String) (v : Json) :
    Ascending (insertField k v fs) := by
  induction fs with
  | nil => exact pairwise_singleton _ _
  | cons g rest ih =>
    obtain ⟨k', v'⟩ := g
    obtain ⟨hhead, hrest⟩ := pairwise_cons.1 h
    rw [insertField]
    split
    · rename_i hlt
      refine pairwise_cons.2 ⟨fun g hg => ?_, h⟩
      rcases mem_cons.1 hg with rfl | hg
      · exact hlt
      · exact String.lt_trans hlt (hhead g hg)
    split
    · rename_i heq
      obtain rfl := beq_iff_eq.1 heq
      exact pairwise_cons.2 ⟨hhead, hrest⟩
    · rename_i hnot hne
      have hle : k' ≤ k := String.not_lt.1 hnot
      have hgt : k' < k := by
        refine String.not_le.1 fun hge => hne (beq_iff_eq.2 (String.le_antisymm hge hle))
      refine pairwise_cons.2 ⟨fun g hg => ?_, ih hrest⟩
      rcases mem_insertField hg with rfl | hg
      · exact hgt
      · exact hhead g hg

theorem insertField_last {k : String} (h : ∀ f ∈ fs, f.1 < k) (v : Json) :
    insertField k v fs = fs ++ [(k, v)] := by
  induction fs with
  | nil => rfl
  | cons g rest ih =>
    obtain ⟨k', v'⟩ := g
    have hlt : k' < k := h (k', v') mem_cons_self
    have hne : (k == k') = false := beq_eq_false_iff_ne.2 (String.ne_of_lt hlt).symm
    rw [insertField, if_neg (String.lt_asymm hlt), hne,
      ih fun f hf => h f (mem_cons_of_mem _ hf)]
    rfl

theorem insertField_perm {k : String} (h : k ∉ fs.map (·.1)) (v : Json) :
    (insertField k v fs).Perm ((k, v) :: fs) := by
  induction fs with
  | nil => exact .refl _
  | cons g rest ih =>
    obtain ⟨k', v'⟩ := g
    rw [map_cons, mem_cons, not_or] at h
    rw [insertField]
    split
    · exact .refl _
    split
    · rename_i heq
      exact absurd (beq_iff_eq.1 heq) h.1
    · exact ((ih h.2).cons _).trans (.swap _ _ _)

/-! ## 2. Canonical form -/

theorem canonicalItems_eq_map (js : List Json) : canonicalItems js = js.map canonical := by
  induction js with
  | nil => rfl
  | cons j rest ih => rw [canonicalItems, ih, map_cons]

/-- A field with its value in canonical form. -/
def canonicalField (f : String × Json) : String × Json :=
  (f.1, canonical f.2)

theorem map_canonicalField_keys (fs : List (String × Json)) :
    (fs.map canonicalField).map (·.1) = fs.map (·.1) := by
  rw [map_map]
  rfl

theorem canonicalFields_ascending (fs : List (String × Json)) (h : Ascending done) :
    Ascending (canonicalFields done fs) := by
  induction fs generalizing done with
  | nil => exact h
  | cons f rest ih =>
    rw [canonicalFields]
    exact ih (insertField_ascending h _ _)

theorem canonicalFields_of_ascending (fs : List (String × Json)) (h : Ascending (done ++ fs)) :
    canonicalFields done fs = done ++ fs.map canonicalField := by
  induction fs generalizing done with
  | nil => rw [canonicalFields, map_nil, append_nil]
  | cons f rest ih =>
    obtain ⟨hdone, hrest, hbetween⟩ := pairwise_append.1 h
    obtain ⟨hhead, hrest⟩ := pairwise_cons.1 hrest
    rw [canonicalFields, insertField_last fun g hg => hbetween g hg f mem_cons_self]
    rw [ih, append_assoc]
    · rfl
    · rw [append_assoc]
      refine pairwise_append.2 ⟨hdone, pairwise_cons.2 ⟨hhead, hrest⟩, ?_⟩
      intro g hg g' hg'
      rcases mem_cons.1 hg' with rfl | hg'
      · exact hbetween g hg f mem_cons_self
      · exact hbetween g hg g' (mem_cons_of_mem _ hg')

/-- Fields under distinct keys are only moved. -/
theorem canonicalFields_perm (fs : List (String × Json)) (h : ((done ++ fs).map (·.1)).Nodup) :
    (canonicalFields done fs).Perm (done ++ fs.map canonicalField) := by
  induction fs generalizing done with
  | nil => rw [canonicalFields, map_nil, append_nil]
  | cons f rest ih =>
    have hnew : f.1 ∉ done.map (·.1) := by
      rw [map_append, map_cons] at h
      exact fun hmem => (nodup_append.1 h).2.2 _ hmem _ mem_cons_self rfl
    have hput := insertField_perm hnew (canonical f.2)
    have hswap : ((insertField f.1 (canonical f.2) done ++ rest).map (·.1)).Perm
        ((done ++ f :: rest).map (·.1)) := by
      refine ((hput.append_right rest).map _).trans ?_
      rw [cons_append, map_cons, map_append, map_append, map_cons]
      exact perm_middle.symm
    rw [canonicalFields]
    refine (ih (hswap.nodup_iff.2 h)).trans ?_
    rw [map_cons]
    exact (hput.append_right _).trans perm_middle.symm

theorem mem_canonicalFields (fs : List (String × Json)) {g : String × Json}
    (h : g ∈ canonicalFields done fs) :
    g ∈ done ∨ g ∈ fs.map canonicalField := by
  induction fs generalizing done with
  | nil => exact .inl h
  | cons f rest ih =>
    rw [canonicalFields] at h
    rcases ih h with hdone | hrest
    · rcases mem_insertField hdone with rfl | hmem
      · exact .inr mem_cons_self
      · exact .inl hmem
    · exact .inr (mem_cons_of_mem _ hrest)

mutual

@[simp] theorem canonical_canonical : ∀ j : Json, canonical (canonical j) = canonical j
  | null => rfl
  | bool _ => rfl
  | number _ => rfl
  | text _ => rfl
  | array items => by
    rw [canonical, canonical, canonicalItems_fixed items]
  | object fields => by
    have hascending : Ascending (canonicalFields [] fields) :=
      canonicalFields_ascending fields .nil
    have hfixed : ∀ g ∈ canonicalFields [] fields, canonicalField g = g := by
      intro g hg
      rcases mem_canonicalFields fields hg with hnil | hmem
      · cases hnil
      · obtain ⟨f, hf, rfl⟩ := mem_map.1 hmem
        exact canonicalFields_fixed fields f hf
    rw [canonical, canonical, canonicalFields_of_ascending _ hascending, nil_append,
      map_congr_left hfixed, map_id']

theorem canonicalItems_fixed : ∀ js : List Json,
    canonicalItems (canonicalItems js) = canonicalItems js
  | [] => rfl
  | j :: rest => by
    rw [canonicalItems, canonicalItems, canonical_canonical j, canonicalItems_fixed rest]

theorem canonicalFields_fixed : ∀ fs : List (String × Json),
    ∀ f ∈ fs, canonicalField (canonicalField f) = canonicalField f
  | [] => fun _ h => by cases h
  | (k, v) :: rest => fun f h => by
    have hv := canonical_canonical v
    have hrest := canonicalFields_fixed rest
    rcases mem_cons.1 h with rfl | hmem
    · rw [canonicalField, canonicalField, hv]
    · exact hrest f hmem

end

/-! ## 3. Texts read back -/

@[simp] theorem canonical_ofTexts (ts : List String) : canonical (ofTexts ts) = ofTexts ts := by
  rw [ofTexts, canonical, canonicalItems_eq_map, map_map]
  congr 1

theorem rereadItems_texts (depth : Nat) (ts : List String) :
    rereadItems depth (ts.map text) = some (ts.map text) := by
  induction ts with
  | nil => rfl
  | cons t rest ih => simp [rereadItems, reread, ih]

@[simp] theorem reread_ofTexts (depth : Nat) (ts : List String) :
    reread (depth + 1) (ofTexts ts) = some (ofTexts ts) := by
  rw [ofTexts, reread, rereadItems_texts]
  rfl

/-- A value that comes back as itself when it is printed and read as a map from that depth. -/
def Kept (depth : Nat) (j : Json) : Prop :=
  (reread depth j).map canonical = some j

end CodeAssist.Json
