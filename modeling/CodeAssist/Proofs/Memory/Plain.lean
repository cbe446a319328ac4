import CodeAssist.Proofs.Memory.Reread

/-!
Memories whose free values hold no reals.

A printed real may be read as its neighbour, and so a memory that holds one need not come back.
Every other value comes back unless it lies too deep: a plain value is read as itself exactly when
its containers fit the depth that is left (`Json.Plain.kept_iff`). For the document of a memory the
depth is that of the whole, whichever of its values is the deepest
(`Memory.Plain.ofText?_pretty_iff`).
-/

namespace CodeAssist

open List Option Json

variable {fields : List (String × Json)} {depth : Nat}

namespace Json

/-! ## 1. Integers -/

/-- A number that is no real, within the bounds of its sign. -/
def IsInteger : Numeral → Prop
  | .natural n => n < Nat.pow 2 64
  | .negative n => 0 < n ∧ n ≤ Nat.pow 2 63
  | .real _ => False

theorem rereadNumeral_negative {n : Nat} (hpos : 0 < n) (h : n ≤ Nat.pow 2 63) :
    rereadNumeral (.negative n) = some (number (.negative n)) := by
  have hfits : n ≤ maxNatural := Nat.le_trans h (by decide)
  have hgather := gather_fits 0 (Number.digitsOf n) (by rwa [appendDigits_digitsOf])
  have hvalue : (NumberParts.ofNat n).value true = some (.negative n) := by
    simp only [NumberParts.value, NumberParts.power, NumberParts.ofNat, map_none, numeral,
      hgather, appendDigits_digitsOf]
    simp [hpos, h]
  have hread := (NumberParts.ofNat n).unsignedNumber_chars true delimited_nil
  rw [NumberParts.ofNat_chars, append_nil, hvalue] at hread
  rw [rereadNumeral, writeNumeral]
  simp [scalar, hread]

theorem rereadNumeral_integer {n : Numeral} (h : IsInteger n) :
    rereadNumeral n = some (number n) := by
  cases n with
  | natural n =>
    have hfits : n ≤ maxNatural := Nat.le_sub_one_of_lt h
    exact rereadNumeral_fits hfits
  | negative n => exact rereadNumeral_negative h.1 h.2
  | real x => exact h.elim

/-! ## 2. Nesting -/

mutual

/-- How many containers of a value lie inside one another. -/
def nesting : Json → Nat
  | array items => nestingItems items + 1
  | object fields => nestingFields fields + 1
  | _ => 0

def nestingItems : List Json → Nat
  | [] => 0
  | j :: rest => max (nesting j) (nestingItems rest)

def nestingFields : List (String × Json) → Nat
  | [] => 0
  | (_, j) :: rest => max (nesting j) (nestingFields rest)

end

@[simp] theorem nesting_null : nesting null = 0 := rfl

@[simp] theorem nesting_number (n : Numeral) : nesting (number n) = 0 := rfl

@[simp] theorem nesting_text (s : String) : nesting (text s) = 0 := rfl

theorem nestingItems_le_iff {items : List Json} :
    nestingItems items ≤ depth ↔ ∀ j ∈ items, nesting j ≤ depth := by
  induction items with
  | nil => simp [nestingItems]
  | cons j rest ih => rw [nestingItems, Nat.max_le, ih, forall_mem_cons]

theorem nestingFields_le_iff :
    nestingFields fields ≤ depth ↔ ∀ f ∈ fields, nesting f.2 ≤ depth := by
  induction fields with
  | nil => simp [nestingFields]
  | cons f rest ih => rw [nestingFields, Nat.max_le, ih, forall_mem_cons]

@[simp] theorem nesting_array_le_iff {items : List Json} :
    nesting (array items) ≤ depth + 1 ↔ ∀ j ∈ items, nesting j ≤ depth := by
  rw [nesting, Nat.add_le_add_iff_right, nestingItems_le_iff]

@[simp] theorem nesting_object_le_iff :
    nesting (object fields) ≤ depth + 1 ↔ ∀ f ∈ fields, nesting f.2 ≤ depth := by
  rw [nesting, Nat.add_le_add_iff_right, nestingFields_le_iff]

/-- What is read again is no deeper than may be read. -/
theorem nesting_le_of_reread {j v : Json} (h : reread depth j = some v) :
    nesting j ≤ depth := by
  induction depth generalizing j v with
  | zero =>
    cases j with
    | array items =>
      rw [reread] at h
      cases h
    | object fields =>
      rw [reread] at h
      cases h
    | _ => exact Nat.zero_le _
  | succ depth ih =>
    cases j with
    | array items =>
      rw [reread, rereadItems_eq_mapM] at h
      obtain ⟨read, hread, -⟩ := map_eq_some_iff.1 h
      rw [nesting_array_le_iff]
      intro j hj
      obtain ⟨v, hv⟩ := exists_forall₂_iff.1 ⟨read, mapM_eq_some_iff.1 hread⟩ j hj
      exact ih hv
    | object fields =>
      rw [reread, rereadFields_eq_mapM] at h
      obtain ⟨read, hread, -⟩ := map_eq_some_iff.1 h
      rw [nesting_object_le_iff]
      intro f hf
      obtain ⟨v, -, hv⟩ := exists_forall₂_iff.1 ⟨read, mapM_entries_iff.1 hread⟩ f hf
      exact ih hv
    | _ => exact Nat.zero_le _

/-! ## 3. Plain values -/

/-- A value without reals, the keys of its objects ascending. -/
inductive Plain : Json → Prop where
  | null : Plain .null
  | bool (b : Bool) : Plain (.bool b)
  | number {n : Numeral} (h : IsInteger n) : Plain (.number n)
  | text (s : String) : Plain (.text s)
  | array {items : List Json} (h : ∀ j ∈ items, Plain j) : Plain (.array items)
  | object {fields : List (String × Json)} (hkeys : Ascending fields)
      (h : ∀ f ∈ fields, Plain f.2) : Plain (.object fields)

theorem Plain.canonical_eq {j : Json} (h : Plain j) : canonical j = j := by
  induction h with
  | null => rfl
  | bool b => rfl
  | number h => rfl
  | text s => rfl
  | array h ih => rw [canonical, canonicalItems_eq_map, map_congr_left ih, List.map_id']
  | object hkeys h ih =>
    have hfields : ∀ f ∈ _, canonicalField f = f := fun f hf => by
      rw [canonicalField, ih f hf]
    have hordered := canonicalFields_of_ascending _ (show Ascending ([] ++ _) from hkeys)
    rw [canonical, hordered, nil_append, map_congr_left hfields, List.map_id']

/-- A plain value that is not too deep is read again as itself. -/
theorem Plain.reread_eq {j : Json} (h : Plain j) (hdepth : nesting j ≤ depth) :
    reread depth j = some j := by
  induction h generalizing depth with
  | null => rw [reread]
  | bool b => rw [reread]
  | number h => rw [reread, rereadNumeral_integer h]
  | text s => rw [reread]
  | array h ih =>
    cases depth with
    | zero => cases hdepth
    | succ depth =>
      rw [nesting_array_le_iff] at hdepth
      have hitems := mapM_eq_self_iff.2 fun j hj => ih j hj (hdepth j hj)
      rw [reread, rereadItems_eq_mapM, hitems]
      rfl
  | object hkeys h ih =>
    cases depth with
    | zero => cases hdepth
    | succ depth =>
      rw [nesting_object_le_iff] at hdepth
      have hfields := mapM_entries_iff.2
        (forall₂_same.2 fun f hf => ⟨rfl, ih f hf (hdepth f hf)⟩)
      rw [reread, rereadFields_eq_mapM, hfields]
      rfl

/-- A plain value comes back as itself exactly when it is not nested too deeply. -/
theorem Plain.kept_iff {j : Json} (h : Plain j) :
    Kept depth j ↔ nesting j ≤ depth := by
  rw [Kept]
  constructor
  · intro hkept
    obtain ⟨v, hread, -⟩ := map_eq_some_iff.1 hkept
    exact nesting_le_of_reread hread
  · intro hdepth
    rw [h.reread_eq hdepth, map_some, h.canonical_eq]

end Json

/-! ## 4. Plain memories -/

namespace Memory

/-- A memory whose free values are plain. -/
structure Plain (m : Memory) : Prop where
  events : ∀ e ∈ m.events, e.details.Plain
  exchanges : ∀ e ∈ m.exchanges, ∀ v ∈ e.metadata.entries, v.2.Plain

/-- Only the free values of a memory can be too deep for its document. -/
theorem nesting_toJson_le_iff (m : Memory) :
    m.toJson.nesting ≤ 127 ↔
      (∀ e ∈ m.events, e.details.nesting ≤ 124) ∧
      ∀ e ∈ m.exchanges, ∀ v ∈ e.metadata.entries, v.2.nesting ≤ 123 := by
  have hfile : ∀ f : SourceFile, f.toJson.nesting ≤ 125 := by
    intro f
    simp [SourceFile.toJson, Facts.toJson, FunctionFact.toJson, VariableFact.toJson,
      IncludeFact.toJson, ofNat, ofMoment]
  have hfiles : (ofTable SourceFile.toJson m.files).nesting ≤ 126 := by
    rw [ofTable, nesting_object_le_iff]
    intro field hfield
    obtain ⟨e, -, rfl⟩ := mem_map.1 hfield
    exact hfile e.2
  have hediting : m.editing.toJson.nesting ≤ 126 := by
    cases hfile : m.editing.currentFile <;> cases herror : m.editing.lastError <;>
      simp [Editing.toJson, hfile, herror, Cursor.toJson, BuildState.toJson, ofOption,
        ofWord, ofNat]
  have hproject : m.project.toJson.nesting ≤ 126 := by
    simp [Project.toJson, ofMoment]
  have hevent : ∀ e : Event, e.toJson.nesting ≤ 125 ↔ e.details.nesting ≤ 124 := by
    intro e
    simp [Event.toJson, EventKind.toJson, ofMoment]
  have hexchange : ∀ e : Exchange,
      e.toJson.nesting ≤ 125 ↔ ∀ v ∈ e.metadata.entries, v.2.nesting ≤ 123 := by
    intro e
    simp [Exchange.toJson, Action.toJson, ofMoment]
  simp [toJson, ofNat, hfiles, hediting, hproject, hevent, hexchange]

/-- The document of a plain memory is read as that memory exactly when it is not nested too
deeply. -/
theorem Plain.ofText?_pretty_iff {m : Memory} (h : m.Plain) (hfits : m.Fits) :
    Memory.ofText? m.toJson.pretty = some m ↔ m.toJson.nesting ≤ 127 := by
  rw [Memory.ofText?_pretty, reread?_eq_self_iff hfits, nesting_toJson_le_iff]
  constructor
  · intro hkept
    exact ⟨fun e he => (h.events e he).kept_iff.1 (hkept.events e he),
      fun e he v hv => (h.exchanges e he v hv).kept_iff.1 (hkept.exchanges e he v hv)⟩
  · rintro ⟨hevents, hexchanges⟩
    exact ⟨fun e he => (h.events e he).kept_iff.2 (hevents e he),
      fun e he v hv => (h.exchanges e he v hv).kept_iff.2 (hexchanges e he v hv)⟩

end Memory

end CodeAssist
