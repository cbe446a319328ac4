import CodeAssist.Proofs.Json.Tokens

/-!
Printed values read back.

Compact and pretty text differ in white space only, so both are one spelling with a `Spacing`.
`reread` is what reading makes of a printed value: containers that lie too deep are refused,
numbers are read again, and all else stays. `value_spell` says that reading a printed value gives
its `reread` and stops where the value ends, whatever delimiter follows.
-/

namespace CodeAssist.Json

open List String

/-! ## 1. Spellings -/

/-- White space between the tokens of a text: before an item at a depth, and after a colon. -/
structure Spacing where
  line : Nat → List Char
  gap : List Char
  line_space : ∀ depth, (line depth).all isSpace = true
  gap_space : gap.all isSpace = true

def Spacing.tight : Spacing where
  line := fun _ => []
  gap := []
  line_space := fun _ => rfl
  gap_space := rfl

def Spacing.wide : Spacing where
  line := newline
  gap := [' ']
  line_space := fun depth => by
    have hblank : ∀ n, (List.replicate n ' ').all isSpace = true := by
      intro n
      induction n with
      | zero => rfl
      | succ n ih => rw [replicate_succ, all_cons, ih]; rfl
    rw [newline, all_cons, hblank]
    rfl
  gap_space := rfl

mutual

def spell (sp : Spacing) (level : Nat) : Json → List Char
  | null => "null".toList
  | bool b => writeBool b
  | number n => writeNumeral n
  | text s => quote s
  | array [] => ['[', ']']
  | array (j :: rest) =>
    '[' :: sp.line (level + 1) ++ spellItems sp (level + 1) (j :: rest) ++ sp.line level ++ [']']
  | object [] => ['{', '}']
  | object (f :: rest) =>
    '{' :: sp.line (level + 1) ++ spellFields sp (level + 1) (f :: rest) ++ sp.line level ++ ['}']

def spellItems (sp : Spacing) (level : Nat) : List Json → List Char
  | [] => []
  | [j] => spell sp level j
  | j :: rest => spell sp level j ++ ',' :: sp.line level ++ spellItems sp level rest

def spellFields (sp : Spacing) (level : Nat) : List (String × Json) → List Char
  | [] => []
  | [(k, v)] => quote k ++ ':' :: sp.gap ++ spell sp level v
  | (k, v) :: rest =>
    quote k ++ ':' :: sp.gap ++ spell sp level v ++ ',' :: sp.line level ++
      spellFields sp level rest

end

mutual

theorem prettyAt_eq (level : Nat) : ∀ j : Json, prettyAt level j = spell .wide level j
  | null => rfl
  | bool _ => rfl
  | number _ => rfl
  | text _ => rfl
  | array [] => by rw [prettyAt, spell]
  | array (j :: rest) => by
    rw [prettyAt, spell, prettyItems_eq (level + 1) (j :: rest)]
    rfl
  | object [] => by rw [prettyAt, spell]
  | object (f :: rest) => by
    rw [prettyAt, spell, prettyFields_eq (level + 1) (f :: rest)]
    rfl

theorem prettyItems_eq (level : Nat) :
    ∀ js : List Json, prettyItems level js = spellItems .wide level js
  | [] => by rw [prettyItems, spellItems]
  | [j] => by rw [prettyItems, spellItems, prettyAt_eq level j]
  | j :: k :: rest => by
    rw [prettyItems, spellItems, prettyAt_eq level j, prettyItems_eq level (k :: rest)]
    · rfl
    · simp
    · simp

theorem prettyFields_eq (level : Nat) :
    ∀ fs : List (String × Json), prettyFields level fs = spellFields .wide level fs
  | [] => by rw [prettyFields, spellFields]
  | [(k, v)] => by
    rw [prettyFields, spellFields, prettyAt_eq level v]
    simp [Spacing.wide]
  | (k, v) :: f :: rest => by
    rw [prettyFields, spellFields, prettyAt_eq level v, prettyFields_eq level (f :: rest)]
    · simp [Spacing.wide]
    · simp
    · simp

end

mutual

theorem compact_eq (level : Nat) : ∀ j : Json, compact j = spell .tight level j
  | null => rfl
  | bool _ => rfl
  | number _ => rfl
  | text _ => rfl
  | array [] => by rw [compact, compactItems, spell]; rfl
  | array (j :: rest) => by
    rw [compact, spell, compactItems_eq (level + 1) (j :: rest)]
    simp [Spacing.tight]
  | object [] => by rw [compact, compactFields, spell]; rfl
  | object (f :: rest) => by
    rw [compact, spell, compactFields_eq (level + 1) (f :: rest)]
    simp [Spacing.tight]

theorem compactItems_eq (level : Nat) :
    ∀ js : List Json, compactItems js = spellItems .tight level js
  | [] => by rw [compactItems, spellItems]
  | [j] => by rw [compactItems, spellItems, compact_eq level j]
  | j :: k :: rest => by
    rw [compactItems, spellItems, compact_eq level j, compactItems_eq level (k :: rest)]
    · simp [Spacing.tight]
    · simp
    · simp

theorem compactFields_eq (level : Nat) :
    ∀ fs : List (String × Json), compactFields fs = spellFields .tight level fs
  | [] => by rw [compactFields, spellFields]
  | [(k, v)] => by
    rw [compactFields, spellFields, compact_eq level v]
    simp [Spacing.tight]
  | (k, v) :: f :: rest => by
    rw [compactFields, spellFields, compact_eq level v, compactFields_eq level (f :: rest)]
    · simp [Spacing.tight]
    · simp
    · simp

end

/-! ## 2. Rereading -/

mutual

/-- What a printed value is read as where at most `depth` containers may lie inside one another. -/
def reread : Nat → Json → Option Json
  | _, null => some null
  | _, bool b => some (bool b)
  | _, number n => rereadNumeral n
  | _, text s => some (text s)
  | 0, array _ => none
  | depth + 1, array items => (rereadItems depth items).map array
  | 0, object _ => none
  | depth + 1, object fields => (rereadFields depth fields).map object

def rereadItems : Nat → List Json → Option (List Json)
  | _, [] => some []
  | depth, j :: rest => do
    let v ← reread depth j
    let more ← rereadItems depth rest
    return v :: more

def rereadFields : Nat → List (String × Json) → Option (List (String × Json))
  | _, [] => some []
  | depth, (k, j) :: rest => do
    let v ← reread depth j
    let more ← rereadFields depth rest
    return (k, v) :: more

end

/-! ## 3. Values -/

theorem isSpace_of_delimiter {c : Char} (h : isDelimiter c = false) : isSpace c = false := by
  simp only [isDelimiter, Bool.or_eq_false_iff] at h
  exact h.2

/-- What a number starts with neither ends a token nor opens a container. -/
theorem number_head {c : Char} (h : Text.isAsciiDigit c = true ∨ c = '-' ∨ c = 'n') :
    isDelimiter c = false ∧ c ≠ '[' ∧ c ≠ '{' := by
  rcases h with h | rfl | rfl
  · refine ⟨?_, ?_, ?_⟩
    · cases hd : isDelimiter c with
      | false => rfl
      | true => rw [isDelimiter_digit hd] at h; exact Bool.noConfusion h
    · rintro rfl; exact absurd h (by decide)
    · rintro rfl; exact absurd h (by decide)
  · decide
  · decide

/-- A printed value starts with no white space and with no closing bracket. -/
theorem spell_head (sp : Spacing) (level : Nat) (j : Json) :
    ∃ c cs, spell sp level j = c :: cs ∧ isDelimiter c = false := by
  cases j with
  | null => exact ⟨'n', _, rfl, by decide⟩
  | bool b =>
    cases b with
    | true => exact ⟨'t', _, rfl, by decide⟩
    | false => exact ⟨'f', _, rfl, by decide⟩
  | number n =>
    obtain ⟨c, cs, hcs, hc⟩ := writeNumeral_head n
    exact ⟨c, cs, by rw [spell, hcs], (number_head hc).1⟩
  | text s => exact ⟨'"', _, rfl, by decide⟩
  | array items =>
    cases items with
    | nil => exact ⟨'[', _, by rw [spell], by decide⟩
    | cons j rest => exact ⟨'[', _, by rw [spell]; rfl, by decide⟩
  | object fields =>
    cases fields with
    | nil => exact ⟨'{', _, by rw [spell], by decide⟩
    | cons f rest => exact ⟨'{', _, by rw [spell]; rfl, by decide⟩

theorem spellItems_cons (sp : Spacing) (level : Nat) (j k : Json) (js : List Json) :
    spellItems sp level (j :: k :: js) =
      spell sp level j ++ ',' :: sp.line level ++ spellItems sp level (k :: js) := by
  rw [spellItems]
  simp

theorem spellFields_cons (sp : Spacing) (level : Nat) (k : String) (v : Json) (f : String × Json)
    (fs : List (String × Json)) :
    spellFields sp level ((k, v) :: f :: fs) =
      quote k ++ ':' :: sp.gap ++ spell sp level v ++ ',' :: sp.line level ++
        spellFields sp level (f :: fs) := by
  rw [spellFields]
  simp

theorem skipSpace_spell (sp : Spacing) (level : Nat) (j : Json) (rest : List Char) :
    skipSpace (spell sp level j ++ rest) = spell sp level j ++ rest := by
  obtain ⟨c, cs, hcs, hc⟩ := spell_head sp level j
  rw [hcs, cons_append, skipSpace_cons (isSpace_of_delimiter hc)]

theorem spellItems_head (sp : Spacing) (level : Nat) (j : Json) (js : List Json) :
    ∃ c cs, spellItems sp level (j :: js) = c :: cs ∧ isDelimiter c = false := by
  obtain ⟨c, cs, hcs, hc⟩ := spell_head sp level j
  cases js with
  | nil => exact ⟨c, cs, by rw [spellItems, hcs], hc⟩
  | cons k js =>
    refine ⟨c, cs ++ ',' :: sp.line level ++ spellItems sp level (k :: js), ?_, hc⟩
    rw [spellItems_cons, hcs]
    simp

theorem spellFields_head (sp : Spacing) (level : Nat) (f : String × Json)
    (fs : List (String × Json)) :
    ∃ cs, spellFields sp level (f :: fs) = '"' :: cs := by
  obtain ⟨k, v⟩ := f
  cases fs with
  | nil => exact ⟨_, by rw [spellFields]; rfl⟩
  | cons g fs => exact ⟨_, by rw [spellFields_cons]; rfl⟩

theorem value_space {ws : List Char} (hws : ws.all isSpace = true) (fuel depth : Nat)
    (cs : List Char) : value fuel depth (ws ++ cs) = value fuel depth cs := by
  cases depth <;> simp only [value, skipSpace_append hws]

theorem itemsFrom_space {ws : List Char} (hws : ws.all isSpace = true) (fuel depth n : Nat)
    (cs : List Char) :
    itemsFrom (value fuel depth) n (ws ++ cs) = itemsFrom (value fuel depth) n cs := by
  cases n with
  | zero => rfl
  | succ n => simp only [itemsFrom, value_space hws]

theorem fieldsFrom_space {ws : List Char} (hws : ws.all isSpace = true)
    (item : List Char → Option (Json × List Char)) (n : Nat) (cs : List Char) :
    fieldsFrom item n (ws ++ cs) = fieldsFrom item n cs := by
  cases n with
  | zero => rfl
  | succ n => simp only [fieldsFrom, skipSpace_append hws]

theorem value_scalar {c : Char} {cs : List Char} (hspace : isSpace c = false) (harray : c ≠ '[')
    (hobject : c ≠ '{') (fuel depth : Nat) : value fuel depth (c :: cs) = scalar (c :: cs) := by
  have hskip := skipSpace_cons hspace cs
  cases depth <;>
  · rw [value]
    rw [hskip]
    split
    · rename_i h; cases h; exact absurd rfl harray
    · rename_i h; cases h; exact absurd rfl hobject
    · rfl

theorem spellItems_length (sp : Spacing) (level : Nat) (js : List Json) :
    js.length ≤ (spellItems sp level js).length := by
  induction js with
  | nil => simp
  | cons j js ih =>
    obtain ⟨c, cs, hcs, _⟩ := spell_head sp level j
    cases js with
    | nil => rw [spellItems, hcs]; simp
    | cons k js =>
      rw [spellItems_cons, hcs]
      simp only [length_cons, cons_append, List.length_append] at ih ⊢
      omega

theorem spellFields_length (sp : Spacing) (level : Nat) (fs : List (String × Json)) :
    fs.length ≤ (spellFields sp level fs).length := by
  induction fs with
  | nil => simp
  | cons f fs ih =>
    obtain ⟨k, v⟩ := f
    cases fs with
    | nil => rw [spellFields]; simp [quote]
    | cons g fs =>
      rw [spellFields_cons]
      simp only [length_cons, cons_append, List.length_append, quote] at ih ⊢
      omega

theorem value_text (s : String) (fuel depth : Nat) (rest : List Char) :
    value fuel depth (quote s ++ rest) = some (text s, rest) := by
  rw [quote_append, value_scalar (by decide) (by decide) (by decide), scalar, stringBody_escaped]
  simp

theorem value_number (n : Numeral) (fuel depth : Nat) {rest : List Char} (h : Delimited rest) :
    value fuel depth (writeNumeral n ++ rest) = (rereadNumeral n).map fun j => (j, rest) := by
  rw [← scalar_writeNumeral n h]
  obtain ⟨c, cs, hcs, hc⟩ := writeNumeral_head n
  obtain ⟨hdelim, harray, hobject⟩ := number_head hc
  rw [hcs, cons_append]
  exact value_scalar (isSpace_of_delimiter hdelim) harray hobject fuel depth

mutual

/-- Reading a printed value gives its rereading, and stops where the value ends. -/
theorem value_spell (sp : Spacing) (fuel : Nat) : ∀ (j : Json) (depth level : Nat)
    (rest : List Char), Delimited rest → (spell sp level j).length ≤ fuel →
    value fuel depth (spell sp level j ++ rest) = (reread depth j).map fun v => (v, rest)
  | null, depth, level, rest, _, _ => by
    rw [spell, reread]
    exact value_scalar (by decide) (by decide) (by decide) fuel depth
  | bool b, depth, level, rest, _, _ => by
    rw [spell, reread]
    cases b <;> exact value_scalar (by decide) (by decide) (by decide) fuel depth
  | number n, depth, level, rest, h, _ => by
    rw [spell, reread]
    exact value_number n fuel depth h
  | text s, depth, level, rest, _, _ => by
    rw [spell, reread]
    exact value_text s fuel depth rest
  | array [], depth, level, rest, _, _ => by
    rw [spell]
    cases depth with
    | zero => rfl
    | succ depth => rfl
  | array (j :: js), depth, level, rest, _, hfuel => by
    cases depth with
    | zero => rw [spell]; rfl
    | succ depth =>
      obtain ⟨c, cs, hcs, hc⟩ := spellItems_head sp (level + 1) j js
      rw [spell] at hfuel ⊢
      simp only [List.length_append, length_cons] at hfuel
      have hitems := itemsFrom_spell sp fuel (j :: js) depth (level + 1) fuel (sp.line level) rest
        (by simp) (by omega) (Nat.le_trans (spellItems_length sp (level + 1) (j :: js)) (by omega))
        (sp.line_space level)
      simp only [List.append_assoc, cons_append, nil_append, value]
      rw [skipSpace_cons (by decide)]
      simp only [skipSpace_append (sp.line_space (level + 1)),
        itemsFrom_space (sp.line_space (level + 1)), hitems]
      rw [hcs, List.cons_append, skipSpace_cons (isSpace_of_delimiter hc)]
      split
      · rename_i heq
        cases heq
        exact absurd hc (by decide)
      · rw [reread]
        cases rereadItems depth (j :: js) <;> rfl
  | object [], depth, level, rest, _, _ => by
    rw [spell]
    cases depth with
    | zero => rfl
    | succ depth => rfl
  | object (f :: fs), depth, level, rest, _, hfuel => by
    cases depth with
    | zero => rw [spell]; rfl
    | succ depth =>
      obtain ⟨cs, hcs⟩ := spellFields_head sp (level + 1) f fs
      rw [spell] at hfuel ⊢
      simp only [List.length_append, length_cons] at hfuel
      have hfields := fieldsFrom_spell sp fuel (f :: fs) depth (level + 1) fuel (sp.line level) rest
        (by simp) (by omega) (Nat.le_trans (spellFields_length sp (level + 1) (f :: fs)) (by omega))
        (sp.line_space level)
      simp only [List.append_assoc, cons_append, nil_append, value]
      rw [skipSpace_cons (by decide)]
      simp only [skipSpace_append (sp.line_space (level + 1)),
        fieldsFrom_space (sp.line_space (level + 1)), hfields]
      rw [hcs, List.cons_append, skipSpace_cons (by decide)]
      split
      · rename_i heq
        cases heq
      · rw [reread]
        cases rereadFields depth (f :: fs) <;> rfl

/-- Printed items are read again, one after the other. -/
theorem itemsFrom_spell (sp : Spacing) (fuel : Nat) : ∀ (js : List Json) (depth level n : Nat)
    (ws rest : List Char), js ≠ [] → (spellItems sp level js).length ≤ fuel → js.length ≤ n →
    ws.all isSpace = true →
    itemsFrom (value fuel depth) n (spellItems sp level js ++ (ws ++ ']' :: rest)) =
      (rereadItems depth js).map fun vs => (vs, rest)
  | [], _, _, _, _, _, hne, _, _, _ => absurd rfl hne
  | [j], depth, level, 0, ws, rest, _, _, hn, _ => by simp at hn
  | [j], depth, level, n + 1, ws, rest, _, hfuel, _, hws => by
    rw [spellItems] at hfuel ⊢
    have hvalue := value_spell sp fuel j depth level (ws ++ ']' :: rest)
      (delimited_append hws (delimited_cons (by decide) rest)) hfuel
    rw [itemsFrom, hvalue, rereadItems, rereadItems]
    cases reread depth j with
    | none => rfl
    | some v =>
      simp only [Option.map_some, skipSpace_append hws,
        skipSpace_cons (by decide : isSpace ']' = false)]
      rfl
  | j :: k :: js, depth, level, 0, ws, rest, _, _, hn, _ => by simp at hn
  | j :: k :: js, depth, level, n + 1, ws, rest, _, hfuel, hn, hws => by
    rw [spellItems_cons] at hfuel ⊢
    simp only [List.length_append, length_cons] at hfuel hn
    have hmore := itemsFrom_spell sp fuel (k :: js) depth level n ws rest (by simp) (by omega)
      (by simp only [length_cons]; omega) hws
    have hvalue := value_spell sp fuel j depth level
      (',' :: (sp.line level ++ (spellItems sp level (k :: js) ++ (ws ++ ']' :: rest))))
      (delimited_cons (by decide) _) (by omega)
    simp only [List.append_assoc, cons_append]
    rw [itemsFrom, hvalue, rereadItems]
    cases reread depth j with
    | none => rfl
    | some v =>
      simp only [Option.map_some, skipSpace_cons (by decide : isSpace ',' = false),
        itemsFrom_space (sp.line_space level), hmore]
      cases rereadItems depth (k :: js) <;> rfl

/-- Printed fields are read again, one after the other. -/
theorem fieldsFrom_spell (sp : Spacing) (fuel : Nat) : ∀ (fs : List (String × Json))
    (depth level n : Nat) (ws rest : List Char), fs ≠ [] →
    (spellFields sp level fs).length ≤ fuel → fs.length ≤ n → ws.all isSpace = true →
    fieldsFrom (value fuel depth) n (spellFields sp level fs ++ (ws ++ '}' :: rest)) =
      (rereadFields depth fs).map fun vs => (vs, rest)
  | [], _, _, _, _, _, hne, _, _, _ => absurd rfl hne
  | [(k, v)], depth, level, 0, ws, rest, _, _, hn, _ => by simp at hn
  | [(k, v)], depth, level, n + 1, ws, rest, _, hfuel, _, hws => by
    rw [spellFields] at hfuel ⊢
    simp only [List.length_append, length_cons] at hfuel
    have hvalue := value_spell sp fuel v depth level (ws ++ '}' :: rest)
      (delimited_append hws (delimited_cons (by decide) rest)) (by omega)
    simp only [List.append_assoc, cons_append, quote_append]
    rw [fieldsFrom, skipSpace_cons (by decide)]
    simp only [stringBody_escaped, skipSpace_cons (by decide : isSpace ':' = false),
      value_space sp.gap_space, hvalue]
    rw [rereadFields, rereadFields]
    cases reread depth v with
    | none => rfl
    | some v =>
      simp only [Option.map_some, skipSpace_append hws,
        skipSpace_cons (by decide : isSpace '}' = false), ofList_toList]
      rfl
  | (k, v) :: f :: fs, depth, level, 0, ws, rest, _, _, hn, _ => by simp at hn
  | (k, v) :: f :: fs, depth, level, n + 1, ws, rest, _, hfuel, hn, hws => by
    rw [spellFields_cons] at hfuel ⊢
    simp only [List.length_append, length_cons] at hfuel hn
    have hmore := fieldsFrom_spell sp fuel (f :: fs) depth level n ws rest (by simp) (by omega)
      (by simp only [length_cons]; omega) hws
    have hvalue := value_spell sp fuel v depth level
      (',' :: (sp.line level ++ (spellFields sp level (f :: fs) ++ (ws ++ '}' :: rest))))
      (delimited_cons (by decide) _) (by omega)
    simp only [List.append_assoc, cons_append, quote_append]
    rw [fieldsFrom, skipSpace_cons (by decide)]
    simp only [stringBody_escaped, skipSpace_cons (by decide : isSpace ':' = false),
      value_space sp.gap_space, hvalue]
    rw [rereadFields]
    cases reread depth v with
    | none => rfl
    | some v =>
      simp only [Option.map_some, skipSpace_cons (by decide : isSpace ',' = false),
        fieldsFrom_space (sp.line_space level), hmore, ofList_toList]
      cases rereadFields depth (f :: fs) <;> rfl

end

/-! ## 4. Texts -/

/-- A text that holds one printed value is read as the rereading of that value. -/
theorem parseChars_spell (sp : Spacing) (j : Json) :
    parseChars (spell sp 0 j) = reread maxDepth j := by
  have hvalue := value_spell sp (spell sp 0 j).length j maxDepth 0 [] delimited_nil
    (Nat.le_refl _)
  rw [append_nil] at hvalue
  rw [parseChars, parseHead, hvalue]
  cases reread maxDepth j <;> rfl

theorem parse_pretty (j : Json) : parse j.pretty = reread maxDepth j := by
  rw [parse, pretty, toList_ofList, prettyAt_eq, parseChars_spell]

end CodeAssist.Json
