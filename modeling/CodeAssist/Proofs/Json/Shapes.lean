import CodeAssist.Json.Reader
import CodeAssist.Json.Wire
import CodeAssist.Proofs.Json.Canonical
import CodeAssist.Proofs.Table
import Mathlib.Tactic.Choose

/-!
Printed values read by their shape.

`Yields r depth j out` says what a reader makes of a printed value, whatever white space stands
before it and whatever delimiter after it. There is one lemma for each reader: the free reader
yields the rereading of the value, a reader of strings or of naturals yields the value itself, and
the readers of lists, maps and records yield what their parts yield, put together again.
-/

namespace CodeAssist.Json.Reader

open List Option String

/-- What a reader makes of a printed value. It stops where the value ends. -/
def Yields (r : Reader) (depth : Nat) (j : Json) (out : Option Json) : Prop :=
  ∀ (sp : Spacing) (level : Nat) (ws rest : List Char), ws.all isSpace = true → Delimited rest →
    (r depth (ws ++ (spell sp level j ++ rest))).toOption = out.map fun v => (v, rest)

theorem toOption_bind (x : Except ε α) (f : α → Except ε β) :
    (x >>= f).toOption = x.toOption.bind fun a => (f a).toOption := by
  cases x <;> rfl

theorem skipSpace_before {ws : List Char} (hws : ws.all isSpace = true) (sp : Spacing)
    (level : Nat) (j : Json) (rest : List Char) :
    skipSpace (ws ++ (spell sp level j ++ rest)) = spell sp level j ++ rest := by
  rw [skipSpace_append hws, skipSpace_spell]

/-! ## 1. Scalars -/

theorem free_yields (depth : Nat) (j : Json) : free.Yields depth j (reread depth j) := by
  intro sp level ws rest hws hrest
  have hvalue := value_spell sp (ws ++ (spell sp level j ++ rest)).length j depth level rest hrest
    (by simp only [List.length_append]; omega)
  rw [free, value_space hws, hvalue]
  cases reread depth j <;> rfl

theorem textWith_yields (test : String → Bool) (depth : Nat) (s : String) :
    (textWith test).Yields depth (.text s) (if test s then some (.text s) else none) := by
  intro sp level ws rest hws _
  rw [textWith, skipSpace_before hws, spell, quote_append]
  simp only [stringBody_escaped, ofList_toList]
  split <;> rfl

theorem text_yields (depth : Nat) (s : String) : text.Yields depth (.text s) (some (.text s)) :=
  textWith_yields (fun _ => true) depth s

theorem timestamp_yields (depth : Nat) (s : String) :
    timestamp.Yields depth (.text s)
      (if (Moment.ofText? s).isSome then some (.text s) else none) :=
  textWith_yields _ depth s

/-- A natural yields itself if it has no more bits than asked for. -/
theorem natural_yields {bits : Nat} (hbits : bits ≤ 64) (depth n : Nat) :
    (natural bits).Yields depth (.ofNat n)
      (if n < Nat.pow 2 bits then some (.ofNat n) else none) := by
  intro sp level ws rest hws hrest
  rw [natural, skipSpace_before hws, ofNat, spell, scalar_writeNumeral _ hrest]
  have hmax : Nat.pow 2 bits ≤ Nat.pow 2 64 := Nat.pow_le_pow_right (by decide) hbits
  by_cases hfits : n ≤ maxNatural
  · rw [rereadNumeral_fits hfits]
    simp only [map_some]
    split <;> rfl
  · have hlarge : ¬ n < Nat.pow 2 bits := by
      rw [maxNatural] at hfits
      omega
    rw [if_neg hlarge]
    have hother := rereadNumeral_large (Nat.not_le.1 hfits)
    split
    · rename_i m after hread
      obtain ⟨v, hv, hpair⟩ := map_eq_some_iff.1 hread
      cases hpair
      exact absurd hv (hother m)
    · rfl

theorem nullable_null (item : Reader) (depth : Nat) :
    (nullable item).Yields depth .null (some .null) := by
  intro sp level ws rest hws _
  rw [nullable, skipSpace_before hws]
  rfl

/-- A value that does not start like null goes to the reader of values. -/
theorem nullable_yields {item : Reader} {depth : Nat} {j : Json} {out : Option Json}
    (hitem : item.Yields depth j out)
    (hhead : ∀ sp level, (spell sp level j).head? ≠ some 'n') :
    (nullable item).Yields depth j out := by
  intro sp level ws rest hws hrest
  obtain ⟨c, cs, hcs, -⟩ := spell_head sp level j
  have hc : c ≠ 'n' := by
    intro h
    exact hhead sp level (by rw [hcs, h]; rfl)
  have hread := hitem sp level [] rest rfl hrest
  rw [nullable, skipSpace_before hws]
  rw [nil_append, hcs, cons_append] at hread
  rw [hcs, cons_append]
  split
  · rename_i h
    cases h
    exact absurd rfl hc
  · exact hread

theorem nullable_text (depth : Nat) (s : Option String) :
    (nullable text).Yields depth (Json.ofOption .text s) (some (Json.ofOption .text s)) := by
  cases s with
  | none => exact nullable_null text depth
  | some s =>
    refine nullable_yields (text_yields depth s) fun sp level => ?_
    change ('"' :: _).head? ≠ some 'n'
    rw [head?_cons]
    decide

theorem oneOf_yields {names : List String} {name : String} (h : name ∈ names) (depth : Nat) :
    (oneOf names).Yields depth (.text name) (some (.text name)) := by
  intro sp level ws rest hws _
  rw [oneOf, skipSpace_before hws, spell, quote_append]
  simp only [nameAfterQuote, stringBody_escaped, ofList_toList,
    if_pos (contains_iff_mem.2 h)]
  rfl

/-! ## 2. Lists -/

section Lists

variable {r : Reader} {depth : Nat} {enc : α → Json} {out : α → Option Json}

/-- Printed items are read one after the other up to the closing bracket. -/
theorem items_spell (sp : Spacing) (level : Nat) : ∀ (xs : List α) (n : Nat)
    (before ws rest : List Char), xs ≠ [] → xs.length ≤ n → before.all isSpace = true →
    ws.all isSpace = true → (∀ x ∈ xs, r.Yields depth (enc x) (out x)) →
    (items (r depth) n
      (before ++ (spellItems sp level (xs.map enc) ++ (ws ++ ']' :: rest)))).toOption =
        (xs.mapM out).map fun vs => (vs, rest)
  | [], _, _, _, _, hne, _, _, _, _ => absurd rfl hne
  | x :: xs, 0, _, _, _, _, hn, _, _, _ => by simp at hn
  | [x], n + 1, before, ws, rest, _, _, hbefore, hws, hyields => by
    have hread := hyields x mem_cons_self sp level before (ws ++ ']' :: rest) hbefore
      (delimited_append hws (delimited_cons (by decide) rest))
    rw [items, map_cons, map_nil, spellItems, toOption_bind, hread, mapM_cons,
      mapM_nil]
    cases out x with
    | none => rfl
    | some v =>
      simp only [map_some, bind_some, skipSpace_append hws,
        skipSpace_cons (by decide : isSpace ']' = false)]
      rfl
  | x :: y :: xs, n + 1, before, ws, rest, _, hn, hbefore, hws, hyields => by
    have hread := hyields x mem_cons_self sp level before
      (',' :: (sp.line level ++ (spellItems sp level ((y :: xs).map enc) ++ (ws ++ ']' :: rest))))
      hbefore (delimited_cons (by decide) _)
    have hmore := items_spell sp level (y :: xs) n (sp.line level) ws rest (by simp)
      (by simp only [length_cons] at hn ⊢; omega) (sp.line_space level) hws
      fun z hz => hyields z (mem_cons_of_mem _ hz)
    rw [items, map_cons, map_cons, spellItems_cons, ← map_cons]
    simp only [List.append_assoc, cons_append]
    rw [toOption_bind, hread, mapM_cons]
    cases out x with
    | none => rfl
    | some v =>
      simp only [map_some, bind_some,
        skipSpace_cons (by decide : isSpace ',' = false)]
      rw [toOption_bind, hmore]
      cases (y :: xs).mapM out <;> rfl

/-- A list yields what its items yield. -/
theorem list_yields {xs : List α} (h : ∀ x ∈ xs, r.Yields depth (enc x) (out x)) :
    (list r).Yields (depth + 1) (.array (xs.map enc)) ((xs.mapM out).map .array) := by
  intro sp level ws rest hws hrest
  cases xs with
  | nil =>
    rw [list, skipSpace_before hws, map_nil, spell]
    simp only [cons_append, skipSpace_cons (by decide : isSpace ']' = false)]
    rfl
  | cons x xs =>
    have hlength := spellItems_length sp (level + 1) ((x :: xs).map enc)
    obtain ⟨c, cs, hcs, hc⟩ := spellItems_head sp (level + 1) (enc x) (xs.map enc)
    have hitems := items_spell sp (level + 1) (x :: xs)
      (sp.line (level + 1) ++ (spellItems sp (level + 1) ((x :: xs).map enc) ++
        (sp.line level ++ ']' :: rest))).length
      (sp.line (level + 1)) (sp.line level) rest (by simp)
      (by simp only [List.length_map, List.length_append] at hlength ⊢; omega)
      (sp.line_space _) (sp.line_space _) h
    have hskip : skipSpace (sp.line (level + 1) ++ (spellItems sp (level + 1) ((x :: xs).map enc) ++
        (sp.line level ++ ']' :: rest))) = c :: (cs ++ (sp.line level ++ ']' :: rest)) := by
      rw [skipSpace_append (sp.line_space _), map_cons, hcs, cons_append,
        skipSpace_cons (isSpace_of_delimiter hc)]
    have hclose : c ≠ ']' := by
      rintro rfl
      exact absurd hc (by decide)
    rw [list, skipSpace_before hws, map_cons, spell, ← map_cons]
    simp only [List.append_assoc, cons_append, nil_append, Nat.add_sub_cancel, hskip]
    rw [if_neg (by simp)]
    split
    · rename_i heq
      cases heq
      exact absurd rfl hclose
    · rw [toOption_bind, hitems]
      cases (x :: xs).mapM out <;> rfl

end Lists

/-! ## 3. Maps and records -/

/-- What a reader of fields makes of the text after a key. -/
def FieldYields (field : List Char → Except Refusal (Option Json × List Char)) (j : Json)
    (out : Option Json) : Prop :=
  ∀ (sp : Spacing) (level : Nat) (rest : List Char), Delimited rest →
    (field (':' :: (sp.gap ++ (spell sp level j ++ rest)))).toOption =
      out.map fun v => (some v, rest)

theorem FieldYields.of_reader {r : Reader} {depth : Nat} {j : Json} {out : Option Json}
    (h : r.Yields depth j out) :
    FieldYields (fun cs => do
      let (j, after) ← r depth (← afterChar ':' cs)
      return (some j, after)) j out := by
  intro sp level rest hrest
  have hread := h sp level sp.gap rest sp.gap_space hrest
  simp only [afterChar, skipSpace_cons (by decide : isSpace ':' = false), beq_self_eq_true,
    if_true, toOption_bind]
  change ((r depth (sp.gap ++ (spell sp level j ++ rest))).toOption.bind _) = _
  rw [hread]
  cases out <;> rfl

theorem key_spell {ws : List Char} (hws : ws.all isSpace = true) (k : String)
    (rest : List Char) : key (ws ++ (quote k ++ rest)) = .ok (k, rest) := by
  rw [key, skipSpace_append hws, quote_append, skipSpace_cons (by decide)]
  simp only [stringBody_escaped, ofList_toList]

section Fields

variable (field : String → List String → List Char → Except Refusal (Option Json × List Char))
  (name : α → String) (enc : α → Json) (out : α → Option Json)

/-- Fields are read one after the other, each with the names before it, the last of them first. -/
theorem fields_spell (sp : Spacing) (level : Nat) : ∀ (xs : List α) (n : Nat)
    (earlier : List String) (before ws rest : List Char), xs ≠ [] → xs.length ≤ n →
    before.all isSpace = true → ws.all isSpace = true →
    (∀ done x more, xs = done ++ x :: more →
      FieldYields (field (name x) ((done.map name).reverse ++ earlier)) (enc x) (out x)) →
    (fields field n earlier
      (before ++ (spellFields sp level (xs.map fun x => (name x, enc x)) ++
        (ws ++ '}' :: rest)))).toOption =
        (xs.mapM fun x => (out x).map fun v => (name x, v)).map fun vs => (vs, '}' :: rest)
  | [], _, _, _, _, _, hne, _, _, _, _ => absurd rfl hne
  | x :: xs, 0, _, _, _, _, _, hn, _, _, _ => by simp at hn
  | [x], n + 1, earlier, before, ws, rest, _, _, hbefore, hws, hyields => by
    have hread := hyields [] x [] rfl sp level (ws ++ '}' :: rest)
      (delimited_append hws (delimited_cons (by decide) rest))
    rw [map_nil, reverse_nil, nil_append] at hread
    rw [fields, map_cons, map_nil, spellFields]
    simp only [List.append_assoc, cons_append]
    rw [key_spell hbefore, toOption_bind]
    change ((field (name x) earlier _ >>= _).toOption) = _
    rw [toOption_bind, hread, mapM_cons, mapM_nil]
    cases out x with
    | none => rfl
    | some v =>
      simp only [map_some, bind_some, skipSpace_append hws,
        skipSpace_cons (by decide : isSpace '}' = false)]
      rfl
  | x :: y :: xs, n + 1, earlier, before, ws, rest, _, hn, hbefore, hws, hyields => by
    have hread := hyields [] x (y :: xs) rfl sp level
      (',' :: (sp.line level ++ (spellFields sp level ((y :: xs).map fun x => (name x, enc x)) ++
        (ws ++ '}' :: rest)))) (delimited_cons (by decide) _)
    rw [map_nil, reverse_nil, nil_append] at hread
    have hmore := fields_spell sp level (y :: xs) n (name x :: earlier) (sp.line level) ws rest
      (by simp) (by simp only [length_cons] at hn ⊢; omega) (sp.line_space level) hws
      (fun done z more hsplit => by
        have := hyields (x :: done) z more (by rw [hsplit]; rfl)
        rwa [map_cons, reverse_cons, List.append_assoc] at this)
    rw [map_cons] at hread hmore
    rw [fields, map_cons, map_cons, spellFields_cons]
    simp only [List.append_assoc, cons_append]
    rw [key_spell hbefore, toOption_bind]
    change ((field (name x) earlier _ >>= _).toOption) = _
    rw [toOption_bind, hread, mapM_cons]
    cases out x with
    | none => rfl
    | some v =>
      simp only [map_some, bind_some,
        skipSpace_cons (by decide : isSpace ',' = false)]
      rw [toOption_bind, hmore]
      cases (y :: xs).mapM fun x => (out x).map fun v => (name x, v) <;> rfl

end Fields

/-- The text of an object with fields, from behind its opening brace. -/
theorem spell_object (sp : Spacing) (level : Nat) (f : String × Json) (fs : List (String × Json))
    (rest : List Char) :
    spell sp level (.object (f :: fs)) ++ rest =
      '{' :: (sp.line (level + 1) ++ (spellFields sp (level + 1) (f :: fs) ++
        (sp.line level ++ '}' :: rest))) := by
  rw [spell]
  simp

theorem skipSpace_fields (sp : Spacing) (level : Nat) (f : String × Json)
    (fs : List (String × Json)) (rest : List Char) :
    ∃ cs, skipSpace (sp.line level ++ (spellFields sp level (f :: fs) ++ rest)) = '"' :: cs := by
  obtain ⟨cs, hcs⟩ := spellFields_head sp level f fs
  exact ⟨cs ++ rest, by
    rw [skipSpace_append (sp.line_space level), hcs, cons_append, skipSpace_cons (by decide)]⟩

theorem afterChar_self {c : Char} (hc : isSpace c = false) (rest : List Char) :
    afterChar c (c :: rest) = .ok rest := by
  rw [afterChar, skipSpace_cons hc]
  simp

/-- A map yields what its values yield, under their keys. -/
theorem map_yields {r : Reader} {depth : Nat} {enc : α → Json} {xs : List (String × α)}
    {out : String × α → Option Json} (h : ∀ x ∈ xs, r.Yields depth (enc x.2) (out x)) :
    (map r).Yields (depth + 1) (.object (xs.map fun x => (x.1, enc x.2)))
      ((xs.mapM fun x => (out x).map fun v => (x.1, v)).map .object) := by
  intro sp level ws rest hws hrest
  cases xs with
  | nil =>
    rw [map, skipSpace_before hws, map_nil, spell]
    simp only [cons_append, skipSpace_cons (by decide : isSpace '}' = false)]
    rfl
  | cons x xs =>
    have hlength := spellFields_length sp (level + 1) ((x :: xs).map fun x => (x.1, enc x.2))
    obtain ⟨cs, hcs⟩ := skipSpace_fields sp (level + 1) (x.1, enc x.2)
      (xs.map fun x => (x.1, enc x.2)) (sp.line level ++ '}' :: rest)
    have hfields := fields_spell (fun _ _ cs => do
        let read ← r depth (← afterChar ':' cs)
        return (some read.1, read.2)) (·.1) (fun x => enc x.2) out sp (level + 1)
      (x :: xs)
      (sp.line (level + 1) ++ (spellFields sp (level + 1) ((x :: xs).map fun x => (x.1, enc x.2)) ++
        (sp.line level ++ '}' :: rest))).length
      [] (sp.line (level + 1)) (sp.line level) rest (by simp)
      (by simp only [List.length_map, List.length_append] at hlength ⊢; omega)
      (sp.line_space _) (sp.line_space _)
      (fun done z more hsplit => .of_reader (h z (by rw [hsplit]; simp)))
    rw [map_cons] at hfields
    rw [map, skipSpace_before hws, map_cons, spell_object]
    simp only [hcs, Nat.add_sub_cancel]
    rw [if_neg (by simp)]
    split
    · rename_i heq
      exact absurd heq (by simp)
    · rw [toOption_bind, hfields]
      cases (x :: xs).mapM fun x => (out x).map fun v => (x.1, v) with
      | none => rfl
      | some vs =>
        simp only [map_some, bind_some,
          afterChar_self (by decide : isSpace '}' = false)]
        rfl

/-- A field of a record with the value that is printed for it and what its reader makes of
that. -/
structure Printed (depth : Nat) where
  field : Field
  value : Json
  out : Option Json
  yields : field.reader.Yields depth value out

def Printed.entry (p : Printed depth) : String × Json :=
  (p.field.name, p.value)

def Printed.read (p : Printed depth) : Option (String × Json) :=
  p.out.map fun v => (p.field.name, v)

@[simp]
theorem Printed.read_eq (p : Printed depth) :
    p.read = p.out.map fun v => (p.field.name, v) :=
  rfl

@[simp]
theorem required_name (name : String) (r : Reader) : (required name r).name = name :=
  rfl

@[simp]
theorem optional_name (name : String) (r : Reader) : (optional name r).name = name :=
  rfl

@[simp]
theorem asText?_text (s : String) : (Json.text s).asText? = some s :=
  rfl

theorem find_field {ps : List (Printed depth)} (hnodup : (ps.map (·.field.name)).Nodup)
    {p : Printed depth} (hp : p ∈ ps) :
    ((ps.map (·.field)).find? fun f => f.name == p.field.name) = some p.field := by
  induction ps with
  | nil => cases hp
  | cons q ps ih =>
    rw [map_cons, nodup_cons] at hnodup
    rw [map_cons, find?_cons]
    rcases mem_cons.1 hp with rfl | hmem
    · rw [beq_self_eq_true]
    · have hne : (q.field.name == p.field.name) = false := by
        rw [beq_eq_false_iff_ne]
        intro heq
        exact hnodup.1 (heq ▸ mem_map_of_mem hmem)
      rw [hne]
      exact ih hnodup.2 hmem

theorem knownField_yields {known : List Field} {depth : Nat} {p : Printed depth}
    (hfind : (known.find? fun f => f.name == p.field.name) = some p.field)
    {earlier : List String} (hnew : p.field.name ∉ earlier) :
    FieldYields (knownField known depth p.field.name earlier) p.value p.out := by
  intro sp level rest hrest
  have hcontains : earlier.contains p.field.name = false := by
    rw [Bool.eq_false_iff]
    exact fun hmem => hnew (contains_iff_mem.1 hmem)
  rw [knownField, hfind]
  simp only [hcontains, Bool.false_eq_true, if_false]
  exact FieldYields.of_reader p.yields sp level rest hrest

theorem lookup_isSome {fs : List (String × Json)} {key : String} (h : key ∈ fs.map (·.1)) :
    (lookup key fs).isSome = true := by
  induction fs with
  | nil => cases h
  | cons f rest ih =>
    obtain ⟨k, v⟩ := f
    rw [lookup]
    by_cases hk : (k == key) = true
    · rw [if_pos hk]
      rfl
    · rw [if_neg hk]
      rcases mem_cons.1 h with rfl | hrest
      · exact absurd (beq_self_eq_true _) hk
      · exact ih hrest

theorem mapM_read_keys {ps : List (Printed depth)} {vs : List (String × Json)}
    (h : ps.mapM Printed.read = some vs) : vs.map (·.1) = ps.map (·.field.name) := by
  induction ps generalizing vs with
  | nil =>
    rw [mapM_nil] at h
    cases h
    rfl
  | cons p ps ih =>
    rw [mapM_cons, Printed.read] at h
    cases hout : p.out with
    | none => rw [hout] at h; cases h
    | some v =>
      rw [hout] at h
      cases hmore : ps.mapM Printed.read with
      | none => rw [hmore] at h; cases h
      | some more =>
        rw [hmore] at h
        cases h
        rw [map_cons, map_cons, ih hmore]

/-- A record yields what its fields yield, under their names. -/
theorem record_yields {depth : Nat} (ps : List (Printed depth)) (hne : ps ≠ [])
    (hnodup : (ps.map (·.field.name)).Nodup) :
    (record (ps.map (·.field))).Yields (depth + 1) (.object (ps.map Printed.entry))
      ((ps.mapM Printed.read).map .object) := by
  intro sp level ws rest hws hrest
  cases ps with
  | nil => exact absurd rfl hne
  | cons p ps =>
    have hlength := spellFields_length sp (level + 1) ((p :: ps).map Printed.entry)
    obtain ⟨cs, hcs⟩ := skipSpace_fields sp (level + 1) p.entry (ps.map Printed.entry)
      (sp.line level ++ '}' :: rest)
    have hfields := fields_spell (knownField ((p :: ps).map (·.field)) depth) (·.field.name)
      (·.value) (·.out) sp (level + 1) (p :: ps)
      (sp.line (level + 1) ++ (spellFields sp (level + 1) ((p :: ps).map Printed.entry) ++
        (sp.line level ++ '}' :: rest))).length
      [] (sp.line (level + 1)) (sp.line level) rest (by simp)
      (by simp only [List.length_map, List.length_append] at hlength ⊢; omega)
      (sp.line_space _) (sp.line_space _)
      (fun done q more hsplit => by
        have hq : q ∈ p :: ps := by rw [hsplit]; simp
        refine knownField_yields (find_field hnodup hq) ?_
        rw [hsplit, map_append, map_cons] at hnodup
        rw [append_nil, mem_reverse]
        exact fun hmem => (nodup_append.1 hnodup).2.2 _ hmem _ mem_cons_self rfl)
    change (fields _ _ _ (_ ++ (spellFields sp (level + 1) ((p :: ps).map Printed.entry) ++
      _))).toOption = ((p :: ps).mapM Printed.read).map _ at hfields
    rw [map_cons (f := Printed.entry)] at hfields hlength
    rw [record, skipSpace_before hws, map_cons (f := Printed.entry), spell_object]
    simp only [hcs, Nat.add_sub_cancel]
    rw [if_neg (by simp)]
    split
    · rename_i heq
      exact absurd heq (by simp)
    rw [toOption_bind, hfields]
    cases hfound : (p :: ps).mapM Printed.read with
    | none => rfl
    | some found =>
      have hkeys := mapM_read_keys hfound
      have hmissing : (((p :: ps).map (·.field)).any fun f =>
          f.needed == .always && (lookup f.name found).isNone) = false := by
        rw [List.any_eq_false]
        intro f hf
        obtain ⟨q, hq, rfl⟩ := mem_map.1 hf
        have hsome := lookup_isSome (hkeys ▸ mem_map_of_mem hq)
        rw [isNone_eq_false_iff.2 hsome]
        simp
      simp only [map_some, bind_some, hmissing, Bool.false_eq_true, if_false,
        afterChar_self (by decide : isSpace '}' = false)]
      rfl

/-! ## 4. Decoding -/

/-- What a printed value is understood as when it is read by its shape. -/
def Decodes (r : Reader) (item : Json → Option α) (depth : Nat) (j : Json) (a : Option α) :
    Prop :=
  ∃ out, r.Yields depth j out ∧ out.bind item = a

theorem Decodes.yields_some {r : Reader} {item : Json → Option α} {depth : Nat} {j : Json} {a : α}
    (h : r.Decodes item depth j (some a)) :
    ∃ v, r.Yields depth j (some v) ∧ item v = some a := by
  obtain ⟨out, hyields, hitem⟩ := h
  obtain ⟨v, rfl, hv⟩ := bind_eq_some_iff.1 hitem
  exact ⟨v, hyields, hv⟩

theorem Decodes.decode_spell {r : Reader} {item : Json → Option α} {j : Json} {a : Option α}
    (h : r.Decodes item maxDepth j a) (sp : Spacing) :
    (decode r item (spell sp 0 j)).toOption = a := by
  obtain ⟨out, hyields, rfl⟩ := h
  have hread := hyields sp 0 [] [] rfl delimited_nil
  rw [nil_append, append_nil] at hread
  rw [decode, toOption_bind, hread]
  cases out with
  | none => rfl
  | some v =>
    simp only [map_some, bind_some, skipSpace_nil]
    cases item v with
    | none => rfl
    | some a => rfl

theorem readItems_eq_mapM (item : Json → Option α) (js : List Json) :
    readItems item js = js.mapM item := by
  induction js with
  | nil => rfl
  | cons j rest ih =>
    rw [readItems, ih, mapM_cons]

/-- Reading in two passes is reading each item in two passes, as far as it succeeds. -/
theorem mapM_bind_mapM (f : α → Option β) (g : β → Option γ) (xs : List α) :
    ((xs.mapM f).bind fun ys => ys.mapM g) = xs.mapM fun x => (f x).bind g := by
  induction xs with
  | nil => rfl
  | cons x rest ih =>
    rw [mapM_cons, mapM_cons, ← ih]
    cases f x with
    | none => rfl
    | some y =>
      cases rest.mapM f with
      | none =>
        simp only [bind_eq_bind, bind_some, bind_none]
        cases g y <;> rfl
      | some ys =>
        simp only [bind_eq_bind, bind_some, Option.pure_def]
        rw [mapM_cons]
        rfl

theorem mapM_congr {f g : α → Option β} {xs : List α} (h : ∀ x ∈ xs, f x = g x) :
    xs.mapM f = xs.mapM g := by
  induction xs with
  | nil => rfl
  | cons x rest ih =>
    rw [mapM_cons, mapM_cons, h x mem_cons_self,
      ih fun y hy => h y (mem_cons_of_mem _ hy)]

theorem list_decodes {r : Reader} {item : Json → Option α} {depth : Nat} {enc : β → Json}
    {dec : β → Option α} {xs : List β}
    (h : ∀ x ∈ xs, r.Decodes item depth (enc x) (dec x)) :
    (list r).Decodes (Json.asList? item) (depth + 1) (.array (xs.map enc)) (xs.mapM dec) := by
  choose! out hyields hitem using h
  refine ⟨_, list_yields hyields, ?_⟩
  rw [← mapM_congr hitem, ← mapM_bind_mapM]
  cases xs.mapM out with
  | none => rfl
  | some vs => exact readItems_eq_mapM item vs

theorem readEntries_eq (item : Json → Option α) (fs : List (String × Json)) (done : Table α) :
    readEntries item done fs =
      (fs.mapM fun f => (item f.2).map fun a => (f.1, a)).map done.putAll := by
  induction fs generalizing done with
  | nil => rfl
  | cons f rest ih =>
    rw [readEntries, mapM_cons]
    cases item f.2 with
    | none => rfl
    | some a =>
      simp only [bind_eq_bind, bind_some, map_some, ih]
      cases rest.mapM fun f => (item f.2).map fun a => (f.1, a) <;> rfl

theorem map_decodes {r : Reader} {item : Json → Option α} {depth : Nat} (enc : β → Json)
    (dec : β → Option α) {t : Table β}
    (h : ∀ x ∈ t.entries, r.Decodes item depth (enc x.2) (dec x.2)) :
    (map r).Decodes (Json.asTable? item) (depth + 1) (Json.ofTable enc t) (t.traverse? dec) := by
  choose! out hyields hitem using h
  refine ⟨_, map_yields hyields, ?_⟩
  have htwice : ∀ x ∈ t.entries, ((out x).map fun v => (x.1, v)).bind
      (fun f => (item f.2).map fun a => (f.1, a)) = (dec x.2).map fun a => (x.1, a) := by
    intro x hx
    rw [← hitem x hx]
    cases out x <;> rfl
  rw [Table.traverse?, ← mapM_congr htwice, ← mapM_bind_mapM]
  cases t.entries.mapM fun x => (out x).map fun v => (x.1, v) with
  | none => rfl
  | some fs => exact readEntries_eq item fs .empty

end CodeAssist.Json.Reader
