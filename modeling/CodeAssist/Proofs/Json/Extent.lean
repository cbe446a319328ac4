import CodeAssist.Proofs.Json.Spelling

/-!
How far reading goes.

A text that is read as a value splits into the part that the value takes and the rest. Here is what
that part looks like and that it is taken alike before any other text.

A scalar has to be followed by a delimiter, for a number could go on otherwise. A container ends
with its own bracket, so anything may follow it. In both the part that is taken is `Closed`: each
string in it ends, and outside strings every brace has its partner.
-/

namespace CodeAssist.Json

open List Option

open Text (isAsciiDigit)

variable {negative : Bool} {c a b x y opening closing : Char} {xs ys s : List Char} {n : Nat}

/-! ## 1. Closed texts -/

/-- The inside of a string: no quote in it but behind a backslash, which shields one character. -/
inductive Quoted : List Char → Prop
  | nil : Quoted []
  | plain {c : Char} {cs : List Char} (hquote : c ≠ '"') (hslash : c ≠ '\\') (h : Quoted cs) :
    Quoted (c :: cs)
  | shielded (c : Char) {cs : List Char} (h : Quoted cs) : Quoted ('\\' :: c :: cs)

/-- A character that neither opens nor closes anything, brackets of arrays included. -/
def isPlain (c : Char) : Bool :=
  c != '"' && c != '{' && c != '}'

/-- A text whose strings end and whose braces match. -/
inductive Closed : List Char → Prop
  | nil : Closed []
  | plain {c : Char} {cs : List Char} (hc : isPlain c = true) (h : Closed cs) : Closed (c :: cs)
  | string {body cs : List Char} (hbody : Quoted body) (h : Closed cs) :
    Closed ('"' :: (body ++ '"' :: cs))
  | braces {inner cs : List Char} (hinner : Closed inner) (h : Closed cs) :
    Closed ('{' :: (inner ++ '}' :: cs))

theorem Quoted.append (hx : Quoted xs) (hy : Quoted ys) :
    Quoted (xs ++ ys) := by
  induction hx with
  | nil => exact hy
  | plain hquote hslash _ ih => exact .plain hquote hslash ih
  | shielded c _ ih => exact .shielded c ih

theorem Closed.append (hx : Closed xs) (hy : Closed ys) :
    Closed (xs ++ ys) := by
  induction hx with
  | nil => exact hy
  | plain hc _ ih => exact .plain hc ih
  | string hbody _ ih =>
    rw [cons_append, append_assoc, cons_append]
    exact .string hbody ih
  | braces hinner _ _ ih =>
    rw [cons_append, append_assoc, cons_append]
    exact .braces hinner ih

theorem closed_of_plain {cs : List Char} (h : ∀ c ∈ cs, isPlain c = true) : Closed cs := by
  induction cs with
  | nil => exact .nil
  | cons c cs ih =>
    exact .plain (h c mem_cons_self) (ih fun d hd => h d (mem_cons_of_mem _ hd))

theorem closed_space {ws : List Char} (h : ws.all isSpace = true) : Closed ws := by
  refine closed_of_plain fun c hc => ?_
  have hspace := all_eq_true.1 h c hc
  simp only [isSpace, Bool.or_eq_true, beq_iff_eq] at hspace
  rcases hspace with ((rfl | rfl) | rfl) | rfl <;> decide

/-! ## 2. Strings -/

/-- What stands before and behind the closing quote of a string that was read from behind its
opening one. -/
def StringExtent (cs s rest : List Char) : Prop :=
  ∃ body, cs = body ++ '"' :: rest ∧ Quoted body ∧
    ∀ other, stringBody (body ++ '"' :: other) = some (s, other)

/-- One character of a string more, written in one of the ways there are. -/
theorem StringExtent.more {u : List Char} {more rest : List Char} (hu : Quoted u)
    (hread : ∀ other, stringBody (u ++ other) =
      (stringBody other).map fun (s, after) => (c :: s, after))
    (ih : ∀ {s rest}, stringBody more = some (s, rest) → StringExtent more s rest)
    (h : ((stringBody more).map fun (s, after) => (c :: s, after)) = some (s, rest)) :
    StringExtent (u ++ more) s rest := by
  obtain ⟨⟨s', rest'⟩, hmore, hpair⟩ := map_eq_some_iff.1 h
  cases hpair
  obtain ⟨body, rfl, hbody, hall⟩ := ih hmore
  refine ⟨u ++ body, (append_assoc ..).symm, hu.append hbody, fun other => ?_⟩
  rw [append_assoc, hread, hall]
  rfl

theorem hexValue_plain (h : hexValue c = some n) : c ≠ '"' ∧ c ≠ '\\' := by
  have hquote : hexValue '"' = none := by decide
  have hslash : hexValue '\\' = none := by decide
  refine ⟨?_, ?_⟩ <;> rintro rfl
  · rw [hquote] at h
    cases h
  · rw [hslash] at h
    cases h

theorem quoted_hex (h : hexValue4 a b x y = some n) :
    Quoted ['\\', 'u', a, b, x, y] := by
  simp only [hexValue4, bind_eq_bind, bind_eq_some_iff] at h
  obtain ⟨_, ha, _, hb, _, hx, _, hy, -⟩ := h
  exact .shielded 'u' (.plain (hexValue_plain ha).1 (hexValue_plain ha).2
    (.plain (hexValue_plain hb).1 (hexValue_plain hb).2
      (.plain (hexValue_plain hx).1 (hexValue_plain hx).2
        (.plain (hexValue_plain hy).1 (hexValue_plain hy).2 .nil))))

theorem stringBody_pair {a' b' x' y' : Char} {high low : Nat} (h : hexValue4 a b x y = some high)
    (hhigh : isHighSurrogate high = true) (h' : hexValue4 a' b' x' y' = some low)
    (hlow : isLowSurrogate low = true) (rest : List Char) :
    stringBody ('\\' :: 'u' :: a :: b :: x :: y :: '\\' :: 'u' :: a' :: b' :: x' :: y' :: rest) =
      (stringBody rest).map fun (s, after) => (pairChar high low :: s, after) := by
  rw [stringBody.eq_def]
  simp [h, hhigh, h', hlow]

/-- How far a string reaches. -/
theorem stringBody_extent {cs rest : List Char} (h : stringBody cs = some (s, rest)) :
    StringExtent cs s rest := by
  -- the cases that fail have nothing to show
  fun_induction stringBody cs generalizing s rest <;> try cases h
  case case2 c rest hquote =>
    obtain rfl := beq_iff_eq.1 hquote
    exact ⟨[], rfl, .nil, stringBody_quote⟩
  case case6 c hquote hslash e he a b x y high hhex hhigh a' b' x' y' more low hhex' hlow ih =>
    obtain rfl := beq_iff_eq.1 hslash
    obtain rfl := beq_iff_eq.1 he
    exact .more (u := ['\\', 'u', a, b, x, y, '\\', 'u', a', b', x', y'])
      ((quoted_hex hhex).append (quoted_hex hhex')) (stringBody_pair hhex hhigh hhex' hlow) ih h
  case case10 c hquote hslash e he a b x y more unit hhex hhigh hlow ih =>
    obtain rfl := beq_iff_eq.1 hslash
    obtain rfl := beq_iff_eq.1 he
    exact .more (u := ['\\', 'u', a, b, x, y]) (quoted_hex hhex)
      (stringBody_unicode hhex (Bool.eq_false_iff.2 hhigh) (Bool.eq_false_iff.2 hlow)) ih h
  case case13 c hquote hslash e more he ch hch ih =>
    obtain rfl := beq_iff_eq.1 hslash
    exact .more (u := ['\\', e]) (.shielded e .nil)
      (stringBody_simple (Bool.eq_false_iff.2 he) hch) ih h
  case case15 c more hquote hslash hcontrol ih =>
    exact .more (u := [c]) (.plain (by simpa using hquote) (by simpa using hslash) .nil)
      (stringBody_plain (Bool.eq_false_iff.2 hquote) (Bool.eq_false_iff.2 hslash) hcontrol) ih h

/-! ## 3. Numbers -/

def isNumberChar (c : Char) : Bool :=
  isAsciiDigit c || c == '.' || c == 'e' || c == 'E' || c == '+' || c == '-'

theorem isPlain_numberChar (h : isNumberChar c = true) : isPlain c = true := by
  rw [isPlain, Bool.and_eq_true, Bool.and_eq_true, bne_iff_ne, bne_iff_ne, bne_iff_ne]
  refine ⟨⟨?_, ?_⟩, ?_⟩ <;> rintro rfl <;> exact absurd h (by decide)

/-- A part of a number takes characters of numbers. -/
def TakesNumberChars (read : List Char → Option (α × List Char)) : Prop :=
  ∀ {cs a rest}, read cs = some (a, rest) → ∃ used, cs = used ++ rest ∧ used.all isNumberChar = true

/-- A part of a number ends before a delimiter, if it does not end earlier. -/
def StopsAtDelimiter (read : List Char → Option (α × List Char)) : Prop :=
  ∀ cs {rest}, Delimited rest →
    read (cs ++ rest) = (read cs).map fun (a, left) => (a, left ++ rest)

theorem all_digits_takeWhile (cs : List Char) :
    (cs.takeWhile isAsciiDigit).all isNumberChar = true := by
  refine all_eq_true.2 fun c hc => ?_
  rw [isNumberChar, all_eq_true.1 all_takeWhile c hc]
  rfl

theorem wholePart_takes : TakesNumberChars wholePart := by
  intro cs ds rest h
  cases cs with
  | nil => cases h
  | cons c cs =>
    rw [wholePart] at h
    split at h
    · rename_i hzero
      obtain rfl := beq_iff_eq.1 hzero
      split at h <;> cases h
      exact ⟨['0'], rfl, by decide⟩
    · split at h <;> cases h
      rename_i hdigit
      refine ⟨c :: cs.takeWhile isAsciiDigit, ?_, ?_⟩
      · rw [cons_append, takeWhile_append_dropWhile]
      · rw [all_cons, all_digits_takeWhile, isNumberChar, hdigit]
        rfl

theorem wholePart_stops : StopsAtDelimiter wholePart := by
  intro cs rest h
  cases cs with
  | nil =>
    cases rest with
    | nil => rfl
    | cons c rest =>
      have hdigit := isDelimiter_digit (h c rfl)
      have hzero : (c == '0') = false := by
        rw [beq_eq_false_iff_ne]
        rintro rfl
        cases hdigit
      simp only [nil_append, wholePart, hzero, hdigit, Bool.false_eq_true, if_false,
        map_none]
  | cons c cs =>
    have hhead : (cs ++ rest).head?.any isAsciiDigit = cs.head?.any isAsciiDigit := by
      cases cs with
      | nil => exact h.noDigit
      | cons d cs => rfl
    simp only [cons_append, wholePart, hhead, span_append cs h.noDigit]
    split
    · split <;> rfl
    · split <;> rfl

theorem fraction_takes : TakesNumberChars fraction := by
  intro cs ds rest h
  rw [fraction.eq_def] at h
  split at h
  · rename_i more
    simp only at h
    split at h <;> cases h
    refine ⟨'.' :: more.takeWhile isAsciiDigit, ?_, ?_⟩
    · rw [cons_append, takeWhile_append_dropWhile]
    · rw [all_cons, all_digits_takeWhile]
      rfl
  · cases h
    exact ⟨[], rfl, rfl⟩

theorem fraction_plain {cs : List Char} (h : ∀ rest, cs ≠ '.' :: rest) :
    fraction cs = some (none, cs) := by
  rw [fraction.eq_def]
  split
  · exact absurd rfl (h _)
  · rfl

theorem fraction_stops : StopsAtDelimiter fraction := by
  intro cs rest h
  by_cases hpoint : ∃ more, cs = '.' :: more
  · obtain ⟨more, rfl⟩ := hpoint
    simp only [cons_append, fraction, span_append more h.noDigit]
    split <;> rfl
  · have hcs : ∀ more, cs ≠ '.' :: more := fun more heq => hpoint ⟨more, heq⟩
    rw [fraction_plain hcs, fraction_plain]
    · rfl
    · intro more heq
      cases cs with
      | nil =>
        rw [nil_append] at heq
        exact isDelimiter_ne (h '.' (by rw [heq]; rfl)) (by decide) rfl
      | cons c cs =>
        cases heq
        exact hcs cs rfl

theorem exponentDigits_takes (negative : Bool) : TakesNumberChars (exponentDigits negative) := by
  intro cs e rest h
  simp only [exponentDigits] at h
  split at h <;> cases h
  exact ⟨cs.takeWhile isAsciiDigit, takeWhile_append_dropWhile.symm, all_digits_takeWhile cs⟩

theorem exponentDigits_stops (negative : Bool) : StopsAtDelimiter (exponentDigits negative) := by
  intro cs rest h
  simp only [exponentDigits, span_append cs h.noDigit]
  split <;> rfl

/-- Whether an exponent is negative, and its digits. -/
def exponentSign : List Char → Bool × List Char
  | '-' :: more => (true, more)
  | '+' :: more => (false, more)
  | cs => (false, cs)

theorem exponentSign_takes (cs : List Char) :
    ∃ used, cs = used ++ (exponentSign cs).2 ∧ used.all isNumberChar = true := by
  unfold exponentSign
  split
  · exact ⟨['-'], rfl, rfl⟩
  · exact ⟨['+'], rfl, rfl⟩
  · exact ⟨[], rfl, rfl⟩

theorem exponentSign_unsigned {cs : List Char} (hminus : ∀ more, cs ≠ '-' :: more)
    (hplus : ∀ more, cs ≠ '+' :: more) : exponentSign cs = (false, cs) := by
  unfold exponentSign
  split
  · exact absurd rfl (hminus _)
  · exact absurd rfl (hplus _)
  · rfl

theorem exponentSign_stops (cs : List Char) {rest : List Char} (h : Delimited rest) :
    exponentSign (cs ++ rest) = ((exponentSign cs).1, (exponentSign cs).2 ++ rest) := by
  cases cs with
  | nil =>
    refine exponentSign_unsigned (fun more heq => ?_) fun more heq => ?_
    all_goals exact isDelimiter_ne (h _ (by rw [← nil_append rest, heq]; rfl)) (by decide) rfl
  | cons c cs =>
    by_cases hminus : c = '-'
    · rw [hminus]
      rfl
    by_cases hplus : c = '+'
    · rw [hplus]
      rfl
    rw [exponentSign_unsigned, exponentSign_unsigned]
    all_goals
      rintro more ⟨⟩
      contradiction

theorem exponentPart_mark (hc : c = 'e' ∨ c = 'E') (cs : List Char) :
    exponentPart (c :: cs) = exponentDigits (exponentSign cs).1 (exponentSign cs).2 := by
  have hmark : (c == 'e' || c == 'E') = true := by simpa using hc
  unfold exponentPart
  simp only [hmark, if_true]
  split
  · rfl
  · rfl
  · rename_i hminus hplus
    rw [exponentSign_unsigned hminus hplus]

theorem exponentPart_plain {cs : List Char} (h : ∀ c ∈ cs.head?, ¬(c = 'e' ∨ c = 'E')) :
    exponentPart cs = some (none, cs) := by
  cases cs with
  | nil => rfl
  | cons c cs =>
    have hmark : (c == 'e' || c == 'E') = false := by simpa using h c rfl
    simp [exponentPart, hmark]

theorem exponentPart_takes : TakesNumberChars exponentPart := by
  intro cs e rest h
  by_cases hmark : ∃ c more, cs = c :: more ∧ (c = 'e' ∨ c = 'E')
  · obtain ⟨c, more, rfl, hc⟩ := hmark
    rw [exponentPart_mark hc] at h
    obtain ⟨sign, hsign, hsigned⟩ := exponentSign_takes more
    obtain ⟨digits, hdigits, hall⟩ := exponentDigits_takes _ h
    refine ⟨c :: (sign ++ digits), ?_, ?_⟩
    · rw [cons_append, append_assoc, ← hdigits, ← hsign]
    · rw [all_cons, all_append, hsigned, hall]
      rcases hc with rfl | rfl <;> rfl
  · rw [exponentPart_plain fun c hc hce => ?_] at h
    · cases h
      exact ⟨[], rfl, rfl⟩
    · cases cs with
      | nil => cases hc
      | cons d cs =>
        cases hc
        exact hmark ⟨_, _, rfl, hce⟩

theorem exponentPart_stops : StopsAtDelimiter exponentPart := by
  intro cs rest h
  have hrest : ∀ c ∈ rest.head?, ¬(c = 'e' ∨ c = 'E') := by
    rintro c hc (rfl | rfl)
    · exact isDelimiter_ne (h _ hc) (by decide) rfl
    · exact isDelimiter_ne (h _ hc) (by decide) rfl
  cases cs with
  | nil => exact exponentPart_plain hrest
  | cons c cs =>
    by_cases hc : c = 'e' ∨ c = 'E'
    · rw [cons_append, exponentPart_mark hc, exponentPart_mark hc, exponentSign_stops cs h]
      exact exponentDigits_stops _ _ h
    · rw [exponentPart_plain, exponentPart_plain]
      · rfl
      all_goals
        rintro d ⟨⟩
        exact hc

theorem unsignedNumber_takes (negative : Bool) : TakesNumberChars (unsignedNumber negative) := by
  intro cs j rest h
  simp only [unsignedNumber, bind_eq_bind, bind_eq_some_iff] at h
  obtain ⟨⟨whole, rest₁⟩, hwhole, ⟨frac, rest₂⟩, hfrac, ⟨exp, rest₃⟩, hexp, n, -, hend⟩ := h
  cases hend
  obtain ⟨u, rfl, hu⟩ := wholePart_takes hwhole
  obtain ⟨v, rfl, hv⟩ := fraction_takes hfrac
  obtain ⟨w, rfl, hw⟩ := exponentPart_takes hexp
  exact ⟨u ++ (v ++ w), by simp, by simp [hu, hv, hw]⟩

theorem unsignedNumber_stops (negative : Bool) : StopsAtDelimiter (unsignedNumber negative) := by
  intro cs rest h
  simp only [unsignedNumber, wholePart_stops cs h, bind_eq_bind]
  cases wholePart cs with
  | none => rfl
  | some whole =>
    simp only [map_some, bind_some, fraction_stops whole.2 h]
    cases fraction whole.2 with
    | none => rfl
    | some frac =>
      simp only [map_some, bind_some, exponentPart_stops frac.2 h]
      cases exponentPart frac.2 with
      | none => rfl
      | some exp =>
        simp only [map_some, bind_some]
        cases numeral negative whole.1 frac.1 exp.1 <;> rfl

variable {cs rest : List Char} {j : Json}

/-- A number that a delimiter follows is read up to it, and alike before any other delimiter. -/
theorem unsignedNumber_extent (h : unsignedNumber negative cs = some (j, rest))
    (hrest : Delimited rest) :
    ∃ used, cs = used ++ rest ∧ Closed used ∧
      ∀ other, Delimited other → unsignedNumber negative (used ++ other) = some (j, other) := by
  obtain ⟨used, rfl, hused⟩ := unsignedNumber_takes negative h
  have hclosed : Closed used :=
    closed_of_plain fun c hc => isPlain_numberChar (all_eq_true.1 hused c hc)
  rw [unsignedNumber_stops negative used hrest] at h
  obtain ⟨⟨j', left⟩, halone, hpair⟩ := map_eq_some_iff.1 h
  simp only [Prod.mk.injEq, append_left_eq_self] at hpair
  obtain ⟨rfl, rfl⟩ := hpair
  refine ⟨used, rfl, hclosed, fun other hother => ?_⟩
  rw [unsignedNumber_stops negative used hother, halone]
  rfl

/-! ## 4. Containers -/

theorem exists_skipSpace (cs : List Char) :
    ∃ ws, ws.all isSpace = true ∧ cs = ws ++ skipSpace cs :=
  ⟨cs.takeWhile isSpace, all_takeWhile, takeWhile_append_dropWhile.symm⟩

/-- What white space leads to does not depend on what comes later. -/
theorem skipSpace_head (hc : isSpace c = false) (cs xs ys : List Char) :
    (skipSpace (cs ++ c :: xs)).head? = (skipSpace (cs ++ c :: ys)).head? := by
  induction cs with
  | nil => rw [nil_append, nil_append, skipSpace_cons hc, skipSpace_cons hc]; rfl
  | cons d cs ih =>
    simp only [skipSpace, cons_append, dropWhile_cons] at ih ⊢
    split
    · exact ih
    · rfl

/-- A text that is read as a value at a depth, before any delimiter. -/
def Takes (depth : Nat) (used : List Char) (j : Json) : Prop :=
  ∀ fuel other, used.length ≤ fuel → Delimited other →
    value fuel depth (used ++ other) = some (j, other)

/-- What is read as a value at a depth, with some fuel, has a text that is taken with any fuel. -/
def Extends (fuel depth : Nat) : Prop :=
  ∀ cs j rest, value fuel depth cs = some (j, rest) → Delimited rest →
    ∃ used, cs = used ++ rest ∧ Closed used ∧ Takes depth used j

variable {fuel depth : Nat}

/-- Elements with commas between them, up to a closing bracket. `n` bounds their number. -/
def listFrom (closing : Char) (element : List Char → Option (α × List Char)) :
    Nat → List Char → Option (List α × List Char)
  | 0, _ => none
  | n + 1, cs => do
    let (a, left) ← element cs
    match skipSpace left with
    | [] => none
    | c :: more =>
      if c = ',' then (listFrom closing element n more).map fun found => (a :: found.1, found.2)
      else if c = closing then some ([a], more)
      else none

/-- One field of an object: its name, a colon and its value. -/
def fieldFrom (item : List Char → Option (Json × List Char)) (cs : List Char) :
    Option ((String × Json) × List Char) :=
  match skipSpace cs with
  | '"' :: more =>
    match stringBody more with
    | none => none
    | some (key, left) =>
      match skipSpace left with
      | ':' :: more => (item more).map fun v => ((String.ofList key, v.1), v.2)
      | _ => none
  | _ => none

theorem itemsFrom_eq (item : List Char → Option (Json × List Char)) (n : Nat) (cs : List Char) :
    itemsFrom item n cs = listFrom ']' item n cs := by
  induction n generalizing cs with
  | zero => rfl
  | succ n ih =>
    rw [itemsFrom, listFrom]
    cases item cs with
    | none => rfl
    | some found =>
      simp only [ih, bind_eq_bind, bind_some]
      cases skipSpace found.2 with
      | nil => rfl
      | cons c more => grind

/-- Fields are read as a list of fields between commas. -/
theorem fieldsFrom_eq (item : List Char → Option (Json × List Char)) (n : Nat) (cs : List Char) :
    fieldsFrom item n cs = listFrom '}' (fieldFrom item) n cs := by
  induction n generalizing cs with
  | zero => rfl
  | succ n ih =>
    rw [fieldsFrom, listFrom, fieldFrom]
    cases skipSpace cs with
    | nil => rfl
    | cons c text =>
      by_cases hquote : c = '"'
      case neg => grind
      subst hquote
      simp only
      cases stringBody text with
      | none => rfl
      | some found =>
        simp only
        cases skipSpace found.2 with
        | nil => rfl
        | cons c text =>
          by_cases hcolon : c = ':'
          case neg => grind
          subst hcolon
          simp only
          cases item text with
          | none => rfl
          | some found =>
            simp only [ih, map_some, bind_eq_bind, bind_some]
            cases skipSpace found.2 with
            | nil => rfl
            | cons c more => grind

section List

variable {element : List Char → Option (α × List Char)} {a : α} {ws cs more : List Char}

theorem listFrom_more (hws : ws.all isSpace = true)
    (helement : element cs = some (a, ws ++ ',' :: more)) (n : Nat) :
    listFrom closing element (n + 1) cs =
      (listFrom closing element n more).map fun found => (a :: found.1, found.2) := by
  rw [listFrom, helement]
  simp only [bind_eq_bind, bind_some, skipSpace_append hws, skipSpace_cons (c := ',') (by decide),
    if_true]

theorem listFrom_last (hclosing : isSpace closing = false) (hcomma : closing ≠ ',')
    (hws : ws.all isSpace = true)
    (helement : element cs = some (a, ws ++ closing :: more)) (n : Nat) :
    listFrom closing element (n + 1) cs = some ([a], more) := by
  rw [listFrom, helement]
  simp only [bind_eq_bind, bind_some, skipSpace_append hws, skipSpace_cons hclosing, hcomma,
    if_false, if_true]

end List

/-- A list is read up to its bracket, whatever follows, if its elements are read up to a
delimiter. -/
theorem listFrom_extent (element : Nat → List Char → Option (α × List Char))
    (hclosing : isSpace closing = false) (hcomma : closing ≠ ',')
    (hdelimiter : isDelimiter closing = true)
    (helement : ∀ cs a rest, element fuel cs = some (a, rest) → Delimited rest →
      ∃ used, cs = used ++ rest ∧ Closed used ∧ ∀ fuel other, used.length ≤ fuel →
        Delimited other → element fuel (used ++ other) = some (a, other)) {as : List α}
    (h : listFrom closing (element fuel) n cs = some (as, rest)) :
    ∃ inner, cs = inner ++ closing :: rest ∧ Closed inner ∧
      ∀ fuel n other, inner.length ≤ fuel → inner.length < n →
        listFrom closing (element fuel) n (inner ++ closing :: other) = some (as, other) := by
  induction n generalizing cs as with
  | zero => cases h
  | succ n ih =>
    simp only [listFrom, bind_eq_bind, bind_eq_some_iff] at h
    obtain ⟨⟨a, left⟩, ha, h⟩ := h
    obtain ⟨ws, hws, hleft⟩ := exists_skipSpace left
    -- an element is followed by white space and a delimiter, the comma or the bracket
    have hstop {c : Char} (hc : isDelimiter c = true) (xs : List Char) :
        Delimited (ws ++ c :: xs) :=
      delimited_append hws (delimited_cons hc xs)
    split at h
    · cases h
    rename_i c more hmore
    rw [hmore] at hleft
    subst hleft
    split at h
    · -- another element follows
      rename_i hc
      subst hc
      obtain ⟨⟨as', rest'⟩, hrest, hpair⟩ := map_eq_some_iff.1 h
      cases hpair
      obtain ⟨inner, rfl, hinner, hread⟩ := ih hrest
      obtain ⟨used, rfl, hused, htakes⟩ := helement _ _ _ ha (hstop (by decide) _)
      refine ⟨used ++ (ws ++ ',' :: inner), by simp, hused.append
        ((closed_space hws).append (.plain (by decide) hinner)), fun fuel n other hfuel hn => ?_⟩
      obtain ⟨n, rfl⟩ : ∃ k, n = k + 1 := ⟨n - 1, by omega⟩
      simp only [length_append, length_cons] at hfuel hn
      rw [append_assoc, append_assoc, cons_append, listFrom_more hws
        (htakes fuel _ (by omega) (hstop (by decide) _)), hread fuel n other (by omega) (by omega)]
      rfl
    split at h
    · -- the bracket closes the list
      rename_i hc
      subst hc
      cases h
      obtain ⟨used, rfl, hused, htakes⟩ := helement _ _ _ ha (hstop hdelimiter _)
      refine ⟨used ++ ws, by simp, hused.append (closed_space hws),
        fun fuel n other hfuel hn => ?_⟩
      obtain ⟨n, rfl⟩ : ∃ k, n = k + 1 := ⟨n - 1, by omega⟩
      simp only [length_append] at hfuel
      rw [append_assoc, listFrom_last hclosing hcomma hws
        (htakes fuel _ (by omega) (hstop hdelimiter _))]
    · cases h

/-- A field takes a part of the text, and is read from that part whatever follows. -/
theorem fieldFrom_extent (hvalue : Extends fuel depth) {f : String × Json}
    (h : fieldFrom (value fuel depth) cs = some (f, rest)) (hrest : Delimited rest) :
    ∃ used, cs = used ++ rest ∧ Closed used ∧ ∀ fuel other, used.length ≤ fuel →
      Delimited other → fieldFrom (value fuel depth) (used ++ other) = some (f, other) := by
  obtain ⟨ws, hws, hcs⟩ := exists_skipSpace cs
  rw [fieldFrom] at h
  split at h
  case h_2 => cases h
  rename_i text hquote
  split at h
  · cases h
  rename_i key left hkey
  obtain ⟨body, rfl, hbody, hread⟩ := stringBody_extent hkey
  obtain ⟨ws', hws', hleft⟩ := exists_skipSpace left
  split at h
  case h_2 => cases h
  rename_i text hcolon
  obtain ⟨⟨j, after⟩, hitem, hpair⟩ := map_eq_some_iff.1 h
  cases hpair
  obtain ⟨used, rfl, hused, htakes⟩ := hvalue _ _ _ hitem hrest
  rw [hcolon] at hleft
  rw [hquote, hleft] at hcs
  refine ⟨ws ++ '"' :: (body ++ '"' :: (ws' ++ ':' :: used)), by simp [hcs],
    (closed_space hws).append
      (.string hbody ((closed_space hws').append (.plain (by decide) hused))),
    fun fuel other hfuel hother => ?_⟩
  simp only [length_append, length_cons] at hfuel
  simp only [append_assoc, cons_append, fieldFrom, skipSpace_append hws,
    skipSpace_cons (c := '"') (by decide), hread, skipSpace_append hws',
    skipSpace_cons (c := ':') (by decide), htakes fuel other (by omega) hother, map_some]

/-! ## 5. Values -/

theorem afterWord_eq_some {word cs rest : List Char} (h : afterWord word cs = some rest) :
    cs = word ++ rest := by
  rw [afterWord] at h
  split at h <;> cases h
  rename_i hprefix
  obtain ⟨more, rfl⟩ := isPrefixOf_iff_prefix.1 hprefix
  rw [drop_left]

theorem unsignedNumber_head (h : unsignedNumber negative cs = some (j, rest)) :
    ∃ c more, cs = c :: more ∧ isAsciiDigit c = true := by
  simp only [unsignedNumber, bind_eq_bind, bind_eq_some_iff] at h
  obtain ⟨whole, hwhole, -⟩ := h
  cases cs with
  | nil => cases hwhole
  | cons c more =>
    refine ⟨c, more, rfl, ?_⟩
    rw [wholePart] at hwhole
    split at hwhole
    · rename_i hzero
      obtain rfl := beq_iff_eq.1 hzero
      decide
    · split at hwhole <;> cases hwhole
      assumption

theorem scalar_unsignedNumber (h : unsignedNumber false cs = some (j, rest)) :
    scalar cs = some (j, rest) := by
  obtain ⟨c, more, rfl, hc⟩ := unsignedNumber_head h
  rw [scalar_unsigned hc, h]

/-- A scalar that a delimiter follows is read up to it, and alike before any other delimiter. -/
theorem scalar_extent (h : scalar cs = some (j, rest)) (hrest : Delimited rest) :
    ∃ used, cs = used ++ rest ∧ Closed used ∧
      ∀ other, Delimited other → scalar (used ++ other) = some (j, other) := by
  -- a word is taken whole, and no word holds a quote or a brace
  have hword {word : List Char} {v : Json} (hplain : word.all isPlain = true)
      (hall : ∀ other, scalar (word ++ other) = some (v, other))
      (h : ((afterWord word cs).map fun after => (v, after)) = some (j, rest)) :
      ∃ used, cs = used ++ rest ∧ Closed used ∧
        ∀ other, Delimited other → scalar (used ++ other) = some (j, other) := by
    obtain ⟨after, hafter, hpair⟩ := map_eq_some_iff.1 h
    cases hpair
    exact ⟨word, afterWord_eq_some hafter, closed_of_plain (all_eq_true.1 hplain),
      fun other _ => hall other⟩
  unfold scalar at h
  split at h
  · exact hword (by decide) (fun other => rfl) h
  · exact hword (by decide) (fun other => rfl) h
  · exact hword (by decide) (fun other => rfl) h
  · obtain ⟨⟨s, after⟩, hs, hpair⟩ := map_eq_some_iff.1 h
    cases hpair
    obtain ⟨body, rfl, hbody, hread⟩ := stringBody_extent hs
    refine ⟨'"' :: (body ++ ['"']), by simp, .string hbody .nil, fun other _ => ?_⟩
    rw [cons_append, append_assoc, singleton_append]
    simp only [scalar, hread, map_some]
  · obtain ⟨used, rfl, hclosed, hread⟩ := unsignedNumber_extent h hrest
    exact ⟨'-' :: used, rfl, .plain (by decide) hclosed, hread⟩
  · obtain ⟨used, rfl, hclosed, hread⟩ := unsignedNumber_extent h hrest
    exact ⟨used, rfl, hclosed, fun other hother => scalar_unsignedNumber (hread other hother)⟩

/-- What stands between two brackets is read up to the closing one, whatever follows. -/
def Bracketed (closing : Char) (read : Nat → List Char → Option (α × List Char)) (fuel : Nat) :
    Prop :=
  ∀ text a rest, read fuel text = some (a, rest) →
    ∃ inner, text = inner ++ closing :: rest ∧ Closed inner ∧
      ∀ fuel other, inner.length < fuel → read fuel (inner ++ closing :: other) = some (a, other)

/-- A container is read up to its closing bracket, if what fills it is. -/
theorem bracketed_container {empty : Json} {wrap : α → Json}
    {inside : Nat → List Char → Option (α × List Char)} (hclosing : isSpace closing = false)
    (hempty : ∀ ws, ws.all isSpace = true → ∀ fuel other,
      value fuel (depth + 1) (opening :: (ws ++ closing :: other)) = some (empty, other))
    (hfilled : ∀ text, (skipSpace text).head? ≠ some closing → ∀ fuel,
      value fuel (depth + 1) (opening :: text) =
        (inside fuel text).map fun a => (wrap a.1, a.2)) (hinside : Bracketed closing inside fuel) :
    Bracketed closing (fun fuel text => value fuel (depth + 1) (opening :: text)) fuel := by
  intro text j rest h
  by_cases hhead : (skipSpace text).head? = some closing
  · obtain ⟨after, hafter⟩ := head?_eq_some_iff.1 hhead
    obtain ⟨ws, hws, htext⟩ := exists_skipSpace text
    rw [hafter] at htext
    subst htext
    cases (hempty ws hws fuel after).symm.trans h
    exact ⟨ws, rfl, closed_space hws, fun fuel other _ => hempty ws hws fuel other⟩
  · have hfill := (hfilled text hhead fuel).symm.trans h
    obtain ⟨⟨a, after⟩, ha, hpair⟩ := map_eq_some_iff.1 hfill
    cases hpair
    obtain ⟨inner, rfl, hinner, hread⟩ := hinside text a after ha
    refine ⟨inner, rfl, hinner, fun fuel other hfuel => ?_⟩
    rw [skipSpace_head hclosing inner after other] at hhead
    refine (hfilled _ hhead fuel).trans ?_
    rw [hread fuel other hfuel]
    rfl

/-- An array ends where its bracket is closed. -/
theorem bracketed_array (hvalue : Extends fuel depth) :
    Bracketed ']' (fun fuel text => value fuel (depth + 1) ('[' :: text)) fuel := by
  have hempty (ws : List Char) (hws : ws.all isSpace = true) (fuel : Nat) (other : List Char) :
      value fuel (depth + 1) ('[' :: (ws ++ ']' :: other)) = some (array [], other) := by
    rw [value, skipSpace_cons (by decide)]
    simp only [skipSpace_append hws, skipSpace_cons (c := ']') (by decide)]
  have hfilled (text : List Char) (h : (skipSpace text).head? ≠ some ']') (fuel : Nat) :
      value fuel (depth + 1) ('[' :: text) =
        (itemsFrom (value fuel depth) fuel text).map fun js => (array js.1, js.2) := by
    rw [value, skipSpace_cons (by decide)]
    simp only
    split
    · rename_i hclose
      exact absurd (by rw [hclose]; rfl) h
    · rfl
  refine bracketed_container (by decide) hempty hfilled fun text js rest h => ?_
  simp only [itemsFrom_eq] at h ⊢
  obtain ⟨inner, htext, hinner, hread⟩ :=
    listFrom_extent (fun fuel => value fuel depth) (by decide) (by decide) (by decide)
      hvalue h
  exact ⟨inner, htext, hinner, fun fuel other hfuel => hread fuel fuel other (by omega) hfuel⟩

/-- An object ends where its brace is closed. -/
theorem bracketed_object (hvalue : Extends fuel depth) :
    Bracketed '}' (fun fuel text => value fuel (depth + 1) ('{' :: text)) fuel := by
  have hempty (ws : List Char) (hws : ws.all isSpace = true) (fuel : Nat) (other : List Char) :
      value fuel (depth + 1) ('{' :: (ws ++ '}' :: other)) = some (object [], other) := by
    rw [value, skipSpace_cons (by decide)]
    simp only [skipSpace_append hws, skipSpace_cons (c := '}') (by decide)]
  have hfilled (text : List Char) (h : (skipSpace text).head? ≠ some '}') (fuel : Nat) :
      value fuel (depth + 1) ('{' :: text) =
        (fieldsFrom (value fuel depth) fuel text).map fun fs => (object fs.1, fs.2) := by
    rw [value, skipSpace_cons (by decide)]
    simp only
    split
    · rename_i hclose
      exact absurd (by rw [hclose]; rfl) h
    · rfl
  refine bracketed_container (by decide) hempty hfilled fun text fs rest h => ?_
  simp only [fieldsFrom_eq] at h ⊢
  obtain ⟨inner, htext, hinner, hread⟩ :=
    listFrom_extent (fun fuel => fieldFrom (value fuel depth)) (by decide) (by decide)
      (by decide) (fun _ _ _ => fieldFrom_extent hvalue) h
  exact ⟨inner, htext, hinner, fun fuel other hfuel => hread fuel fuel other (by omega) hfuel⟩

theorem isSpace_of_skipSpace {cs more : List Char} (h : skipSpace cs = c :: more) :
    isSpace c = false := by
  have hhead := head?_dropWhile_not isSpace cs
  rw [← skipSpace, h] at hhead
  exact hhead

/-- What is read as a value begins with something behind white space. -/
theorem exists_head_of_value (h : value fuel depth cs = some (j, rest)) :
    ∃ ws c more, cs = ws ++ c :: more ∧ ws.all isSpace = true ∧ isSpace c = false ∧
      value fuel depth (c :: more) = some (j, rest) := by
  obtain ⟨ws, hws, hcs⟩ := exists_skipSpace cs
  rw [hcs, value_space hws] at h
  cases hbody : skipSpace cs with
  | nil =>
    rw [hbody] at h
    cases depth <;> cases h
  | cons c more =>
    rw [hbody] at h hcs
    exact ⟨ws, c, more, hcs, hws, isSpace_of_skipSpace hbody, h⟩

theorem extent_container {ws text rest : List Char} (hws : ws.all isSpace = true)
    (hclosed : ∀ {inner}, Closed inner → Closed (opening :: (inner ++ [closing])))
    (hread : Bracketed closing (fun fuel text => value fuel (depth + 1) (opening :: text)) fuel)
    (h : value fuel (depth + 1) (opening :: text) = some (j, rest)) :
    ∃ used, ws ++ opening :: text = used ++ rest ∧ Closed used ∧ Takes (depth + 1) used j := by
  obtain ⟨inner, rfl, hinner, hall⟩ := hread text j rest h
  refine ⟨ws ++ opening :: (inner ++ [closing]), by simp,
    (closed_space hws).append (hclosed hinner), fun fuel other hfuel _ => ?_⟩
  simp only [length_append, length_cons] at hfuel
  rw [append_assoc, cons_append, append_assoc, singleton_append,
    value_space hws]
  exact hall fuel other (by omega)

theorem extent_scalar {ws more rest : List Char} {fuel depth : Nat} {j : Json}
    (hws : ws.all isSpace = true) (hspace : isSpace c = false) (harray : c ≠ '[')
    (hobject : c ≠ '{') (h : value fuel depth (c :: more) = some (j, rest))
    (hrest : Delimited rest) :
    ∃ used, ws ++ c :: more = used ++ rest ∧ Closed used ∧ Takes depth used j := by
  rw [value_scalar hspace harray hobject] at h
  obtain ⟨used, heq, hclosed, hread⟩ := scalar_extent h hrest
  -- no scalar is empty
  cases used with
  | nil => cases hread [] delimited_nil
  | cons d used =>
    cases heq
    refine ⟨ws ++ c :: used, by simp, (closed_space hws).append hclosed,
      fun fuel other _ hother => ?_⟩
    rw [append_assoc, value_space hws, cons_append,
      value_scalar hspace harray hobject]
    exact hread other hother

/-- Every value is read up to its end, and alike before any delimiter. -/
theorem value_extends (fuel depth : Nat) : Extends fuel depth := by
  induction depth with
  | zero =>
    intro cs j rest h hrest
    obtain ⟨ws, c, more, rfl, hws, hspace, h⟩ := exists_head_of_value h
    refine extent_scalar hws hspace ?_ ?_ h hrest
    all_goals
      rintro rfl
      cases h
  | succ depth ih =>
    intro cs j rest h hrest
    obtain ⟨ws, c, more, rfl, hws, hspace, h⟩ := exists_head_of_value h
    by_cases harray : c = '['
    · subst harray
      exact extent_container hws (fun hinner => .plain (by decide)
        (hinner.append (.plain (by decide) .nil))) (bracketed_array ih) h
    by_cases hobject : c = '{'
    · subst hobject
      exact extent_container hws (fun hinner => .braces hinner .nil) (bracketed_object ih) h
    · exact extent_scalar hws hspace harray hobject h hrest

theorem unsignedNumber_isObject (h : unsignedNumber negative cs = some (j, rest)) :
    j.isObject = false := by
  simp only [unsignedNumber, bind_eq_bind, bind_eq_some_iff] at h
  obtain ⟨_, -, _, -, _, -, n, -, hpair⟩ := h
  cases hpair
  rfl

theorem scalar_isObject (h : scalar cs = some (j, rest)) :
    j.isObject = false := by
  unfold scalar at h
  split at h
  case h_5 => exact unsignedNumber_isObject h
  case h_6 => exact unsignedNumber_isObject h
  all_goals
    obtain ⟨_, -, hpair⟩ := map_eq_some_iff.1 h
    cases hpair
    rfl

/-- What does not open with a brace is no object. -/
theorem isObject_of_opening {cs rest : List Char} {fuel depth : Nat} {j : Json}
    (hspace : isSpace c = false) (hc : c ≠ '{') (h : value fuel depth (c :: cs) = some (j, rest)) :
    j.isObject = false := by
  by_cases harray : c = '['
  · subst harray
    cases depth with
    | zero => cases h
    | succ depth =>
      rw [value, skipSpace_cons hspace] at h
      simp only at h
      split at h
      · cases h
        rfl
      · obtain ⟨_, -, hpair⟩ := map_eq_some_iff.1 h
        cases hpair
        rfl
  · rw [value_scalar hspace harray hc] at h
    exact scalar_isObject h

/-- An object has its braces, with white space before them; it is read up to the closing one,
whatever follows. -/
theorem object_extent (h : value fuel depth cs = some (j, rest)) (hobject : j.isObject = true) :
    ∃ ws inner, cs = ws ++ '{' :: (inner ++ '}' :: rest) ∧ ws.all isSpace = true ∧ Closed inner ∧
      ∀ fuel other, inner.length < fuel →
        value fuel depth ('{' :: (inner ++ '}' :: other)) = some (j, other) := by
  obtain ⟨ws, c, more, rfl, hws, hspace, h⟩ := exists_head_of_value h
  by_cases hc : c = '{'
  · subst hc
    cases depth with
    | zero => cases h
    | succ depth =>
      obtain ⟨inner, rfl, hinner, hread⟩ :=
        bracketed_object (value_extends fuel depth) more j rest h
      exact ⟨ws, inner, rfl, hws, hinner, hread⟩
  · rw [isObject_of_opening hspace hc h] at hobject
    cases hobject

theorem exists_of_parseChars {cs : List Char} (h : parseChars cs = some j) :
    ∃ rest, value cs.length maxDepth cs = some (j, rest) := by
  rw [parseChars, parseHead] at h
  cases hvalue : value cs.length maxDepth cs with
  | none =>
    rw [hvalue] at h
    cases h
  | some pair =>
    rw [hvalue] at h
    simp only [map_some] at h
    split at h <;> cases h
    exact ⟨_, rfl⟩

end CodeAssist.Json
