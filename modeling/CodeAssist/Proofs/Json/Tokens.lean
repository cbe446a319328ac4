import CodeAssist.Json.Parser
import CodeAssist.Json.Printer

/-!
Strings and numbers read back.

A printed string or number is followed by something that cannot continue it: the end of the text,
white space, a comma or a closing bracket (`Delimited`). Reading stops exactly there.
-/

namespace CodeAssist.Json

open List Option

open Text (isAsciiDigit)
open Number (digitsOf)

variable {c : Char} {ws rest ds : List Char} {n d : Nat}

/-! ## 1. Delimiters -/

/-- A character that ends a token before it. -/
def isDelimiter (c : Char) : Bool :=
  c == ',' || c == ']' || c == '}' || c == ':' || isSpace c

/-- What follows a token does not go on with it. -/
def Delimited (rest : List Char) : Prop :=
  ∀ c ∈ rest.head?, isDelimiter c = true

theorem delimited_nil : Delimited [] := by
  intro c hc
  simp at hc

theorem delimited_cons (h : isDelimiter c = true) (rest : List Char) :
    Delimited (c :: rest) := by
  intro d hd
  simp only [head?_cons, mem_def, some.injEq] at hd
  exact hd ▸ h

theorem delimited_append (hws : ws.all isSpace = true) (h : Delimited rest) :
    Delimited (ws ++ rest) := by
  cases ws with
  | nil => exact h
  | cons c ws =>
    simp only [all_cons, Bool.and_eq_true] at hws
    exact delimited_cons (by simp [isDelimiter, hws.1]) _

theorem isDelimiter_ne {d : Char} (hc : isDelimiter c = true) (hd : isDelimiter d = false) :
    c ≠ d := by
  rintro rfl
  rw [hc] at hd
  exact Bool.noConfusion hd

theorem isDelimiter_digit (hc : isDelimiter c = true) : isAsciiDigit c = false := by
  simp only [isDelimiter, isSpace, Bool.or_eq_true, beq_iff_eq] at hc
  rcases hc with (((rfl | rfl) | rfl) | rfl) | (((rfl | rfl) | rfl) | rfl) <;> decide

theorem Delimited.noDigit (h : Delimited rest) :
    rest.head?.any isAsciiDigit = false := by
  cases rest with
  | nil => rfl
  | cons c rest => simpa using isDelimiter_digit (h c rfl)

theorem skipSpace_append (hws : ws.all isSpace = true) (cs : List Char) :
    skipSpace (ws ++ cs) = skipSpace cs := by
  unfold skipSpace
  rw [dropWhile_append_of_pos]
  simpa using hws

@[simp] theorem skipSpace_nil : skipSpace [] = [] := rfl

theorem skipSpace_cons (h : isSpace c = false) (cs : List Char) :
    skipSpace (c :: cs) = c :: cs := by
  simp [skipSpace, h]

/-! ## 2. Strings -/

theorem hexValue_hexDigit : ∀ n, n < 16 → hexValue (hexDigit n) = some n := by
  decide

theorem hexValue4_control (h : n < 0x20) :
    hexValue4 '0' '0' (hexDigit (n / 16)) (hexDigit (n % 16)) = some n := by
  have hz : hexValue '0' = some 0 := by decide
  have hhigh := hexValue_hexDigit (n / 16) (by omega)
  have hlow := hexValue_hexDigit (n % 16) (by omega)
  simp only [hexValue4, hz, hhigh, hlow, bind_eq_bind, bind_some, Option.pure_def,
    some.injEq]
  omega

theorem stringBody_quote (rest : List Char) : stringBody ('"' :: rest) = some ([], rest) := by
  rw [stringBody.eq_def]
  simp

theorem stringBody_simple {e : Char} (hu : (e == 'u') = false) (h : simpleEscape e = some c)
    (rest : List Char) :
    stringBody ('\\' :: e :: rest) = (stringBody rest).map fun (s, after) => (c :: s, after) := by
  rw [stringBody.eq_def]
  simp [hu, h]

theorem stringBody_unicode {a b x y : Char} {unit : Nat} (h : hexValue4 a b x y = some unit)
    (hhigh : isHighSurrogate unit = false) (hlow : isLowSurrogate unit = false)
    (rest : List Char) :
    stringBody ('\\' :: 'u' :: a :: b :: x :: y :: rest) =
      (stringBody rest).map fun (s, after) => (Char.ofNat unit :: s, after) := by
  rw [stringBody.eq_def]
  simp [h, hhigh, hlow]

theorem stringBody_plain (hquote : (c == '"') = false) (hslash : (c == '\\') = false)
    (hcontrol : ¬ c.toNat < 0x20) (rest : List Char) :
    stringBody (c :: rest) = (stringBody rest).map fun (s, after) => (c :: s, after) := by
  rw [stringBody.eq_def]
  simp only [hquote, hslash, hcontrol, Bool.false_eq_true, if_false]

/-- An escaped character is read as itself. -/
theorem stringBody_escapeChar (c : Char) (rest : List Char) :
    stringBody (escapeChar c ++ rest) =
      (stringBody rest).map fun (s, after) => (c :: s, after) := by
  have hshort {e d : Char} (he : simpleEscape e = some d) (hu : (e == 'u') = false) (hc : c = d) :
      stringBody (['\\', e] ++ rest) =
        (stringBody rest).map fun (s, after) => (c :: s, after) :=
    stringBody_simple hu (hc ▸ he) rest
  have hnat {n : Nat} (h : (c.toNat == n) = true) : c = Char.ofNat n := by
    rw [← beq_iff_eq.1 h, Char.ofNat_toNat]
  unfold escapeChar
  split
  · exact hshort rfl rfl (beq_iff_eq.1 ‹_›)
  split
  · exact hshort rfl rfl (beq_iff_eq.1 ‹_›)
  split
  · exact hshort rfl rfl (beq_iff_eq.1 ‹_›)
  split
  · exact hshort rfl rfl (beq_iff_eq.1 ‹_›)
  split
  · exact hshort rfl rfl (beq_iff_eq.1 ‹_›)
  split
  · exact hshort rfl rfl (hnat ‹_›)
  split
  · exact hshort rfl rfl (hnat ‹_›)
  split
  · rename_i h
    have hhigh : isHighSurrogate c.toNat = false := by simp [isHighSurrogate]; omega
    have hlow : isLowSurrogate c.toNat = false := by simp [isLowSurrogate]; omega
    have hread := stringBody_unicode (hexValue4_control h) hhigh hlow rest
    rw [Char.ofNat_toNat] at hread
    exact hread
  · rename_i hquote hslash _ _ _ _ _ hcontrol
    exact stringBody_plain (by simpa using hquote) (by simpa using hslash) hcontrol rest

/-- The body of a printed string, up to its closing quote, is the string. -/
theorem stringBody_escaped (cs rest : List Char) :
    stringBody (cs.flatMap escapeChar ++ '"' :: rest) = some (cs, rest) := by
  induction cs with
  | nil => exact stringBody_quote rest
  | cons c cs ih =>
    rw [flatMap_cons, append_assoc, stringBody_escapeChar, ih]
    rfl

theorem quote_append (s : String) (rest : List Char) :
    quote s ++ rest = '"' :: (s.toList.flatMap escapeChar ++ '"' :: rest) := by
  simp [quote]

/-! ## 3. Digits -/

theorem isAsciiDigit_digitChar (h : d < 10) : isAsciiDigit d.digitChar = true := by
  revert d
  decide

theorem toNat_digitChar (h : d < 10) : d.digitChar.toNat - 0x30 = d := by
  revert d
  decide

/-- The digits of a natural: those of its tenth, and a last one. -/
theorem digitsOf_step (h : 10 ≤ n) :
    digitsOf n = digitsOf (n / 10) ++ [(n % 10).digitChar] :=
  Nat.toDigits_of_base_le (by omega) h

theorem digitsOf_small (h : n < 10) : digitsOf n = [n.digitChar] :=
  Nat.toDigits_of_lt_base h

theorem digitsOf_ne_nil (n : Nat) : digitsOf n ≠ [] :=
  Nat.toDigits_ne_nil

theorem digitsOf_digits (n : Nat) : (digitsOf n).all isAsciiDigit = true := by
  induction n using Nat.strongRecOn with
  | _ n ih =>
    by_cases h : n < 10
    · simp [digitsOf_small h, isAsciiDigit_digitChar h]
    · rw [digitsOf_step (by omega), all_append, ih (n / 10) (by omega)]
      simp [isAsciiDigit_digitChar (Nat.mod_lt n (by omega))]

/-- The natural that digits write after those of `n`. -/
def appendDigits (n : Nat) (ds : List Char) : Nat :=
  ds.foldl (fun n d => n * 10 + (d.toNat - 0x30)) n

theorem appendDigits_append (n : Nat) (ds es : List Char) :
    appendDigits n (ds ++ es) = appendDigits (appendDigits n ds) es :=
  foldl_append

theorem le_appendDigits (n : Nat) (ds : List Char) : n ≤ appendDigits n ds := by
  induction ds generalizing n with
  | nil => exact Nat.le_refl n
  | cons d ds ih =>
    have := ih (n * 10 + (d.toNat - 0x30))
    simp only [appendDigits, foldl_cons] at this ⊢
    omega

theorem appendDigits_digitsOf (n : Nat) : appendDigits 0 (digitsOf n) = n := by
  induction n using Nat.strongRecOn with
  | _ n ih =>
    by_cases h : n < 10
    · simp [digitsOf_small h, appendDigits, toNat_digitChar h]
    · rw [digitsOf_step (by omega), appendDigits_append, ih (n / 10) (by omega)]
      simp only [appendDigits, foldl_cons, foldl_nil,
        toNat_digitChar (Nat.mod_lt n (by omega : 0 < 10))]
      omega

theorem digitsOf_head (h : 0 < n) : ∃ c ds, digitsOf n = c :: ds ∧ c ≠ '0' := by
  induction n using Nat.strongRecOn with
  | _ n ih =>
    by_cases hn : n < 10
    · refine ⟨n.digitChar, [], digitsOf_small hn, ?_⟩
      rw [Ne, Nat.digitChar_eq_zero]
      omega
    · obtain ⟨c, ds, hds, hc⟩ := ih (n / 10) (by omega) (by omega)
      exact ⟨c, ds ++ [(n % 10).digitChar], by rw [digitsOf_step (by omega), hds]; rfl, hc⟩

theorem gather_fits (n : Nat) (ds : List Char) (h : appendDigits n ds ≤ maxNatural) :
    gather n ds = (appendDigits n ds, ds.length) := by
  induction ds generalizing n with
  | nil => rfl
  | cons d ds ih =>
    have hle := le_appendDigits (n * 10 + (d.toNat - 0x30)) ds
    simp only [appendDigits, foldl_cons] at h hle
    rw [gather]
    simp only [if_neg (Nat.not_lt.2 (Nat.le_trans hle h)), ih _ h]
    rfl

/-- No more digits are taken than there are, and all only if they can be held. -/
theorem gather_bounds (n : Nat) (ds : List Char) (hn : n ≤ maxNatural) :
    (gather n ds).2 ≤ ds.length ∧
      ((gather n ds).2 = ds.length → appendDigits n ds ≤ maxNatural) := by
  induction ds generalizing n with
  | nil => exact ⟨Nat.le_refl 0, fun _ => hn⟩
  | cons d ds ih =>
    rw [gather]
    by_cases h : maxNatural < n * 10 + (d.toNat - 0x30)
    · simp only [if_pos h, length_cons]
      exact ⟨by omega, fun h0 => by omega⟩
    · obtain ⟨hle, hall⟩ := ih _ (Nat.not_lt.1 h)
      simp only [if_neg h, length_cons]
      exact ⟨by omega, fun h0 => hall (by omega)⟩

/-! ## 4. Numbers -/

/-- Digits are taken up to a character that is none. -/
theorem span_append (cs : List Char) (h : rest.head?.any isAsciiDigit = false) :
    (cs ++ rest).takeWhile isAsciiDigit = cs.takeWhile isAsciiDigit ∧
      (cs ++ rest).dropWhile isAsciiDigit = cs.dropWhile isAsciiDigit ++ rest := by
  induction cs with
  | nil =>
    cases rest with
    | nil => exact ⟨rfl, rfl⟩
    | cons c rest => simp [show isAsciiDigit c = false by simpa using h]
  | cons c cs ih =>
    simp only [cons_append, takeWhile_cons, dropWhile_cons, ih]
    split <;> exact ⟨trivial, rfl⟩

theorem span_digits (hds : ds.all isAsciiDigit = true)
    (hrest : rest.head?.any isAsciiDigit = false) :
    (ds ++ rest).takeWhile isAsciiDigit = ds ∧ (ds ++ rest).dropWhile isAsciiDigit = rest := by
  have hall := all_eq_true.1 hds
  refine ⟨?_, ?_⟩
  · rw [takeWhile_append_of_pos hall, ← nil_append rest, (span_append [] hrest).1]
    exact append_nil ds
  · rw [dropWhile_append_of_pos hall, ← nil_append rest, (span_append [] hrest).2]
    rfl

/-- The parts of a number without its sign: the digits before the point, those after it, and those
of the exponent with its sign. -/
structure NumberParts where
  whole : List Char
  frac : Option (List Char)
  exp : Option (Bool × List Char)
  whole_ok : whole = ['0'] ∨
    ∃ c ds, whole = c :: ds ∧ c ≠ '0' ∧ isAsciiDigit c = true ∧ ds.all isAsciiDigit = true
  frac_ok : ∀ ds ∈ frac, ds ≠ [] ∧ ds.all isAsciiDigit = true
  exp_ok : ∀ e ∈ exp, e.2 ≠ [] ∧ e.2.all isAsciiDigit = true

namespace NumberParts

/-- The digits after the point, with the point. -/
def fracChars (p : NumberParts) : List Char :=
  match p.frac with
  | some ds => '.' :: ds
  | none => []

/-- The exponent, with its mark and its sign. -/
def expChars (p : NumberParts) : List Char :=
  match p.exp with
  | some (negative, ds) => 'e' :: (if negative then '-' else '+') :: ds
  | none => []

def chars (p : NumberParts) : List Char :=
  p.whole ++ p.fracChars ++ p.expChars

def power (p : NumberParts) : Option Int :=
  p.exp.map fun (negative, ds) =>
    if negative then -(natOfDigits ds : Int) else (natOfDigits ds : Int)

def value (p : NumberParts) (negative : Bool) : Option Numeral :=
  numeral negative p.whole p.frac p.power

/-- The exponent, and with it what follows, holds no digit at its head. -/
theorem expChars_noDigit (p : NumberParts) (h : Delimited rest) :
    (p.expChars ++ rest).head?.any isAsciiDigit = false := by
  unfold expChars
  split
  · simp only [cons_append, head?_cons, any_some]
    decide
  · exact h.noDigit

theorem fracChars_noDigit (p : NumberParts) (h : Delimited rest) :
    (p.fracChars ++ (p.expChars ++ rest)).head?.any isAsciiDigit = false := by
  unfold fracChars
  split
  · simp only [cons_append, head?_cons, any_some]
    decide
  · exact p.expChars_noDigit h

theorem wholePart_chars (p : NumberParts) (h : Delimited rest) :
    wholePart (p.whole ++ (p.fracChars ++ (p.expChars ++ rest))) =
      some (p.whole, p.fracChars ++ (p.expChars ++ rest)) := by
  have hnext := p.fracChars_noDigit h
  rcases p.whole_ok with hz | ⟨c, ds, hw, hc, hdigit, hds⟩
  · rw [hz, singleton_append, wholePart]
    simp only [beq_self_eq_true, if_true, hnext, Bool.false_eq_true, if_false]
  · rw [hw, cons_append, wholePart]
    simp only [beq_iff_eq, hc, if_false, hdigit, if_true, span_digits hds hnext]

/-- The fraction of a number is read from its characters. -/
theorem fraction_chars (p : NumberParts) (h : Delimited rest) :
    fraction (p.fracChars ++ (p.expChars ++ rest)) = some (p.frac, p.expChars ++ rest) := by
  have hnext := p.expChars_noDigit h
  cases hf : p.frac with
  | some ds =>
    obtain ⟨hne, hds⟩ := p.frac_ok ds hf
    simp only [fracChars, hf, cons_append, fraction, span_digits hds hnext]
    simp [hne]
  | none =>
    simp only [fracChars, hf, nil_append]
    -- neither the mark of an exponent nor a delimiter is a point
    cases hcs : p.expChars ++ rest with
    | nil => rfl
    | cons c cs =>
      have hc : c ≠ '.' := by
        unfold expChars at hcs
        split at hcs
        · simp only [cons_append, cons.injEq] at hcs
          rw [← hcs.1]
          decide
        · rw [nil_append] at hcs
          exact isDelimiter_ne (h c (by simp [hcs])) (by decide)
      rw [fraction]
      simpa using hc

/-- The exponent of a number is read from its characters. -/
theorem exponentPart_chars (p : NumberParts) (h : Delimited rest) :
    exponentPart (p.expChars ++ rest) = some (p.power, rest) := by
  unfold expChars power
  cases he : p.exp with
  | some e =>
    obtain ⟨negative, ds⟩ := e
    obtain ⟨hne, hds⟩ := p.exp_ok _ he
    have hread (b : Bool) : exponentDigits b (ds ++ rest) =
        some (some (if b then -(natOfDigits ds : Int) else (natOfDigits ds : Int)), rest) := by
      simp only [exponentDigits, span_digits hds h.noDigit]
      simp [hne]
    cases negative with
    | true => simp [exponentPart, hread]
    | false => simp [exponentPart, hread]
  | none =>
    simp only [nil_append, map_none]
    cases rest with
    | nil => rfl
    | cons c rest =>
      have hlower := isDelimiter_ne (h c rfl) (by decide : isDelimiter 'e' = false)
      have hupper := isDelimiter_ne (h c rfl) (by decide : isDelimiter 'E' = false)
      simp [exponentPart, hlower, hupper]

/-- A number is read by its parts, and reading stops where it ends. -/
theorem unsignedNumber_chars (p : NumberParts) (negative : Bool) (h : Delimited rest) :
    unsignedNumber negative (p.chars ++ rest) =
      (p.value negative).map fun n => (Json.number n, rest) := by
  have hsplit : p.chars ++ rest = p.whole ++ (p.fracChars ++ (p.expChars ++ rest)) := by
    simp [chars]
  simp only [unsignedNumber, hsplit, p.wholePart_chars h, p.fraction_chars h,
    p.exponentPart_chars h, bind_eq_bind, bind_some, value]
  cases numeral negative p.whole p.frac p.power <;> rfl

theorem chars_head (p : NumberParts) (rest : List Char) :
    ∃ c cs, p.chars ++ rest = c :: cs ∧ isAsciiDigit c = true := by
  rcases p.whole_ok with hz | ⟨c, ds, hw, _, hdigit, _⟩
  · exact ⟨'0', p.fracChars ++ p.expChars ++ rest, by simp [chars, hz], by decide⟩
  · exact ⟨c, ds ++ p.fracChars ++ p.expChars ++ rest, by simp [chars, hw], hdigit⟩

def ofNat (n : Nat) : NumberParts where
  whole := digitsOf n
  frac := none
  exp := none
  whole_ok := by
    rcases Nat.eq_zero_or_pos n with rfl | hn
    · exact .inl (digitsOf_small (by decide))
    · obtain ⟨c, ds, hds, hc⟩ := digitsOf_head hn
      have hall := digitsOf_digits n
      rw [hds, all_cons, Bool.and_eq_true] at hall
      exact .inr ⟨c, ds, hds, hc, hall.1, hall.2⟩
  frac_ok := by simp
  exp_ok := by simp

@[simp] theorem ofNat_chars (n : Nat) : (ofNat n).chars = digitsOf n := by
  simp [chars, fracChars, expChars, ofNat]

/-- Every number with an exponent has the parts of a number. -/
theorem exists_exponent (hc : c ≠ '0') (hdigit : isAsciiDigit c = true)
    (hds : ds.all isAsciiDigit = true) (e : Int) :
    ∃ p : NumberParts, p.chars = (match c :: ds with
      | [d] => [d]
      | d :: more => d :: '.' :: more
      | [] => []) ++ ['e'] ++ (if e < 0 then ['-'] else ['+']) ++ digitsOf e.natAbs := by
  have hexp : ∀ x ∈ some (decide (e < 0), digitsOf e.natAbs),
      x.2 ≠ [] ∧ x.2.all isAsciiDigit = true := by
    intro x hx
    simp only [mem_def, some.injEq] at hx
    subst hx
    exact ⟨digitsOf_ne_nil _, digitsOf_digits _⟩
  have hsign : (if e < 0 then ['-'] else ['+']) = [if decide (e < 0) then '-' else '+'] := by
    split <;> simp_all
  cases ds with
  | nil =>
    exact ⟨⟨[c], none, _, .inr ⟨c, [], rfl, hc, hdigit, rfl⟩, by simp, hexp⟩, by
      rw [hsign]; simp [chars, fracChars, expChars]⟩
  | cons d ds =>
    refine ⟨⟨[c], some (d :: ds), _, .inr ⟨c, [], rfl, hc, hdigit, rfl⟩, ?_, hexp⟩, ?_⟩
    · intro es hes
      simp only [mem_def, some.injEq] at hes
      subst hes
      exact ⟨by simp, hds⟩
    · rw [hsign]
      simp [chars, fracChars, expChars]

theorem exists_pointed (hc : c ≠ '0') (hdigit : isAsciiDigit c = true)
    (hds : ds.all isAsciiDigit = true) {k : Nat} (hpos : 0 < k) (hlen : k < (c :: ds).length) :
    ∃ p : NumberParts, p.chars = (c :: ds).take k ++ ['.'] ++ (c :: ds).drop k := by
  obtain ⟨k, rfl⟩ : ∃ n, k = n + 1 := ⟨k - 1, by omega⟩
  refine ⟨⟨c :: ds.take k, some (ds.drop k), none, .inr ⟨c, ds.take k, rfl, hc, hdigit, ?_⟩, ?_,
    by simp⟩, by simp [chars, fracChars, expChars]⟩
  · exact all_eq_true.2 fun d hd => all_eq_true.1 hds d (mem_of_mem_take hd)
  · intro es hes
    simp only [mem_def, some.injEq] at hes
    subst hes
    refine ⟨by simpa using hlen, ?_⟩
    exact all_eq_true.2 fun d hd => all_eq_true.1 hds d (mem_of_mem_drop hd)

theorem all_zeros (n : Nat) : (replicate n '0').all isAsciiDigit = true := by
  induction n with
  | zero => rfl
  | succ n ih => rw [replicate_succ, all_cons, ih]; rfl

/-- Every written number has the parts of a number. -/
theorem exists_layout (l : Number.Layout) (digits : Nat) (power : Int) :
    ∃ p : NumberParts, p.chars = l.write digits power := by
  unfold Number.Layout.write
  by_cases hz : digits = 0
  · exact ⟨⟨['0'], some ['0'], none, .inl rfl, by simp; decide, by simp⟩, by
      simp [hz, chars, fracChars, expChars]⟩
  have hall := digitsOf_digits digits
  obtain ⟨c, ds, hds, hc⟩ := digitsOf_head (Nat.pos_of_ne_zero hz)
  rw [hds, all_cons, Bool.and_eq_true] at hall
  obtain ⟨hdigit, hrest⟩ := hall
  simp only [hds, beq_iff_eq, hz, if_false]
  split
  · -- a whole number, with zeros up to the point
    refine ⟨⟨c :: ds ++ replicate power.toNat '0', some ['0'], none,
      .inr ⟨c, ds ++ replicate power.toNat '0', rfl, hc, hdigit, ?_⟩, by simp; decide,
      by simp⟩, by simp [chars, fracChars, expChars]⟩
    rw [all_append, hrest, all_zeros]
    rfl
  split
  · -- the power is negative, so the point stands before the last digit
    rename_i hwhole hpoint
    simp only [Bool.and_eq_true, decide_eq_true_eq] at hwhole hpoint
    exact exists_pointed hc hdigit hrest (by omega) (by omega)
  split
  · -- zeros stand between the point and the digits
    refine ⟨⟨['0'], some (replicate
      (-(((c :: ds).length : Int) + power)).toNat '0' ++ c :: ds), none, .inl rfl, ?_, by simp⟩, ?_⟩
    · intro es hes
      simp only [mem_def, some.injEq] at hes
      subst hes
      exact ⟨by simp, by rw [all_append, all_zeros, all_cons, hdigit, hrest]; rfl⟩
    · simp [chars, fracChars, expChars]
  · exact exists_exponent hc hdigit hrest _

end NumberParts

theorem scalar_unsigned (hc : isAsciiDigit c = true) (cs : List Char) :
    scalar (c :: cs) = unsignedNumber false (c :: cs) := by
  unfold scalar
  split
  case h_6 => rfl
  all_goals
    rename_i h
    cases h
    exact absurd hc (by decide)

/-- What a printed number is read as; an infinity is read as null. -/
def rereadNumeral (n : Numeral) : Option Json :=
  (scalar (writeNumeral n)).map (·.1)

/-- A printed number that is followed by a delimiter is read up to its end. -/
theorem scalar_writeNumeral (n : Numeral) (h : Delimited rest) :
    scalar (writeNumeral n ++ rest) = (rereadNumeral n).map fun j => (j, rest) := by
  -- a number by its parts, read alone and before the rest
  have hplain (p : NumberParts) : scalar (p.chars ++ rest) =
      ((scalar p.chars).map (·.1)).map fun j => (j, rest) := by
    obtain ⟨c, cs, hcs, hc⟩ := p.chars_head rest
    obtain ⟨d, ds, hds, hd⟩ := p.chars_head []
    rw [hcs, scalar_unsigned hc, ← hcs, p.unsignedNumber_chars false h]
    rw [append_nil] at hds
    rw [hds, scalar_unsigned hd, ← hds, ← append_nil p.chars,
      p.unsignedNumber_chars false delimited_nil]
    cases p.value false <;> rfl
  have hsigned (p : NumberParts) : scalar ('-' :: p.chars ++ rest) =
      ((scalar ('-' :: p.chars)).map (·.1)).map fun j => (j, rest) := by
    have halone := p.unsignedNumber_chars true delimited_nil
    rw [append_nil] at halone
    simp only [cons_append, scalar, p.unsignedNumber_chars true h, halone]
    cases p.value true <;> rfl
  unfold rereadNumeral
  cases n with
  | natural n => simpa [writeNumeral] using hplain (.ofNat n)
  | negative n => simpa [writeNumeral] using hsigned (.ofNat n)
  | real x =>
    cases x with
    | infinite negative => rfl
    | finite negative significand exponent =>
      obtain ⟨p, hp⟩ := NumberParts.exists_layout Number.plainLayout
        (Number.double.shortest significand exponent).1
        (Number.double.shortest significand exponent).2
      simp only [writeNumeral, Number.Format.write, getD_some, ← hp]
      cases negative with
      | true => exact hsigned p
      | false => exact hplain p

/-- A printed number starts with a digit or a minus, and an infinity with a letter. -/
theorem writeNumeral_head (n : Numeral) :
    ∃ c cs, writeNumeral n = c :: cs ∧ (isAsciiDigit c = true ∨ c = '-' ∨ c = 'n') := by
  cases n with
  | natural n =>
    obtain ⟨c, cs, hcs, hc⟩ := (NumberParts.ofNat n).chars_head []
    exact ⟨c, cs, by simpa [writeNumeral] using hcs, .inl hc⟩
  | negative n => exact ⟨'-', _, rfl, .inr (.inl rfl)⟩
  | real x =>
    cases x with
    | infinite negative => exact ⟨'n', _, rfl, .inr (.inr rfl)⟩
    | finite negative significand exponent =>
      cases negative with
      | true => exact ⟨'-', _, rfl, .inr (.inl rfl)⟩
      | false =>
        obtain ⟨p, hp⟩ := NumberParts.exists_layout Number.plainLayout
          (Number.double.shortest significand exponent).1
          (Number.double.shortest significand exponent).2
        obtain ⟨c, cs, hcs, hc⟩ := p.chars_head []
        rw [append_nil, hp] at hcs
        exact ⟨c, cs, by simpa [writeNumeral, Number.Format.write] using hcs, .inl hc⟩

theorem rereadNumeral_natural (n : Nat) :
    rereadNumeral (.natural n) = (numeral false (digitsOf n) none none).map number := by
  obtain ⟨c, cs, hcs, hc⟩ := (NumberParts.ofNat n).chars_head []
  have hparts := (NumberParts.ofNat n).unsignedNumber_chars false delimited_nil
  rw [NumberParts.ofNat_chars, append_nil] at hcs hparts
  rw [rereadNumeral, writeNumeral, hcs, scalar_unsigned hc, ← hcs, hparts]
  simp only [NumberParts.value, NumberParts.power, NumberParts.ofNat, map_none]
  cases numeral false (digitsOf n) none none <;> rfl

theorem rereadNumeral_fits (h : n ≤ maxNatural) :
    rereadNumeral (.natural n) = some (number (.natural n)) := by
  have hgather := gather_fits 0 (digitsOf n) (by rwa [appendDigits_digitsOf])
  rw [rereadNumeral_natural, numeral, hgather, appendDigits_digitsOf]
  simp

/-- A natural that cannot be held is read back as a real number, if at all. -/
theorem rereadNumeral_large (h : maxNatural < n) (m : Nat) :
    rereadNumeral (.natural n) ≠ some (number (.natural m)) := by
  obtain ⟨hle, hall⟩ := gather_bounds 0 (digitsOf n) (Nat.zero_le _)
  rw [appendDigits_digitsOf] at hall
  have hleft : ((digitsOf n).length - (gather 0 (digitsOf n)).2 != 0) = true := by
    rw [bne_iff_ne]
    intro hzero
    have := hall (by omega)
    omega
  rw [rereadNumeral_natural, numeral]
  simp only [hleft, if_true]
  intro hsome
  simp at hsome

end CodeAssist.Json
