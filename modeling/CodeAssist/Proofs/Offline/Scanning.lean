import CodeAssist.Offline.Segment
import CodeAssist.Text.Blank

/-!
The literals and comments of a text, read one character at a time.

The scanner of segments looks ahead by a character and keeps the segment so far. Here it is a
machine (`Mode.step`) that sees one character and emits tokens: that a literal or comment opens, and
each character inside one. The tokens of the segments are what the machine emits
(`segments_tokens`), and they are enough to get the literals and comments back (`tokens_injective`).
So two texts have the same marks where the machine says the same about them, and what it says about
a text is what it says about the parts, one after the other (`scan_append`).
-/

namespace CodeAssist.Offline

open Text List Segment

variable {c : Char} {acc rest : List Char}

/-! ## 1. Marks -/

def Segment.isMark (s : Segment) : Bool :=
  s.kind != .code

def Segment.bare (s : Segment) : Segment :=
  ⟨s.kind, s.text.filter fun c => !isBlank c⟩

/-- The literals and comments of a text, in order. -/
def marks (cs : List Char) : List Segment :=
  (segments cs).filter isMark

/-- The literals and comments of a text without their white space. -/
def bareMarks (cs : List Char) : List Segment :=
  (marks cs).map bare

/-- The kind of segment that a text ends in. -/
def lastKind (cs : List Char) : SegmentKind :=
  ((segments cs).getLast?.map kind).getD .code

/-! ## 2. Machine -/

/-- Kinds of literal. -/
inductive LiteralKind where
  | string
  | char
  deriving DecidableEq

def LiteralKind.segment : LiteralKind → SegmentKind
  | .string => .stringLiteral
  | .char => .charLiteral

def LiteralKind.quote : LiteralKind → Char
  | .string => '"'
  | .char => apostrophe

/-- Where the scanner stands. -/
inductive Mode where
  | code
  /-- In code, right behind a slash. -/
  | slash
  | literal (kind : LiteralKind)
  /-- In a literal, right behind the backslash that shields the next character. -/
  | shielded (kind : LiteralKind)
  | line
  | block
  /-- In a block comment, right behind a star. -/
  | star
  deriving DecidableEq

def Mode.kind : Mode → SegmentKind
  | .code => .code
  | .slash => .code
  | .literal kind => kind.segment
  | .shielded kind => kind.segment
  | .line => .lineComment
  | .block => .blockComment
  | .star => .blockComment

/-- What the scanner says about a text. -/
inductive Token where
  | opening (kind : SegmentKind)
  | inside (c : Char)
  deriving DecidableEq

variable {said : List Token} {m : Mode}

/-- The mode after a character of code that follows no slash. -/
def Mode.stepCode (c : Char) : Mode :=
  if c == '"' then .literal .string
  else if c == apostrophe then .literal .char
  else if c == '/' then .slash
  else .code

def Mode.step : Mode → Char → Mode
  | .code, c => stepCode c
  | .slash, c => if c == '/' then .line else if c == '*' then .block else stepCode c
  | .literal kind, c =>
    if c == '\\' then .shielded kind
    else if c == kind.quote || c == '\n' then .code
    else .literal kind
  | .shielded kind, _ => .literal kind
  | .line, c => if c == '\n' then .code else .line
  | .block, c => if c == '*' then .star else .block
  | .star, c => if c == '/' then .code else if c == '*' then .star else .block

/-- The tokens of a character of code that follows no slash. -/
def Mode.emitCode (c : Char) : List Token :=
  if c == '"' then [.opening .stringLiteral, .inside c]
  else if c == apostrophe then [.opening .charLiteral, .inside c]
  else []

/-- The newline behind a line comment is code again. -/
def Mode.emit : Mode → Char → List Token
  | .code, c => emitCode c
  | .slash, c =>
    if c == '/' then [.opening .lineComment, .inside '/', .inside c]
    else if c == '*' then [.opening .blockComment, .inside '/', .inside c]
    else emitCode c
  | .literal _, c => [.inside c]
  | .shielded _, c => [.inside c]
  | .line, c => if c == '\n' then [] else [.inside c]
  | .block, c => [.inside c]
  | .star, c => [.inside c]

/-- What the scanner says about a text that it begins in some mode. -/
def scan : Mode → List Char → List Token
  | _, [] => []
  | m, c :: cs => m.emit c ++ scan (m.step c) cs

def modeAfter (m : Mode) (cs : List Char) : Mode :=
  cs.foldl Mode.step m

@[simp] theorem scan_nil (m : Mode) : scan m [] = [] := rfl

@[simp] theorem scan_cons (m : Mode) (c : Char) (cs : List Char) :
    scan m (c :: cs) = m.emit c ++ scan (m.step c) cs := rfl

@[simp] theorem modeAfter_nil (m : Mode) : modeAfter m [] = m := rfl

@[simp] theorem modeAfter_cons (m : Mode) (c : Char) (cs : List Char) :
    modeAfter m (c :: cs) = modeAfter (m.step c) cs := rfl

theorem modeAfter_append (m : Mode) (xs ys : List Char) :
    modeAfter m (xs ++ ys) = modeAfter (modeAfter m xs) ys :=
  foldl_append

theorem scan_append (m : Mode) (xs ys : List Char) :
    scan m (xs ++ ys) = scan m xs ++ scan (modeAfter m xs) ys := by
  induction xs generalizing m with
  | nil => rfl
  | cons c xs ih => simp [ih]

theorem Mode.kind_eq_code : m.kind = .code ↔ m = .code ∨ m = .slash := by
  cases m with
  | literal kind | shielded kind => cases kind <;> simp [Mode.kind, LiteralKind.segment]
  | _ => simp [Mode.kind]

/-- A slash means something only to a slash or a star behind it. -/
theorem Mode.step_slash (hline : c ≠ '/') (hblock : c ≠ '*') :
    slash.step c = code.step c ∧ slash.emit c = code.emit c := by
  simp [step, emit, hline, hblock]

theorem Mode.step_star (hend : c ≠ '/') : star.step c = block.step c := by
  simp [step, hend]

/-! ## 3. Agreement -/

def Segment.tokens (s : Segment) : List Token :=
  if s.isMark then .opening s.kind :: s.text.map .inside else []

/-- Segments found by going on in a mode with a text, `said` being what was said of them before. -/
structure Follows (found : List Segment) (said : List Token) (m : Mode) (cs : List Char) :
    Prop where
  tokens : found.flatMap tokens = said ++ scan m cs
  last : found.getLast?.map kind = some (modeAfter m cs).kind

variable {cs : List Char} {found : List Segment}

theorem Follows.cons (h : Follows found said m cs) (s : Segment) :
    Follows (s :: found) (s.tokens ++ said) m cs := by
  constructor
  · rw [flatMap_cons, h.tokens, append_assoc]
  · cases found with
    | nil => cases h.last
    | cons t found => rw [getLast?_cons_cons, h.last]

theorem Follows.step (h : Follows found (said ++ m.emit c) (m.step c) cs) :
    Follows found said m (c :: cs) :=
  ⟨by rw [h.tokens, append_assoc, scan_cons], h.last⟩

theorem Follows.of_slash (h : Follows found said .code cs) (hline : ∀ more, cs ≠ '/' :: more)
    (hblock : ∀ more, cs ≠ '*' :: more) :
    Follows found said .slash cs := by
  cases cs with
  | nil => exact ⟨h.tokens, h.last⟩
  | cons c cs =>
    obtain ⟨hstep, hemit⟩ := Mode.step_slash (c := c) (fun hc => hline cs (by rw [hc]))
      fun hc => hblock cs (by rw [hc])
    exact ⟨by rw [h.tokens, scan_cons, scan_cons, hstep, hemit],
      by rw [h.last, modeAfter_cons, modeAfter_cons, hstep]⟩

theorem Follows.of_star (h : Follows found said .block cs) (hend : ∀ more, cs ≠ '/' :: more) :
    Follows found said .star cs := by
  cases cs with
  | nil => exact ⟨h.tokens, h.last⟩
  | cons c cs =>
    have hstep := Mode.step_star (c := c) fun hc => hend cs (by rw [hc])
    exact ⟨by rw [h.tokens, scan_cons, scan_cons, hstep]; rfl,
      by rw [h.last, modeAfter_cons, modeAfter_cons, hstep]⟩

theorem LiteralKind.segment_ne_code (kind : LiteralKind) : kind.segment ≠ .code := by
  cases kind <;> decide

theorem Segment.tokens_literal (kind : LiteralKind) (text : List Char) :
    tokens ⟨kind.segment, text⟩ = .opening kind.segment :: text.map .inside := by
  simp [tokens, isMark, kind.segment_ne_code]

mutual

/-- The segments from code on are those that the machine reads. -/
theorem segmentsInCode_follows (acc : List Char) :
    ∀ cs, Follows (segmentsInCode acc cs) [] .code cs
  | [] => ⟨rfl, rfl⟩
  | c :: rest => by
    have hcode := segmentsInCode_follows (c :: acc) rest
    rw [segmentsInCode.eq_def]
    refine .step ?_
    simp only [Mode.emit, Mode.step, Mode.emitCode, Mode.stepCode]
    split
    · exact (segmentsInLiteral_follows .string [c] rest).cons ⟨.code, acc.reverse⟩
    · split
      · exact (segmentsInLiteral_follows .char [c] rest).cons ⟨.code, acc.reverse⟩
      · split
        · split
          · rename_i more
            exact .step ((segmentsInLine_follows ['/', '/'] more).cons ⟨.code, acc.reverse⟩)
          · rename_i more
            exact .step ((segmentsInBlock_follows ['*', '/'] more).cons ⟨.code, acc.reverse⟩)
          · rename_i hline hblock
            exact hcode.of_slash hline hblock
        · exact hcode
termination_by cs => cs.length

/-- The same from inside a literal. -/
theorem segmentsInLiteral_follows (kind : LiteralKind) (acc : List Char) :
    ∀ cs, Follows (segmentsInLiteral kind.segment kind.quote acc cs)
      (.opening kind.segment :: acc.reverse.map .inside) (.literal kind) cs
  | [] => ⟨by simp [segmentsInLiteral, tokens_literal], rfl⟩
  | c :: rest => by
    rw [segmentsInLiteral.eq_def]
    refine .step ?_
    simp only [Mode.emit, Mode.step]
    split
    · cases rest with
      | nil => exact ⟨by simp [tokens_literal], rfl⟩
      | cons e more =>
        refine .step ?_
        simpa [Mode.emit, Mode.step] using segmentsInLiteral_follows kind (e :: c :: acc) more
    · split
      · have hcode := (segmentsInCode_follows [] rest).cons ⟨kind.segment, (c :: acc).reverse⟩
        simpa [tokens_literal] using hcode
      · simpa using segmentsInLiteral_follows kind (c :: acc) rest
termination_by cs => cs.length

theorem segmentsInLine_follows (acc : List Char) :
    ∀ cs, Follows (segmentsInLine acc cs)
      (.opening .lineComment :: acc.reverse.map .inside) .line cs
  | [] => ⟨by simp [segmentsInLine, tokens, isMark], rfl⟩
  | c :: rest => by
    rw [segmentsInLine.eq_def]
    refine .step ?_
    simp only [Mode.emit, Mode.step]
    split
    · have hcode := (segmentsInCode_follows [c] rest).cons ⟨.lineComment, acc.reverse⟩
      simpa [tokens, isMark] using hcode
    · simpa using segmentsInLine_follows (c :: acc) rest
termination_by cs => cs.length

/-- The same from inside a block comment. -/
theorem segmentsInBlock_follows (acc : List Char) :
    ∀ cs, Follows (segmentsInBlock acc cs)
      (.opening .blockComment :: acc.reverse.map .inside) .block cs
  | [] => ⟨by simp [segmentsInBlock, tokens, isMark], rfl⟩
  | c :: rest => by
    have hblock := segmentsInBlock_follows (c :: acc) rest
    simp only [reverse_cons, map_append, ← cons_append] at hblock
    rw [segmentsInBlock.eq_def]
    refine .step ?_
    simp only [Mode.emit, Mode.step]
    split
    · split
      · rename_i more
        refine .step ?_
        have hcode := (segmentsInCode_follows [] more).cons
          ⟨.blockComment, ('/' :: c :: acc).reverse⟩
        simpa [tokens, isMark, Mode.emit, Mode.step] using hcode
      · rename_i hend
        exact hblock.of_star hend
    · exact hblock
termination_by cs => cs.length

end

theorem segments_tokens (cs : List Char) : (segments cs).flatMap tokens = scan .code cs :=
  (segmentsInCode_follows [] cs).tokens

theorem lastKind_eq (cs : List Char) : lastKind cs = (modeAfter .code cs).kind := by
  rw [lastKind, segments, (segmentsInCode_follows [] cs).last, Option.getD_some]

/-! ## 4. Marks by tokens -/

/-- A character of white space inside a mark. -/
def Token.isBlank : Token → Bool
  | .opening _ => false
  | .inside c => Text.isBlank c

/-- What the scanner says about a text, white space apart. -/
def bareScan (m : Mode) (cs : List Char) : List Token :=
  (scan m cs).filter fun t => !t.isBlank

theorem bareScan_cons (m : Mode) (c : Char) (cs : List Char) :
    bareScan m (c :: cs) = (m.emit c).filter (fun t => !t.isBlank) ++ bareScan (m.step c) cs :=
  filter_append ..

theorem bareScan_append (m : Mode) (xs ys : List Char) :
    bareScan m (xs ++ ys) = bareScan m xs ++ bareScan (modeAfter m xs) ys := by
  rw [bareScan, scan_append, filter_append, bareScan, bareScan]

theorem marks_tokens (cs : List Char) : (marks cs).flatMap tokens = scan .code cs := by
  rw [← segments_tokens, marks]
  induction segments cs with
  | nil => rfl
  | cons s found ih =>
    cases hmark : s.isMark with
    | false =>
      have hnone : s.tokens = [] := by simp [tokens, hmark]
      rw [filter_cons_of_neg (by simp [hmark]), flatMap_cons, hnone, ih, nil_append]
    | true => rw [filter_cons_of_pos hmark, flatMap_cons, flatMap_cons, ih]

theorem Segment.bare_tokens (s : Segment) :
    s.bare.tokens = s.tokens.filter fun t => !t.isBlank := by
  cases hmark : s.isMark with
  | false => simp_all [tokens, bare, isMark]
  | true => simp_all [tokens, bare, isMark, Token.isBlank,
      filter_map, Function.comp_def]

theorem bareMarks_tokens (cs : List Char) :
    (bareMarks cs).flatMap tokens = bareScan .code cs := by
  rw [bareScan, ← marks_tokens, bareMarks, filter_flatMap, flatMap_map]
  simp only [bare_tokens]

theorem inside_append_inj {xs ys : List Char} {ts us : List Token}
    (hts : ∀ c more, ts ≠ .inside c :: more) (hus : ∀ c more, us ≠ .inside c :: more)
    (h : xs.map Token.inside ++ ts = ys.map Token.inside ++ us) : xs = ys ∧ ts = us := by
  induction xs generalizing ys with
  | nil =>
    cases ys with
    | nil => exact ⟨rfl, h⟩
    | cons y ys => exact absurd h (hts _ _)
  | cons x xs ih =>
    cases ys with
    | nil => exact absurd h.symm (hus _ _)
    | cons y ys =>
      simp only [map_cons, cons_append, cons.injEq, Token.inside.injEq] at h
      obtain ⟨rfl, rfl⟩ := ih h.2
      rw [h.1]
      exact ⟨rfl, rfl⟩

theorem tokens_ne_inside (found : List Segment) (c : Char) (more : List Token) :
    found.flatMap tokens ≠ .inside c :: more := by
  induction found with
  | nil => simp
  | cons s found ih =>
    rw [flatMap_cons, tokens]
    split
    · simp
    · exact ih

theorem bareScan_code_ne_inside (cs : List Char) (c : Char) (more : List Token) :
    bareScan .code cs ≠ .inside c :: more := by
  rw [← bareMarks_tokens]
  exact tokens_ne_inside _ c more

/-- Marks are known by their tokens. -/
theorem tokens_injective {found other : List Segment} (hfound : ∀ s ∈ found, s.isMark = true)
    (hother : ∀ s ∈ other, s.isMark = true)
    (h : found.flatMap tokens = other.flatMap tokens) : found = other := by
  induction found generalizing other with
  | nil =>
    cases other with
    | nil => rfl
    | cons t other =>
      rw [flatMap_cons, tokens, if_pos (hother t mem_cons_self)] at h
      cases h
  | cons s found ih =>
    obtain ⟨hs, hfound⟩ := forall_mem_cons.1 hfound
    cases other with
    | nil =>
      rw [flatMap_cons, tokens, if_pos hs] at h
      cases h
    | cons t other =>
      obtain ⟨ht, hother⟩ := forall_mem_cons.1 hother
      rw [flatMap_cons, flatMap_cons, tokens, tokens, if_pos hs,
        if_pos ht, cons_append, cons_append, cons.injEq, Token.opening.injEq] at h
      obtain ⟨hkind, htext⟩ := h
      obtain ⟨htext, hrest⟩ :=
        inside_append_inj (tokens_ne_inside found) (tokens_ne_inside other) htext
      have hsame : s = t := by
        cases s
        cases t
        exact mk.injEq .. ▸ ⟨hkind, htext⟩
      rw [hsame, ih hfound hother hrest]

theorem isMark_of_mem_marks : ∀ s ∈ marks cs, s.isMark = true :=
  fun _ hs => (mem_filter.1 hs).2

theorem marks_eq (hfound : ∀ s ∈ found, s.isMark = true)
    (h : scan .code cs = found.flatMap tokens) : marks cs = found :=
  tokens_injective isMark_of_mem_marks hfound (by rw [marks_tokens, h])

theorem bareMarks_eq_iff {cs ds : List Char} :
    bareMarks cs = bareMarks ds ↔ bareScan .code cs = bareScan .code ds := by
  have hmark : ∀ es : List Char, ∀ s ∈ bareMarks es, s.isMark = true := by
    intro es s hs
    obtain ⟨t, ht, rfl⟩ := mem_map.1 hs
    exact isMark_of_mem_marks t ht
  constructor
  · intro h
    rw [← bareMarks_tokens, h, bareMarks_tokens]
  · intro h
    exact tokens_injective (hmark cs) (hmark ds) (by rw [bareMarks_tokens, h, bareMarks_tokens])

/-! ## 5. Code changed between the marks -/

theorem Mode.stepCode_kind (h : emitCode c = []) : (stepCode c).kind = .code := by
  rw [emitCode] at h
  split at h
  · cases h
  · rename_i hstring
    split at h
    · cases h
    · rename_i hchar
      rw [stepCode, if_neg hstring, if_neg hchar]
      split <;> rfl

theorem Mode.step_kind (hm : m.kind = .code) (h : m.emit c = []) :
    (m.step c).kind = .code := by
  rcases kind_eq_code.1 hm with rfl | rfl
  · exact stepCode_kind h
  · rw [emit] at h
    split at h
    · cases h
    · rename_i hline
      split at h
      · cases h
      · rename_i hblock
        rw [step, if_neg hline, if_neg hblock]
        exact stepCode_kind h

theorem modeAfter_kind_of_quiet (hm : m.kind = .code) (h : scan m cs = []) :
    (modeAfter m cs).kind = .code := by
  induction cs generalizing m with
  | nil => exact hm
  | cons c cs ih =>
    rw [scan_cons, append_eq_nil_iff] at h
    exact ih (Mode.step_kind hm h.1) h.2

/-- A change of code that opens no mark and ends no line comment elsewhere. -/
structure KeepsCode (f : List Char → List Char) : Prop where
  quiet : ∀ cs, scan .code cs = [] → scan .code (f cs) = []
  mode : ∀ cs, scan .code cs = [] → modeAfter .code (f cs) = modeAfter .code cs
  newline : ∀ cs, ∃ more, f ('\n' :: cs) = '\n' :: more

/-- The code segment so far, and what follows it: no mark has opened, nor does one at the seam. -/
structure InCode (acc cs : List Char) : Prop where
  quiet : scan .code acc.reverse = []
  seam : modeAfter .code acc.reverse = .slash → cs.head? ≠ some '/' ∧ cs.head? ≠ some '*'

theorem InCode.cons (h : InCode acc (c :: rest)) (hstring : ¬ (c == '"') = true)
    (hchar : ¬ (c == apostrophe) = true)
    (hseam : c = '/' → rest.head? ≠ some '/' ∧ rest.head? ≠ some '*') :
    InCode (c :: acc) rest := by
  have hmode := modeAfter_kind_of_quiet rfl h.quiet
  have hslash := h.seam
  constructor
  · rw [reverse_cons, scan_append, h.quiet]
    rcases Mode.kind_eq_code.1 hmode with hm | hm <;> rw [hm] <;>
      simp_all [Mode.emit, Mode.emitCode]
  · rw [reverse_cons, modeAfter_append]
    rcases Mode.kind_eq_code.1 hmode with hm | hm <;> rw [hm] <;>
      simp_all [Mode.step, Mode.stepCode]

/-- The first segment from code on is code and goes on with what was read. -/
theorem segmentsInCode_first (acc : List Char) : ∀ cs, ∃ text more,
    segmentsInCode acc cs = ⟨.code, acc.reverse ++ text⟩ :: more
  | [] => ⟨[], [], by simp [segmentsInCode]⟩
  | c :: rest => by
    obtain ⟨text, more, h⟩ := segmentsInCode_first (c :: acc) rest
    have hcode : segmentsInCode (c :: acc) rest = ⟨.code, acc.reverse ++ c :: text⟩ :: more := by
      simpa using h
    rw [segmentsInCode.eq_def]
    simp only
    split
    · exact ⟨[], _, by rw [append_nil]⟩
    · split
      · exact ⟨[], _, by rw [append_nil]⟩
      · split
        · split
          · exact ⟨[], _, by rw [append_nil]⟩
          · exact ⟨[], _, by rw [append_nil]⟩
          · exact ⟨_, _, hcode⟩
        · exact ⟨_, _, hcode⟩

theorem Segment.mapCode_code (f : List Char → List Char) (text : List Char) :
    mapCode f ⟨.code, text⟩ = f text := rfl

theorem Segment.mapCode_mark {kind : SegmentKind} (hkind : kind ≠ .code)
    (f : List Char → List Char) (text : List Char) : mapCode f ⟨kind, text⟩ = text := by
  simp [mapCode, hkind]

/-- The segment with its text changed by `f` if it is code. -/
def Segment.changed (f : List Char → List Char) (s : Segment) : Segment :=
  ⟨s.kind, s.mapCode f⟩

theorem Segment.changed_mark (f : List Char → List Char) {s : Segment} (hs : s.isMark = true) :
    s.changed f = s := by
  rw [changed, mapCode_mark (bne_iff_ne.1 hs)]

theorem segmentsInCode_literal (kind : LiteralKind) (acc rest : List Char) :
    segmentsInCode acc (kind.quote :: rest) =
      ⟨.code, acc.reverse⟩ :: segmentsInLiteral kind.segment kind.quote [kind.quote] rest := by
  rw [segmentsInCode.eq_def]
  cases kind <;> rfl

theorem segmentsInCode_plain (hstring : c ≠ '"') (hchar : c ≠ apostrophe) (hslash : c ≠ '/')
    (acc rest : List Char) :
    segmentsInCode acc (c :: rest) = segmentsInCode (c :: acc) rest := by
  rw [segmentsInCode.eq_def]
  simp only [beq_iff_eq, hstring, hchar, hslash, if_false]

theorem segmentsInCode_slash (hline : rest.head? ≠ some '/') (hblock : rest.head? ≠ some '*') :
    segmentsInCode acc ('/' :: rest) = segmentsInCode ('/' :: acc) rest := by
  rw [segmentsInCode.eq_def]
  simp only
  rw [if_neg (by decide), if_neg (by decide), if_pos (by decide)]
  split
  · exact absurd rfl hline
  · exact absurd rfl hblock
  · rfl

/-- Text without marks belongs to the stretch of code that it continues. -/
theorem segmentsInCode_append {text : List Char} (hquiet : scan .code text = [])
    (hseam : modeAfter .code text = .slash → rest.head? ≠ some '/' ∧ rest.head? ≠ some '*')
    (acc : List Char) :
    segmentsInCode acc (text ++ rest) = segmentsInCode (text.reverse ++ acc) rest := by
  induction text generalizing acc with
  | nil => rfl
  | cons c text ih =>
    rw [scan_cons, append_eq_nil_iff] at hquiet
    obtain ⟨hemit, hquiet⟩ := hquiet
    rw [modeAfter_cons] at hseam
    rw [reverse_cons, append_assoc, singleton_append, cons_append]
    by_cases hslash : c = '/'
    · subst hslash
      cases text with
      | nil => exact segmentsInCode_slash (hseam rfl).1 (hseam rfl).2
      | cons d text =>
        have hd : d ≠ '/' ∧ d ≠ '*' := by
          constructor <;> rintro rfl <;> cases hquiet
        obtain ⟨hstep, hemit'⟩ := Mode.step_slash hd.1 hd.2
        change scan .slash (d :: text) = [] at hquiet
        change modeAfter .slash (d :: text) = _ → _ at hseam
        rw [scan_cons, hstep, hemit', ← scan_cons] at hquiet
        rw [modeAfter_cons, hstep, ← modeAfter_cons] at hseam
        rw [segmentsInCode_slash (by simpa using hd.1) (by simpa using hd.2)]
        exact ih hquiet hseam ('/' :: acc)
    · have hplain : c ≠ '"' ∧ c ≠ apostrophe := by
        constructor <;> rintro rfl <;> cases hemit
      have hstep : Mode.code.step c = .code := by
        simp [Mode.step, Mode.stepCode, hplain.1, hplain.2, hslash]
      rw [hstep] at hquiet hseam
      rw [segmentsInCode_plain hplain.1 hplain.2 hslash]
      exact ih hquiet hseam (c :: acc)

section mapCode

variable {f : List Char → List Char}

/-- Changed code is read as one segment again, up to the mark that opens behind it. -/
theorem segments_opened (hf : KeepsCode f) {opened : List Char} {found : List Segment}
    (h : InCode acc rest) (hflat : found.flatMap (Segment.mapCode f) = opened)
    (hhead : opened.head? = rest.head?) (hfound : ∀ acc, segmentsInCode acc opened =
      ⟨.code, acc.reverse⟩ :: found.map (changed f)) :
    segments ((⟨.code, acc.reverse⟩ :: found : List Segment).flatMap (Segment.mapCode f)) =
      (⟨.code, acc.reverse⟩ :: found : List Segment).map (changed f) := by
  have hseam := h.seam
  rw [← hhead, ← hf.mode _ h.quiet] at hseam
  rw [flatMap_cons, mapCode_code, hflat, segments,
    segmentsInCode_append (hf.quiet _ h.quiet) hseam, hfound, append_nil, reverse_reverse]
  rfl

mutual

/-- Code that is changed in its stretches is cut into the same segments, changed. -/
theorem segmentsInCode_changed (hf : KeepsCode f) (acc : List Char) : ∀ cs, InCode acc cs →
    segments ((segmentsInCode acc cs).flatMap (Segment.mapCode f)) =
      (segmentsInCode acc cs).map (changed f)
  | [], h => segments_opened hf h flatMap_nil rfl fun _ => rfl
  | c :: rest, h => by
    have hrest := fun hstring hchar hseam =>
      segmentsInCode_changed hf (c :: acc) rest (h.cons hstring hchar hseam)
    rw [segmentsInCode.eq_def]
    simp only
    split
    · rename_i hstring
      obtain rfl := beq_iff_eq.1 hstring
      obtain ⟨more, hmore, hsegments⟩ := segmentsInLiteral_changed hf .string ['"'] rest
      exact segments_opened hf h hmore rfl fun acc =>
        (segmentsInCode_literal .string acc more).trans (congrArg _ hsegments)
    · rename_i hstring
      split
      · rename_i hchar
        obtain rfl := beq_iff_eq.1 hchar
        obtain ⟨more, hmore, hsegments⟩ := segmentsInLiteral_changed hf .char [apostrophe] rest
        exact segments_opened hf h hmore rfl fun acc =>
          (segmentsInCode_literal .char acc more).trans (congrArg _ hsegments)
      · rename_i hchar
        split
        · rename_i hslash
          obtain rfl := beq_iff_eq.1 hslash
          split
          · rename_i tail
            obtain ⟨more, hmore, hsegments⟩ := segmentsInLine_changed hf ['/', '/'] tail
            exact segments_opened hf h hmore rfl fun _ => congrArg (cons _) hsegments
          · rename_i tail
            obtain ⟨more, hmore, -, hsegments⟩ := segmentsInBlock_changed hf ['*', '/'] tail
            exact segments_opened hf h hmore rfl fun _ => congrArg (cons _) hsegments
          · rename_i hline hblock
            refine hrest hstring hchar fun _ => ⟨?_, ?_⟩
            · intro hhead
              obtain ⟨tail, rfl⟩ := head?_eq_some_iff.1 hhead
              exact hline tail rfl
            · intro hhead
              obtain ⟨tail, rfl⟩ := head?_eq_some_iff.1 hhead
              exact hblock tail rfl
        · rename_i hslash
          exact hrest hstring hchar fun hc => absurd (beq_iff_eq.2 hc) hslash
termination_by cs => cs.length

/-- The same from inside a literal, which itself stays. -/
theorem segmentsInLiteral_changed (hf : KeepsCode f) (kind : LiteralKind) (acc : List Char) : ∀ cs,
    ∃ more, (segmentsInLiteral kind.segment kind.quote acc cs).flatMap (Segment.mapCode f) =
        acc.reverse ++ more ∧
      segmentsInLiteral kind.segment kind.quote acc more =
        (segmentsInLiteral kind.segment kind.quote acc cs).map (changed f)
  | [] => by
    refine ⟨[], ?_, ?_⟩ <;>
      simp [segmentsInLiteral, changed, mapCode_mark kind.segment_ne_code]
  | c :: rest => by
    rw [segmentsInLiteral.eq_def _ _ _ (c :: rest)]
    simp only
    split
    · rename_i hshield
      cases rest with
      | nil =>
        refine ⟨[c], ?_, ?_⟩ <;>
          simp [segmentsInLiteral, changed, mapCode_mark kind.segment_ne_code,
            hshield]
      | cons e tail =>
        obtain ⟨more, hmore, hsegments⟩ := segmentsInLiteral_changed hf kind (e :: c :: acc) tail
        refine ⟨c :: e :: more, by simpa using hmore, ?_⟩
        rw [segmentsInLiteral.eq_def]
        simp only
        rw [if_pos hshield, hsegments]
    · rename_i hplain
      split
      · rename_i hend
        have hcode := segmentsInCode_changed hf [] rest ⟨rfl, fun h => nomatch h⟩
        refine ⟨c :: _, by
          rw [flatMap_cons, mapCode_mark kind.segment_ne_code, reverse_cons,
            append_assoc, singleton_append], ?_⟩
        rw [segmentsInLiteral.eq_def]
        simp only
        rw [if_neg hplain, if_pos hend, map_cons, ← hcode, changed,
          mapCode_mark kind.segment_ne_code]
        rfl
      · rename_i hgoes
        obtain ⟨more, hmore, hsegments⟩ := segmentsInLiteral_changed hf kind (c :: acc) rest
        refine ⟨c :: more, by simpa using hmore, ?_⟩
        rw [segmentsInLiteral.eq_def]
        simp only
        rw [if_neg hplain, if_neg hgoes, hsegments]
termination_by cs => cs.length

/-- The same from inside a line comment. -/
theorem segmentsInLine_changed (hf : KeepsCode f) (acc : List Char) : ∀ cs,
    ∃ more, (segmentsInLine acc cs).flatMap (Segment.mapCode f) = acc.reverse ++ more ∧
      segmentsInLine acc more = (segmentsInLine acc cs).map (changed f)
  | [] => by
    refine ⟨[], ?_, ?_⟩ <;> simp [segmentsInLine, changed, mapCode_mark]
  | c :: rest => by
    rw [segmentsInLine.eq_def _ (c :: rest)]
    simp only
    split
    · rename_i hend
      obtain rfl := beq_iff_eq.1 hend
      have hcode := segmentsInCode_changed hf ['\n'] rest ⟨rfl, fun h => nomatch h⟩
      -- the changed code still begins with the newline that ends the comment
      obtain ⟨text, found, hfound⟩ := segmentsInCode_first ['\n'] rest
      obtain ⟨changed, hchanged⟩ := hf.newline text
      refine ⟨_, by rw [flatMap_cons, mapCode_mark (by decide)], ?_⟩
      rw [map_cons, ← hcode, hfound, flatMap_cons, mapCode_code,
        reverse_singleton, singleton_append, hchanged, cons_append, segments,
        segmentsInCode_plain (by decide) (by decide) (by decide)]
      rfl
    · rename_i hgoes
      obtain ⟨more, hmore, hsegments⟩ := segmentsInLine_changed hf (c :: acc) rest
      refine ⟨c :: more, by simpa using hmore, ?_⟩
      rw [segmentsInLine.eq_def]
      simp only
      rw [if_neg hgoes, hsegments]
termination_by cs => cs.length

/-- The same from inside a block comment. -/
theorem segmentsInBlock_changed (hf : KeepsCode f) (acc : List Char) : ∀ cs,
    ∃ more, (segmentsInBlock acc cs).flatMap (Segment.mapCode f) = acc.reverse ++ more ∧
      more.head? = cs.head? ∧
      segmentsInBlock acc more = (segmentsInBlock acc cs).map (Segment.changed f)
  | [] => by
    refine ⟨[], ?_, rfl, ?_⟩ <;> simp [segmentsInBlock, Segment.changed, Segment.mapCode_mark]
  | c :: rest => by
    rw [segmentsInBlock.eq_def _ (c :: rest)]
    simp only
    split
    · rename_i hstar
      obtain rfl := beq_iff_eq.1 hstar
      split
      · rename_i tail
        have hcode := segmentsInCode_changed hf [] tail ⟨rfl, fun h => nomatch h⟩
        refine ⟨'*' :: '/' :: (segmentsInCode [] tail).flatMap (Segment.mapCode f), by
          rw [flatMap_cons, Segment.mapCode_mark (by decide), reverse_cons,
            reverse_cons, append_assoc, append_assoc, singleton_append,
            singleton_append], rfl, ?_⟩
        rw [map_cons, ← hcode]
        rfl
      · rename_i hgoes
        obtain ⟨more, hmore, hhead, hsegments⟩ := segmentsInBlock_changed hf ('*' :: acc) rest
        refine ⟨'*' :: more, by simpa using hmore, rfl, ?_⟩
        rw [segmentsInBlock.eq_def]
        simp only
        rw [if_pos (by decide)]
        split
        · obtain ⟨tail, rfl⟩ := head?_eq_some_iff.1 hhead.symm
          exact absurd rfl (hgoes tail)
        · exact hsegments
    · rename_i hgoes
      obtain ⟨more, hmore, -, hsegments⟩ := segmentsInBlock_changed hf (c :: acc) rest
      refine ⟨c :: more, by simpa using hmore, rfl, ?_⟩
      rw [segmentsInBlock.eq_def]
      simp only
      rw [if_neg hgoes, hsegments]
termination_by cs => cs.length

end

theorem segments_mapCode (hf : KeepsCode f) (cs : List Char) :
    segments (mapCode f cs) = (segments cs).map (changed f) :=
  segmentsInCode_changed hf [] cs ⟨rfl, fun h => nomatch h⟩

theorem marks_mapCode (hf : KeepsCode f) (cs : List Char) : marks (mapCode f cs) = marks cs := by
  have hmark : isMark ∘ changed f = isMark := rfl
  rw [marks, segments_mapCode hf, filter_map, hmark, ← marks]
  exact map_congr_left (fun s hs => changed_mark f (isMark_of_mem_marks s hs)) |>.trans
    (map_id _)

end mapCode

end CodeAssist.Offline
