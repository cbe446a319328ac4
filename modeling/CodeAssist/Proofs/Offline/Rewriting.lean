import CodeAssist.Proofs.Offline.Spacing

/-!
Rules that rewrite code, and the literals and comments of a text.

The rules for the layout of code work on code segments, and what they write reads like what they
read: no mark opens in it, and the scanner leaves it in the same mode (`KeepsLayout`). So they keep
the marks (`marks_layOut`). The rule for `main` works on the whole text. In code its replacement
reads like the definition, but in a mark the scanner sees the characters of both, so that the rule
keeps the marks if and only if every bare definition of `main` begins in code (`bareScan_bareMain`).
-/

namespace CodeAssist.Offline

open Text List Option

variable {c : Char} {piece gap inner last rest word front : List Char} {p : Pattern (List Char)}

/-! ## 1. Layout -/

/-- A character that neither opens a mark nor makes one of a slash before it. -/
def isPlain (c : Char) : Bool :=
  c != '"' && c != apostrophe && c != '/' && c != '*'

variable {m : Mode}

theorem Mode.step_plain (hm : m.kind = .code) (hc : isPlain c = true) :
    m.emit c = [] ∧ m.step c = .code := by
  simp only [isPlain, Bool.and_eq_true, bne_iff_ne] at hc
  obtain ⟨⟨⟨h₁, h₂⟩, h₃⟩, h₄⟩ := hc
  rcases kind_eq_code.1 hm with rfl | rfl <;>
    simp [emit, emitCode, step, stepCode, h₁, h₂, h₃, h₄]

theorem scan_plain (hm : m.kind = .code) {cs : List Char} (hne : cs ≠ [])
    (hcs : cs.all isPlain = true) : scan m cs = [] ∧ modeAfter m cs = .code := by
  induction cs generalizing m with
  | nil => exact absurd rfl hne
  | cons c cs ih =>
    rw [all_cons, Bool.and_eq_true] at hcs
    obtain ⟨hemit, hstep⟩ := Mode.step_plain hm hcs.1
    rw [scan_cons, modeAfter_cons, hemit, hstep]
    cases cs with
    | nil => exact ⟨rfl, rfl⟩
    | cons d cs => exact ih rfl (cons_ne_nil d cs) hcs.2

theorem bareScan_of_quiet {cs : List Char} (h : scan m cs = []) :
    bareScan m cs = [] := by
  rw [bareScan, h]
  rfl

theorem isPlain_of_isBlank (hc : isBlank c = true) : isPlain c = true := by
  obtain ⟨h₁, h₂, h₃, h₄, -⟩ := ne_of_isBlank hc
  simp [isPlain, h₁, h₂, h₃, h₄]

/-- A text is related to one with its code changed where each stretch of code is. -/
theorem mapCode_partByPart {r : List Char → List Char → Prop} (hr : PartByPart r)
    {f : List Char → List Char} (hf : ∀ text, r text (f text)) (cs : List Char) :
    r cs (mapCode f cs) := by
  have hsegment : ∀ s : Segment, r s.text (s.mapCode f) := by
    intro s
    rw [Segment.mapCode]
    split
    · exact hf s.text
    · exact hr.refl s.text
  have hall : ∀ found : List Segment,
      r (found.flatMap (·.text)) (found.flatMap (Segment.mapCode f)) := by
    intro found
    induction found with
    | nil => exact hr.refl []
    | cons s found ih =>
      rw [flatMap_cons, flatMap_cons]
      exact hr.append (hsegment s) ih
  have hcs := hall (segments cs)
  rwa [segments_flatMap] at hcs

/-- Code that stands in for other code: no mark opens in it, and the scanner leaves it alike. -/
def ReadsAlike (piece new : List Char) : Prop :=
  ∀ m : Mode, m.kind = .code → scan m piece = [] →
    scan m new = [] ∧ modeAfter m new = modeAfter m piece

theorem readsAlike_plain {new : List Char} (hpiece : piece ≠ []) (hnew : new ≠ [])
    (hpieces : piece.all isPlain = true) (hnews : new.all isPlain = true) :
    ReadsAlike piece new := by
  intro m hm _
  obtain ⟨hscan, hmode⟩ := scan_plain hm hnew hnews
  exact ⟨hscan, hmode.trans (scan_plain hm hpiece hpieces).2.symm⟩

/-- A pattern for code, with values that read as its matches do. No match begins with a newline,
which may be the one that ends a comment. -/
def KeepsLayout (p : Pattern (List Char)) : Prop :=
  ∀ before cs new behind, p before cs = some (new, behind) →
    ∃ piece, piece ≠ [] ∧ piece.head? ≠ some '\n' ∧ cs = piece ++ behind ∧ ReadsAlike piece new

theorem KeepsLayout.reads (hp : KeepsLayout p) : p.Reads := by
  intro before cs new behind h
  obtain ⟨piece, hpiece, -, hcs, -⟩ := hp _ _ _ _ h
  exact ⟨piece, hpiece, hcs⟩

theorem readsAlike_partByPart : PartByPart ReadsAlike where
  refl := fun _ _ _ h => ⟨h, rfl⟩
  append := by
    intro xs ys xs' ys' hxs hys m hm hquiet
    rw [scan_append, append_eq_nil_iff] at hquiet
    obtain ⟨hscan, hmode⟩ := hxs m hm hquiet.1
    obtain ⟨hscan', hmode'⟩ := hys _ (modeAfter_kind_of_quiet hm hquiet.1) hquiet.2
    rw [scan_append, modeAfter_append, modeAfter_append, hscan, hmode, hscan', hmode']
    exact ⟨rfl, rfl⟩

theorem KeepsLayout.readsAlike (hp : KeepsLayout p) (cs : List Char) :
    ReadsAlike cs (replaceAll p cs) := by
  refine readsAlike_partByPart.replaceAll hp.reads (fun _ _ _ _ hmatch => ?_) cs
  obtain ⟨read, -, -, hread, halike⟩ := hp _ _ _ _ hmatch
  rwa [append_cancel_right hread]

theorem KeepsLayout.keepsCode (hp : KeepsLayout p) :
    KeepsCode (replaceAll p) where
  quiet := fun cs h => (hp.readsAlike cs .code rfl h).1
  mode := fun cs h => (hp.readsAlike cs .code rfl h).2
  newline := by
    intro cs
    refine ⟨_, replaceFrom_keep (eq_none_iff_forall_ne_some.2 fun read hmatch => ?_)⟩
    obtain ⟨piece, hpiece, hhead, hcs, -⟩ := hp _ _ _ _ hmatch
    cases piece with
    | nil => exact hpiece rfl
    | cons c piece =>
      obtain ⟨rfl, -⟩ := cons.inj hcs
      exact hhead rfl

theorem KeepsCode.comp {f g : List Char → List Char} (hf : KeepsCode f) (hg : KeepsCode g) :
    KeepsCode fun cs => f (g cs) where
  quiet := fun cs h => hf.quiet _ (hg.quiet cs h)
  mode := fun cs h => (hf.mode _ (hg.quiet cs h)).trans (hg.mode cs h)
  newline := by
    intro cs
    obtain ⟨more, hmore⟩ := hg.newline cs
    rw [hmore]
    exact hf.newline more

variable {before : Option Char} {cs new behind : List Char}

theorem keywordPattern_eq_some (h : keywordPattern before cs = some (new, behind)) :
    ∃ w ∈ spacedKeywords, before.any isWord = false ∧ cs = (w.toList ++ ['(']) ++ behind ∧
      new = w.toList ++ [' ', '('] := by
  obtain ⟨w, hw, hmatch⟩ := exists_of_findSome?_eq_some h
  simp only [bind_eq_bind, bind_eq_some_iff, Option.pure_def,
    some.injEq, Prod.mk.injEq] at hmatch
  obtain ⟨rest, hstart, rest', hbracket, rfl, rfl⟩ := hmatch
  refine ⟨w, hw, wordStart?_boundary hstart, ?_, rfl⟩
  rw [wordStart?_eq_some hstart, afterChar?_eq_some hbracket, append_assoc,
    singleton_append]

theorem keywordPattern_keepsLayout : KeepsLayout keywordPattern := by
  intro before cs new behind h
  obtain ⟨w, hw, -, hcs, rfl⟩ := keywordPattern_eq_some h
  have hwords : ∀ w ∈ spacedKeywords, (w.toList ++ ['(']).head? ≠ some '\n' ∧
      (w.toList ++ ['(']).all isPlain = true ∧ (w.toList ++ [' ', '(']).all isPlain = true := by
    decide
  obtain ⟨hhead, hpiece, hnew⟩ := hwords w hw
  exact ⟨w.toList ++ ['('], by simp, hhead, hcs, readsAlike_plain (by simp) (by simp) hpiece hnew⟩

theorem commaPattern_eq_some (h : commaPattern before cs = some (new, behind)) :
    ∃ c, isBlank c = false ∧ cs = [',', c] ++ behind ∧ new = [',', ' ', c] := by
  simp only [commaPattern, bind_eq_bind, bind_eq_some_iff] at h
  obtain ⟨rest, hcomma, hmatch⟩ := h
  rw [afterChar?_eq_some hcomma]
  split at hmatch
  · rename_i c rest
    split at hmatch
    · cases hmatch
    · rename_i hc
      cases hmatch
      exact ⟨c, Bool.eq_false_iff.2 hc, rfl, rfl⟩
  · cases hmatch

theorem commaPattern_keepsLayout : KeepsLayout commaPattern := by
  intro before cs new behind h
  obtain ⟨c, -, hcs, rfl⟩ := commaPattern_eq_some h
  refine ⟨[',', c], by simp, by simp, hcs, fun m hm hquiet => ?_⟩
  obtain ⟨hemit, hstep⟩ := Mode.step_plain hm (show isPlain ',' = true by decide)
  obtain ⟨hblank, hspace⟩ := Mode.step_plain (m := .code) rfl (show isPlain ' ' = true by decide)
  simp only [scan_cons, modeAfter_cons, hemit, hstep, hblank, hspace] at hquiet ⊢
  exact ⟨hquiet, trivial⟩

theorem braceBelowPattern_eq_some (h : braceBelowPattern before cs = some (new, behind)) :
    ∃ right left, right.all isSpaceOrTab = true ∧ left.all isSpaceOrTab = true ∧
      cs = (')' :: (right ++ '\n' :: (left ++ ['{']))) ++ behind ∧ new = [')', ' ', '{'] := by
  simp only [braceBelowPattern, bind_eq_bind, bind_eq_some_iff, Option.pure_def,
    some.injEq, Prod.mk.injEq] at h
  obtain ⟨rest, hclose, below, hline, tail, hopen, rfl, rfl⟩ := h
  refine ⟨rest.takeWhile isSpaceOrTab, below.takeWhile isSpaceOrTab, all_takeWhile,
    all_takeWhile, ?_, rfl⟩
  rw [afterChar?_eq_some hclose, cons_append, append_assoc, cons_append,
    append_assoc, singleton_append, ← afterChar?_eq_some hopen,
    takeWhile_append_dropWhile, ← afterChar?_eq_some hline, takeWhile_append_dropWhile]

theorem eq_of_mem_spaces {cs : List Char} (h : cs.all isSpaceOrTab = true) (hc : c ∈ cs) :
    c = ' ' ∨ c = '\t' := by
  simpa [isSpaceOrTab] using all_eq_true.1 h c hc

theorem isPlain_of_isSpaceOrTab {cs : List Char} (h : cs.all isSpaceOrTab = true) :
    cs.all isPlain = true := by
  refine all_eq_true.2 fun c hc => ?_
  rcases eq_of_mem_spaces h hc with rfl | rfl <;> decide

theorem braceBelowPattern_keepsLayout : KeepsLayout braceBelowPattern := by
  intro before cs new behind h
  obtain ⟨right, left, hright, hleft, hcs, rfl⟩ := braceBelowPattern_eq_some h
  refine ⟨_, by simp, by simp, hcs, readsAlike_plain (by simp) (by simp) ?_ (by decide)⟩
  simp only [all_cons, all_append, isPlain_of_isSpaceOrTab hright,
    isPlain_of_isSpaceOrTab hleft]
  decide

theorem braceTightPattern_eq_some (h : braceTightPattern before cs = some (new, behind)) :
    cs = [')', '{'] ++ behind ∧ new = [')', ' ', '{'] := by
  simp only [braceTightPattern, bind_eq_bind, bind_eq_some_iff, Option.pure_def,
    some.injEq, Prod.mk.injEq] at h
  obtain ⟨rest, hrest, rfl, rfl⟩ := h
  exact ⟨after?_eq_some hrest, rfl⟩

theorem braceTightPattern_keepsLayout : KeepsLayout braceTightPattern := by
  intro before cs new behind h
  obtain ⟨hcs, rfl⟩ := braceTightPattern_eq_some h
  exact ⟨[')', '{'], by simp, by simp, hcs,
    readsAlike_plain (by simp) (by simp) (by decide) (by decide)⟩

/-! What the rules do to a text, match by match. -/

section related

variable {r : List Char → List Char → Prop}

theorem keywordPattern_related (hr : PartByPart r)
    (h : ∀ w ∈ spacedKeywords, r (w.toList ++ ['(']) (w.toList ++ [' ', '('])) (cs : List Char) :
    r cs (replaceAll keywordPattern cs) := by
  refine hr.replaceAll keywordPattern_keepsLayout.reads (fun _ _ _ _ hmatch => ?_) cs
  obtain ⟨w, hw, -, hpiece, rfl⟩ := keywordPattern_eq_some hmatch
  rw [append_cancel_right hpiece]
  exact h w hw

theorem commaPattern_related (hr : PartByPart r)
    (h : ∀ c, isBlank c = false → r [',', c] [',', ' ', c]) (cs : List Char) :
    r cs (replaceAll commaPattern cs) := by
  refine hr.replaceAll commaPattern_keepsLayout.reads (fun _ _ _ _ hmatch => ?_) cs
  obtain ⟨c, hc, hpiece, rfl⟩ := commaPattern_eq_some hmatch
  rw [append_cancel_right hpiece]
  exact h c hc

theorem braceBelowPattern_related (hr : PartByPart r)
    (h : ∀ right left : List Char, right.all isSpaceOrTab = true → left.all isSpaceOrTab = true →
      r (')' :: (right ++ '\n' :: (left ++ ['{']))) [')', ' ', '{']) (cs : List Char) :
    r cs (replaceAll braceBelowPattern cs) := by
  refine hr.replaceAll braceBelowPattern_keepsLayout.reads (fun _ _ _ _ hmatch => ?_) cs
  obtain ⟨right, left, hright, hleft, hpiece, rfl⟩ := braceBelowPattern_eq_some hmatch
  rw [append_cancel_right hpiece]
  exact h right left hright hleft

theorem braceTightPattern_related (hr : PartByPart r) (h : r [')', '{'] [')', ' ', '{'])
    (cs : List Char) : r cs (replaceAll braceTightPattern cs) := by
  refine hr.replaceAll braceTightPattern_keepsLayout.reads (fun _ _ _ _ hmatch => ?_) cs
  obtain ⟨hpiece, rfl⟩ := braceTightPattern_eq_some hmatch
  rw [append_cancel_right hpiece]
  exact h

end related

/-- The text after the rules for the layout of code. -/
def layOut (cs : List Char) : List Char :=
  mapCode (fun text => replaceAll braceTightPattern (replaceAll braceBelowPattern text))
    (mapCode (replaceAll commaPattern) (mapCode (replaceAll keywordPattern) cs))

theorem marks_layOut (cs : List Char) : marks (layOut cs) = marks cs := by
  rw [layOut, marks_mapCode (braceTightPattern_keepsLayout.keepsCode.comp
      braceBelowPattern_keepsLayout.keepsCode),
    marks_mapCode commaPattern_keepsLayout.keepsCode,
    marks_mapCode keywordPattern_keepsLayout.keepsCode]

/-! ## 2. Bare definitions of `main` -/

/-- Every bare definition of `main` begins in code. -/
def MainsInCode (cs : List Char) : Prop :=
  ∀ front rest, cs = front ++ rest → (bareMainPattern front.getLast? rest).isSome = true →
    lastKind front = .code

/-- The bare definition of `main` with these gaps. -/
def bareMain (gap inner last : List Char) : List Char :=
  ['i', 'n', 't'] ++ (gap ++ (['m', 'a', 'i', 'n'] ++ (inner ++ (['('] ++ (last ++ [')'])))))

/-- The definition without its last bracket. -/
def openMain (gap inner last : List Char) : List Char :=
  'i' :: (['n', 't'] ++ (gap ++ (['m', 'a', 'i', 'n'] ++ (inner ++ (['('] ++ last)))))

theorem bareMain_eq (gap inner last : List Char) :
    bareMain gap inner last = openMain gap inner last ++ [')'] := by
  simp [bareMain, openMain]

theorem not_mem_blank (hc : isBlank c = false) (hgap : gap.all isBlank = true) : c ∉ gap := by
  intro hmem
  rw [all_eq_true.1 hgap c hmem] at hc
  cases hc

theorem not_mem_openMain (hc : isBlank c = false) (hletters : c ∉ "intmain(".toList)
    (hgap : gap.all isBlank = true) (hinner : inner.all isBlank = true)
    (hlast : last.all isBlank = true) : c ∉ openMain gap inner last := by
  simp only [String.reduceToList, mem_cons, not_or] at hletters
  simp [openMain, not_mem_blank hc hgap, not_mem_blank hc hinner, not_mem_blank hc hlast, hletters]

def voidMain : List Char :=
  ['i', 'n', 't'] ++ ([' '] ++ (['m', 'a', 'i', 'n'] ++ (['('] ++ ['v', 'o', 'i', 'd', ')'])))

theorem blanks?_eq_some {cs : List Char} (h : blanks? cs = some rest) :
    ∃ gap, gap.all isBlank = true ∧ cs = gap ++ rest := by
  rw [blanks?] at h
  split at h
  · rw [← some.inj h]
    exact ⟨cs.takeWhile isBlank, all_takeWhile, takeWhile_append_dropWhile.symm⟩
  · cases h

theorem bareMainPattern_eq_some (h : bareMainPattern before cs = some (new, behind)) :
    ∃ gap inner last, gap.all isBlank = true ∧ inner.all isBlank = true ∧
      last.all isBlank = true ∧ cs = bareMain gap inner last ++ behind ∧
      new = voidMain := by
  simp only [bareMainPattern, bind_eq_bind, bind_eq_some_iff, Option.pure_def,
    some.injEq, Prod.mk.injEq] at h
  obtain ⟨r₁, hint, r₂, hgap, r₃, hmain, r₄, hopen, r₅, hclose, rfl, rfl⟩ := h
  obtain ⟨gap, hblank, rfl⟩ := blanks?_eq_some hgap
  refine ⟨gap, r₃.takeWhile isBlank, r₄.takeWhile isBlank, hblank, all_takeWhile,
    all_takeWhile, ?_, by simp [voidMain]⟩
  have hinner : r₃ = r₃.takeWhile isBlank ++ '(' :: r₄ := by
    rw [← afterChar?_eq_some hopen, dropBlank, takeWhile_append_dropWhile]
  have hlast : r₄ = r₄.takeWhile isBlank ++ ')' :: r₅ := by
    rw [← afterChar?_eq_some hclose, dropBlank, takeWhile_append_dropWhile]
  rw [wordStart?_eq_some hint, after?_eq_some hmain]
  simp only [bareMain, String.reduceToList, append_assoc, cons_append, nil_append,
    ← hlast, ← hinner]

theorem bareMain_ne_nil (gap inner last : List Char) : bareMain gap inner last ≠ [] :=
  cons_ne_nil _ _

theorem bareMainPattern_reads : bareMainPattern.Reads := by
  intro before cs new behind h
  obtain ⟨gap, inner, last, -, -, -, hcs, -⟩ := bareMainPattern_eq_some h
  exact ⟨_, bareMain_ne_nil gap inner last, hcs⟩

theorem bareMainPattern_related {r : List Char → List Char → Prop} (hr : PartByPart r)
    (h : ∀ gap inner last : List Char, gap.all isBlank = true → inner.all isBlank = true →
      last.all isBlank = true → r (bareMain gap inner last) voidMain) (cs : List Char) :
    r cs (replaceAll bareMainPattern cs) := by
  refine hr.replaceAll bareMainPattern_reads (fun _ _ _ _ hmatch => ?_) cs
  obtain ⟨gap, inner, last, hgap, hinner, hlast, hpiece, rfl⟩ := bareMainPattern_eq_some hmatch
  rw [append_cancel_right hpiece]
  exact h gap inner last hgap hinner hlast

/-! In code the definition reads as its replacement. -/

theorem bareMain_plain (hgap : gap.all isBlank = true) (hinner : inner.all isBlank = true)
    (hlast : last.all isBlank = true) :
    (bareMain gap inner last).all isPlain = true := by
  have hblank : ∀ text : List Char, text.all isBlank = true → text.all isPlain = true :=
    fun text h => all_eq_true.2 fun c hc => isPlain_of_isBlank (all_eq_true.1 h c hc)
  simp only [bareMain, all_append, hblank gap hgap, hblank inner hinner, hblank last hlast]
  decide

/-! In a mark it does not: the scanner sees the characters of both. -/

/-- A visible character that means nothing to the scanner. -/
def isInner (c : Char) : Bool :=
  isPlain c && c != '\\' && !isBlank c

/-- The mode after a character that means nothing. -/
def Mode.settled : Mode → Mode
  | .code => .code
  | .slash => .code
  | .literal kind => .literal kind
  | .shielded kind => .literal kind
  | .line => .line
  | .block => .block
  | .star => .block

theorem Mode.settled_settled (m : Mode) : m.settled.settled = m.settled := by
  cases m <;> rfl

theorem Mode.settled_kind (m : Mode) : m.settled.kind = m.kind := by
  cases m <;> rfl

theorem Mode.step_inner (hm : m.kind ≠ .code) (hc : isInner c = true) :
    m.emit c = [.inside c] ∧ m.step c = m.settled := by
  simp only [isInner, isPlain, Bool.and_eq_true, bne_iff_ne, Bool.not_eq_true'] at hc
  obtain ⟨⟨⟨⟨⟨h₁, h₂⟩, h₃⟩, h₄⟩, h₅⟩, hvisible⟩ := hc
  have hnewline : c ≠ '\n' := by
    rintro rfl
    cases hvisible
  cases m with
  | code => exact absurd rfl hm
  | slash => exact absurd rfl hm
  | literal kind =>
    have hquote : c ≠ kind.quote := by cases kind <;> assumption
    simp [emit, step, settled, h₅, hquote, hnewline]
  | _ => simp [emit, step, settled, h₃, h₄, hnewline]

/-- What the scanner says of visible characters that stand in a mark. -/
theorem bareScan_inner (hm : m.kind ≠ .code) (hne : word ≠ []) (hword : word.all isInner = true)
    (cs : List Char) :
    bareScan m (word ++ cs) = word.map .inside ++ bareScan m.settled cs := by
  induction word generalizing m with
  | nil => exact absurd rfl hne
  | cons c word ih =>
    rw [all_cons, Bool.and_eq_true] at hword
    obtain ⟨hemit, hstep⟩ := Mode.step_inner hm hword.1
    have hvisible : isBlank c = false := by
      have hc := hword.1
      simp only [isInner, Bool.and_eq_true, Bool.not_eq_true'] at hc
      exact hc.2
    rw [cons_append, bareScan_cons, hemit, hstep]
    have hseen : ([.inside c] : List Token).filter (fun t => !t.isBlank) = [.inside c] := by
      simp [Token.isBlank, hvisible]
    rw [hseen]
    cases word with
    | nil => rfl
    | cons d word =>
      have hrest := ih (m := m.settled) (m.settled_kind ▸ hm) (cons_ne_nil d word) hword.2
      rw [hrest, m.settled_settled]
      rfl

theorem modeAfter_settled_gap (hm : m.kind ≠ .code) (hgap : gap.all isBlank = true) :
    modeAfter m.settled gap = m.settled ∨ modeAfter m.settled gap = .code := by
  cases m with
  | code => exact absurd rfl hm
  | slash => exact absurd rfl hm
  | literal kind | shielded kind =>
    rw [Mode.settled, modeAfter_literal_gap kind hgap]
    split
    · exact .inr rfl
    · exact .inl rfl
  | line =>
    rw [Mode.settled, modeAfter_line_gap hgap]
    split
    · exact .inr rfl
    · exact .inl rfl
  | block => exact .inl (modeAfter_block_gap hgap)
  | star => exact .inl (modeAfter_block_gap hgap)

/-- Where more of the mark follows a gap, the gap did not end the mark. -/
theorem bareScan_settled_gap (hm : m.kind ≠ .code) (hgap : gap.all isBlank = true) {cs : List Char}
    {more : List Token} (h : bareScan m.settled (gap ++ cs) = .inside c :: more) :
    bareScan m.settled cs = .inside c :: more := by
  rw [bareScan_append, bareScan_blank _ hgap, nil_append] at h
  rcases modeAfter_settled_gap hm hgap with hmode | hmode
  · rwa [hmode] at h
  · rw [hmode] at h
    exact absurd h (bareScan_code_ne_inside cs c more)

theorem bareScan_settled_space (hm : m.kind ≠ .code) (cs : List Char) :
    bareScan m.settled (' ' :: cs) = bareScan m.settled cs := by
  rw [bareScan_cons, Mode.emit_blank _ (by decide), nil_append]
  congr 1
  cases m with
  | code => exact absurd rfl hm
  | slash => exact absurd rfl hm
  | literal kind | shielded kind => exact Mode.step_literal_blank kind (by decide)
  | _ => rfl

/-- Words of a mark are compared word by word, whatever the gaps before them. -/
theorem bareScan_settled_word (hm : m.kind ≠ .code) (hgap : gap.all isBlank = true)
    (hne : word ≠ []) (hword : word.all isInner = true) {cs : List Char} {said : List Token}
    (h : bareScan m.settled (gap ++ (word ++ cs)) = word.map .inside ++ said) :
    bareScan m.settled cs = said := by
  cases word with
  | nil => exact absurd rfl hne
  | cons c word =>
    have hseen := bareScan_settled_gap hm hgap h
    rw [bareScan_inner (m.settled_kind ▸ hm) hne hword, m.settled_settled] at hseen
    exact append_cancel_left hseen

theorem bareMain_in_mark (hm : m.kind ≠ .code) (hgap : gap.all isBlank = true)
    (hinner : inner.all isBlank = true) (hlast : last.all isBlank = true) (behind out : List Char) :
    bareScan m (voidMain ++ out) ≠ bareScan m (bareMain gap inner last ++ behind) := by
  intro h
  have hword : ∀ word : List Char, word ≠ [] → word.all isInner = true → ∀ cs,
      bareScan m.settled (word ++ cs) = word.map .inside ++ bareScan m.settled cs := by
    intro word hne hword cs
    rw [bareScan_inner (m.settled_kind ▸ hm) hne hword, m.settled_settled]
  simp only [voidMain, bareMain, append_assoc] at h
  rw [bareScan_inner hm (by decide) (by decide), bareScan_inner hm (by decide) (by decide),
    append_cancel_left_eq, singleton_append, bareScan_settled_space hm,
    hword ['m', 'a', 'i', 'n'] (by decide) (by decide)] at h
  have hopen := bareScan_settled_word hm hgap (by decide) (by decide) h.symm
  rw [hword ['('] (by decide) (by decide)] at hopen
  have hclose := bareScan_settled_word hm hinner (by decide) (by decide) hopen
  rw [hword ['v', 'o', 'i', 'd', ')'] (by decide) (by decide)] at hclose
  -- where one closes the list of parameters, the other says that there are none
  have hseen := bareScan_settled_gap hm hlast hclose
  rw [hword [')'] (by decide) (by decide)] at hseen
  exact absurd (Token.inside.inj (cons.inj hseen).1) (by decide)

def MainsFrom (front cs : List Char) : Prop :=
  ∀ more rest, cs = more ++ rest →
    (bareMainPattern (front ++ more).getLast? rest).isSome = true →
    (modeAfter .code (front ++ more)).kind = .code

theorem mainsInCode_iff (cs : List Char) : MainsInCode cs ↔ MainsFrom [] cs := by
  simp only [MainsInCode, MainsFrom, lastKind_eq, nil_append]

theorem mainsFrom_keep (h : bareMainPattern front.getLast? (c :: rest) = none) :
    MainsFrom front (c :: rest) ↔ MainsFrom (front ++ [c]) rest := by
  constructor
  · intro hmains more behind hrest hmatch
    have happend : front ++ c :: more = front ++ [c] ++ more := by simp
    rw [← happend] at hmatch ⊢
    exact hmains (c :: more) behind (by rw [hrest, cons_append]) hmatch
  · intro hmains more behind hcs hmatch
    cases more with
    | nil =>
      rw [append_nil, ← nil_append behind, ← hcs, h] at hmatch
      cases hmatch
    | cons d more =>
      obtain ⟨rfl, hrest⟩ := cons.inj hcs
      have happend : front ++ c :: more = front ++ [c] ++ more := by simp
      rw [happend] at hmatch ⊢
      exact hmains more behind hrest hmatch

theorem mainsFrom_append {behind : List Char} (hm : (modeAfter .code front).kind = .code)
    (hquiet : scan (modeAfter .code front) piece = []) :
    MainsFrom front (piece ++ behind) ↔ MainsFrom (front ++ piece) behind := by
  constructor
  · intro hmains more rest hbehind hmatch
    rw [append_assoc] at hmatch ⊢
    exact hmains (piece ++ more) rest (by rw [hbehind, append_assoc]) hmatch
  · intro hmains more rest hcs hmatch
    rcases append_eq_append_iff.1 hcs with ⟨past, rfl, hpast⟩ | ⟨left, hleft, -⟩
    · rw [← append_assoc] at hmatch ⊢
      exact hmains past rest hpast hmatch
    · rw [hleft, scan_append, append_eq_nil_iff] at hquiet
      rw [modeAfter_append]
      exact modeAfter_kind_of_quiet hm hquiet.1

theorem mainsFrom_nil (front : List Char) : MainsFrom front [] := by
  intro more rest hcs hmatch
  rw [(append_eq_nil_iff.1 hcs.symm).2] at hmatch
  cases hint : bareMainPattern (front ++ more).getLast? [] with
  | none =>
    rw [hint] at hmatch
    cases hmatch
  | some read =>
    obtain ⟨piece, hpiece, hcs⟩ := bareMainPattern_reads _ _ _ _ hint
    exact absurd (append_eq_nil_iff.1 hcs.symm).1 hpiece

/-- Definitions of `main` in code, and only those, are rewritten without a change to a mark. -/
theorem bareScan_bareMain (cs : List Char) :
    bareScan .code (replaceAll bareMainPattern cs) = bareScan .code cs ↔ MainsInCode cs := by
  rw [mainsInCode_iff]
  have hwalk := replaceAll_induct bareMainPattern_reads
    (motive := fun front cs out =>
      (bareScan (modeAfter .code front) out = bareScan (modeAfter .code front) cs ↔
        MainsFrom front cs))
  refine hwalk (fun front => iff_of_true rfl (mainsFrom_nil front)) ?_ ?_ cs
  · intro front c rest out hkeep ih
    rw [mainsFrom_keep hkeep, ← ih, bareScan_cons, bareScan_cons, append_cancel_left_eq,
      modeAfter_append]
    rfl
  · intro front piece behind new out hpiece hmatch ih
    obtain ⟨gap, inner, last, hgap, hinner, hlast, hread, rfl⟩ := bareMainPattern_eq_some hmatch
    obtain rfl := append_cancel_right hread
    by_cases hm : (modeAfter .code front).kind = .code
    · obtain ⟨hquiet, hmode⟩ := scan_plain hm hpiece (bareMain_plain hgap hinner hlast)
      obtain ⟨hquiet', hmode'⟩ := scan_plain hm (by decide)
        (show voidMain.all isPlain = true by decide)
      rw [mainsFrom_append hm hquiet, ← ih, bareScan_append, bareScan_append, modeAfter_append,
        hmode, hmode', bareScan_of_quiet hquiet, bareScan_of_quiet hquiet']
      rfl
    · refine iff_of_false (bareMain_in_mark hm hgap hinner hlast behind out) fun hmains => hm ?_
      have hhere := hmains [] (bareMain gap inner last ++ behind) rfl
        (by rw [append_nil, hmatch]; rfl)
      rwa [append_nil] at hhere

end CodeAssist.Offline
