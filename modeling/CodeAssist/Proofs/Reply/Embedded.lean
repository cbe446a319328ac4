import CodeAssist.Proofs.Json.Extent
import CodeAssist.Proofs.Text.Trimming
import CodeAssist.Reply.Embedded

/-!
The object in a reply.

A reply is searched in two ways: the whole of it may be the object, and else the text from the first
brace to its partner is taken. The second way knows nothing of JSON but quotes, backslashes and
braces. Both come to the same: an object that follows a text without a brace is found, in whatever
way it is written and whatever comes behind it.
-/

namespace CodeAssist.Reply

open Text Json
open Json (Quoted Closed isPlain isSpace)

/-! ## 1. Scanning -/

theorem balanced_quoted {body : List Char} (h : Quoted body) (depth : Nat) (rest : List Char) :
    balanced .inString depth (body ++ '"' :: rest) =
      (balanced .code depth rest).map fun found => body ++ '"' :: found := by
  induction h with
  | nil => rfl
  | plain hquote hslash _ ih =>
    simp [balanced, hquote, hslash, ih, Function.comp_def]
  | shielded c _ ih =>
    simp [balanced, ih, Function.comp_def]

theorem balanced_closed {cs : List Char} (h : Closed cs) {depth : Nat} (hdepth : 0 < depth)
    (rest : List Char) :
    balanced .code depth (cs ++ rest) =
      (balanced .code depth rest).map fun found => cs ++ found := by
  induction h generalizing depth rest with
  | nil => simp
  | plain hc _ ih =>
    simp only [isPlain, Bool.and_eq_true, bne_iff_ne, ne_eq] at hc
    obtain ⟨⟨hquote, hopen⟩, hclose⟩ := hc
    simp [balanced, hquote, hopen, hclose, ih hdepth, Function.comp_def]
  | string hbody _ ih =>
    simp [balanced, balanced_quoted hbody, ih hdepth, Function.comp_def]
  | braces _ _ ihinner ih =>
    -- the scan goes one level down and comes back up at the partner of the brace
    have hup : ¬depth + 1 ≤ 1 := by omega
    simp [balanced, ihinner (Nat.succ_pos depth), hup, ih hdepth, Function.comp_def]

theorem balanced_braces {inner : List Char} (h : Closed inner) (rest : List Char) :
    balanced .code 0 ('{' :: (inner ++ '}' :: rest)) = some ('{' :: (inner ++ ['}'])) := by
  have hinner := balanced_closed h Nat.one_pos ('}' :: rest)
  simp [balanced, hinner]

theorem dropWhile_brace {before : List Char} (h : '{' ∉ before) (rest : List Char) :
    (before ++ '{' :: rest).dropWhile (· != '{') = '{' :: rest := by
  rw [List.dropWhile_append_of_pos]
  · rfl
  · intro c hc
    rw [bne_iff_ne]
    rintro rfl
    exact h hc

/-! ## 2. The whole reply -/

theorem isSpace_of_isBlank {c : Char} (h : isBlank c = false) : isSpace c = false := by
  rw [← Bool.not_eq_true]
  intro hspace
  simp only [isSpace, Bool.or_eq_true, beq_iff_eq] at hspace
  rcases hspace with ((rfl | rfl) | rfl) | rfl <;> cases h

theorem isObject_canonical (j : Json) : j.canonical.isObject = j.isObject := by
  cases j <;> rfl

theorem objectOnly_opening {c : Char} (hblank : isBlank c = false) (hc : c ≠ '{')
    (cs : List Char) : objectOnly ((parseChars (c :: cs)).map canonical) = none := by
  cases hparse : parseChars (c :: cs) with
  | none => rfl
  | some j =>
    obtain ⟨rest, hvalue⟩ := exists_of_parseChars hparse
    have hobject := isObject_of_opening (isSpace_of_isBlank hblank) hc hvalue
    simp [objectOnly, Option.filter, isObject_canonical, hobject]

section Found

variable {j : Json} {inner : List Char}
  (hread : ∀ fuel other, inner.length < fuel →
    value fuel maxDepth ('{' :: (inner ++ '}' :: other)) = some (j, other))
  (hobject : j.isObject = true)

include hread

theorem parseChars_braces (rest : List Char) :
    parseChars ('{' :: (inner ++ '}' :: rest)) =
      if (skipSpace rest).isEmpty then some j else none := by
  have hfuel : inner.length < ('{' :: (inner ++ '}' :: rest)).length := by
    rw [List.length_cons, List.length_append]
    omega
  rw [parseChars, parseHead, hread _ rest hfuel]
  rfl

include hobject

theorem objectOnly_braces (rest : List Char) :
    objectOnly ((parseChars ('{' :: (inner ++ '}' :: rest))).map canonical) =
      if (skipSpace rest).isEmpty then some j.canonical else none := by
  rw [parseChars_braces hread rest]
  split
  · simp [objectOnly, Option.filter, isObject_canonical, hobject]
  · rfl

/-- Behind a text without a brace, an object is found by its braces. -/
theorem embeddedIn_braces (hinner : Closed inner) {before : List Char} (hbefore : '{' ∉ before)
    (behind : List Char) :
    embeddedIn (before ++ '{' :: (inner ++ '}' :: behind)) = some j.canonical := by
  have hscan : balanced .code 0
      ((before ++ '{' :: (inner ++ '}' :: behind)).dropWhile (· != '{')) =
        some ('{' :: (inner ++ ['}'])) := by
    rw [dropWhile_brace hbefore, balanced_braces hinner]
  have hcandidate : objectOnly
      ((parseChars ('{' :: (inner ++ ['}']))).map canonical) = some j.canonical :=
    objectOnly_braces hread hobject []
  rw [embeddedIn]
  by_cases hblank : before.all isBlank = true
  · -- the whole text opens with the object
    rw [strip_append hblank, strip_cons (by decide), dropBlankEnd_append_cons (by decide),
      objectOnly_braces hread hobject]
    split
    · rename_i found hfound
      split at hfound <;> cases hfound
      rfl
    · simp only [hscan, hcandidate]
  · -- the whole text opens with something else
    obtain ⟨ws, c, more, rfl, hws, hc⟩ := exists_dropBlank (Bool.eq_false_iff.2 hblank)
    have hbrace : c ≠ '{' := by
      rintro rfl
      exact hbefore (by simp)
    rw [show ws ++ c :: more ++ '{' :: (inner ++ '}' :: behind) =
      ws ++ c :: (more ++ '{' :: (inner ++ '}' :: behind)) by simp] at hscan ⊢
    rw [strip_append hws, strip_cons hc, objectOnly_opening hc hbrace]
    simp only [hscan, hcandidate]

end Found

/-! ## 3. The main result -/

/-- An object that a text writes in any way is found in every reply that has the text behind
something without a brace. -/
theorem embedded_finds_object (before text behind : String) (j : Json)
    (hread : Json.read text = some j) (hobject : j.isObject = true)
    (hbefore : '{' ∉ before.toList) : embedded (before ++ text ++ behind) = some j := by
  obtain ⟨written, hparse, rfl⟩ := Option.map_eq_some_iff.1 hread
  rw [isObject_canonical] at hobject
  -- the reader says where the object stands in the text
  obtain ⟨rest, hvalue⟩ := Json.exists_of_parseChars hparse
  obtain ⟨ws, inner, htext, hws, hinner, hall⟩ := Json.object_extent hvalue hobject
  have hspace : '{' ∉ before.toList ++ ws := by
    intro hmem
    rcases List.mem_append.1 hmem with hmem | hmem
    · exact hbefore hmem
    · exact absurd (List.all_eq_true.1 hws _ hmem) (by decide)
  have hwhole : (before ++ text ++ behind).toList =
      (before.toList ++ ws) ++ '{' :: (inner ++ '}' :: (rest ++ behind.toList)) := by
    simp [htext]
  rw [embedded, hwhole]
  exact embeddedIn_braces hall hobject hinner hspace _

/-- A text that writes an object: a blank before it, a key with an escaped quote and a brace, a
string that ends in a backslash, a brace in a string. -/
def trickyText : String :=
  " \x7b\"a\x7d\\\"\" : [\"\\\\\", \x7b\"b\":\"\x7b\"\x7d]\x7d"

def trickyObject : Json :=
  .object [("a\x7d\"", .array [.text "\\", .object [("b", .text "\x7b")]])]

/-- The object stands in a fence behind prose with a quote and a backslash, and before other
braces. -/
theorem embedded_finds_object_fenced :
    Json.read trickyText = some trickyObject ∧ trickyObject.isObject = true ∧
    '{' ∉ "As \\\"JSON:\n```json\n".toList ∧
    embedded ("As \\\"JSON:\n```json\n" ++ trickyText ++ "\n```\n\x7d \" \x7b\"c\": 1\x7d") =
      some trickyObject := by
  have hread : Json.read trickyText = some trickyObject := by cbv
  have hbefore : '{' ∉ "As \\\"JSON:\n```json\n".toList := by decide
  exact ⟨hread, rfl, hbefore, embedded_finds_object _ _ _ _ hread rfl hbefore⟩

end CodeAssist.Reply
