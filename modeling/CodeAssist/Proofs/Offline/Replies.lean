import CodeAssist.Offline.Provider
import CodeAssist.Proofs.Memory.Reread
import CodeAssist.Proofs.Offline.Visible
import CodeAssist.Proofs.Prompt.Window
import CodeAssist.Session.Basic

/-!
The answers of the offline provider are accepted, and nothing of them is lost.

An analysis is the text of a JSON object. Reading that text finds the object again
(`embedded_objectReply`), and the fields of the outcome in it as they were worded. Only the lines
of a review are numbers. If one of them does not fit a word, the object is not found as it was
written, but a review is accepted from any text that opens with a brace: its prose is the whole
text, and the first line of that is neither a fence nor a list line.
-/

namespace CodeAssist.Reply

open Text List Json

/-! ## 1. Openings -/

theorem prose_brace (cs : List Char) :
    ∃ t, (prose (String.ofList ('{' :: cs))).toList = '{' :: t := by
  obtain ⟨line, more, hlines⟩ : ∃ line more, lines ('{' :: cs) = ('{' :: line) :: more :=
    lines_word (cons_ne_nil '{' []) (by simp) cs
  have hfence : isFence ('{' :: line) = false := by
    simp [isFence, fenceTag?, dropBlank, show isBlank '{' = false by decide, after?, fenceMark]
  obtain ⟨t, ht⟩ := joinWith_cons ['\n'] '{' line (proseLines false more)
  refine ⟨dropBlankEnd t, ?_⟩
  rw [prose, String.toList_ofList, String.toList_ofList, hlines, proseLines, hfence]
  simp only [Bool.false_eq_true, if_false]
  rw [ht, strip_cons (by decide)]

/-- The first line of a text that opens with a brace is no list line. -/
theorem splitList_brace (text : String) (cs : List Char) (h : text.toList = '{' :: cs) :
    ∃ t, (splitList text).1.toList = '{' :: t := by
  obtain ⟨line, more, hlines⟩ : ∃ line more, lines ('{' :: cs) = ('{' :: line) :: more :=
    lines_word (cons_ne_nil '{' []) (by simp) cs
  have hmarker : afterMarker? (dropBlank ('{' :: line)) = none := by
    rw [dropBlank, dropWhile_cons, show isBlank '{' = false by decide]
    rfl
  obtain ⟨t, ht⟩ := joinWith_cons ['\n'] '{' line (splitItems more).1
  refine ⟨dropBlankEnd t, ?_⟩
  rw [splitList, h, hlines, splitItems, hmarker, String.toList_ofList, ht,
    strip_cons (by decide)]

theorem review_brace (r : Reply) (cs : List Char) (h : r.text = String.ofList ('{' :: cs)) :
    ∃ value, r.review = .ok value := by
  obtain ⟨t, ht⟩ := prose_brace cs
  obtain ⟨u, hu⟩ := splitList_brace _ t ht
  unfold review
  dsimp only
  split
  · exact ⟨_, rfl⟩
  · have hsummary : (splitList (prose r.text)).1.isEmpty = false := by
      rw [h, Bool.eq_false_iff]
      intro hempty
      rw [String.isEmpty_iff.1 hempty] at hu
      cases hu
    rw [hsummary]
    exact ⟨_, rfl⟩

/-! ## 2. Objects -/

/-- The text of an object is found in a reply that is that text. -/
theorem embedded_render {fields : List (String × Json)} {value : Json}
    (h : reread maxDepth (.object fields) = some value) :
    embedded (object fields).render = some value.canonical := by
  have hobject : value.canonical.isObject = true := by
    simp only [maxDepth, reread] at h
    obtain ⟨read, -, hread⟩ := Option.map_eq_some_iff.1 h
    rw [← hread]
    rfl
  have hstrip : strip (compact (.object fields)) = compact (.object fields) := by
    rw [compact, cons_append, strip_cons (by decide),
      dropBlankEnd_append_single (by decide)]
  have hparse : parseChars (compact (.object fields)) = some value := by
    rw [compact_eq 0, parseChars_spell, h]
  rw [embedded, render, String.toList_ofList, embeddedIn, hstrip, hparse]
  simp [objectOnly, Option.filter, hobject]

theorem textsMember_ofTexts {object : Json} {key : String} {ts : List String}
    (hget : object.get? key = some (ofTexts ts)) (hts : ∀ t ∈ ts, isFramed t = true) :
    textsMember object key = ts := by
  have hitems : (ts.map Json.text).filterMap Json.asText? = ts := by
    rw [filterMap_map]
    exact filterMap_some
  have htrim : ts.map trim = ts := by
    rw [map_congr_left fun t ht => trim_of_isFramed (hts t ht), map_id']
  have hkept : (ts.filter fun s => !s.isEmpty) = ts := by
    rw [filter_eq_self]
    intro t ht
    rw [isEmpty_of_isFramed (hts t ht)]
    rfl
  rw [textsMember, hget]
  change (((ts.map Json.text).filterMap Json.asText?).map trim).filter _ = ts
  rw [hitems, htrim, hkept]

theorem severityOfLabel_name (severity : Severity) : severityOfLabel severity.name = severity := by
  cases severity <;> cbv

theorem canonical_issue (i : Issue) :
    i.toJson.canonical = .object ((i.line.map fun n => ("line", ofNat n)).toList ++
      [("message", .text i.message), ("severity", .text i.severity.name)]) := by
  obtain ⟨message, line, severity⟩ := i
  cases line <;> rfl

/-- An issue whose message ends visibly and whose line is counted from one is read back. -/
theorem issue?_toJson {i : Issue} (hmessage : endsVisibly i.message = true)
    (hline : ∀ n ∈ i.line, 0 < n) : issue? i.toJson.canonical = some i := by
  rw [canonical_issue]
  obtain ⟨message, line, severity⟩ := i
  have htrim : trimEnd message = message := trimEnd_of_endsVisibly hmessage
  have hblank : isBlankText message = false := isBlankText_of_endsVisibly hmessage
  have hseverity := severityOfLabel_name severity
  cases line with
  | none =>
    simp [issue?, textMember?, Json.get?, Json.lookup, Json.asText?, Option.filter, htrim, hblank,
      hseverity]
  | some n =>
    have hpos : 0 < n := hline n rfl
    simp [issue?, textMember?, Json.get?, Json.lookup, Json.asText?, Json.asNat?, Json.ofNat,
      Option.filter, htrim, hblank, hseverity, hpos]

theorem reread_issue {i : Issue} (hline : ∀ n ∈ i.line, n < Nat.pow 2 64) (depth : Nat) :
    reread (depth + 1) i.toJson.canonical = some i.toJson.canonical := by
  rw [canonical_issue]
  obtain ⟨message, line, severity⟩ := i
  cases line with
  | none => simp [reread, rereadFields]
  | some n => simp [reread, rereadFields, reread_ofNat _ (hline n rfl)]

end CodeAssist.Reply

namespace CodeAssist.Offline

open Text List Json Reply Prompt

/-- An object whose canonical form is read back as itself is found in that form in the reply that
carries it. -/
theorem embedded_objectReply {fields : List (String × Json)}
    (hreread : reread maxDepth (object fields).canonical =
      some (object fields).canonical) :
    embedded (objectReply (.object fields)).text = some (object fields).canonical := by
  rw [canonical] at hreread
  rw [objectReply, canonical, embedded_render hreread, ← canonical,
    canonical_canonical]

theorem objectReply_brace (fields : List (String × Json)) :
    ∃ cs, (objectReply (.object fields)).text = String.ofList ('{' :: cs) := by
  rw [objectReply, canonical, render, compact]
  exact ⟨_, rfl⟩

/-! ## 3. Answers -/

theorem canonical_tidied (t : Tidied) : t.toJson.canonical = t.toJson := by
  change object [("changes", canonical (ofTexts t.changes)),
    ("explanation", .text t.explanation), ("refactored_code", .text t.code)] = _
  rw [canonical_ofTexts]
  rfl

theorem embedded_tidied (t : Tidied) :
    embedded (objectReply t.toJson).text = some t.toJson := by
  rw [Tidied.toJson, embedded_objectReply, ← Tidied.toJson, canonical_tidied]
  rw [← Tidied.toJson, canonical_tidied]
  simp [Tidied.toJson, reread, rereadFields, maxDepth]

/-- Tidied code is accepted as a refactoring. Only blanks at the end of the code are lost. -/
theorem refactoring_tidy (code language : String) :
    (objectReply (tidy code).toJson).refactoring language code = .ok {
      code := trimEnd (tidy code).code
      explanation := (tidy code).explanation
      changes := (tidy code).changes
      provider := providerName } := by
  have hmember : textMember? (tidy code).toJson "refactored_code" =
      some (trimEnd (tidy code).code) := rfl
  have hexplanation : textMember (tidy code).toJson "explanation" =
      (tidy code).explanation := trimEnd_of_endsVisibly (tidy_explanation_visible code)
  have hchanges : textsMember (tidy code).toJson "changes" = (tidy code).changes :=
    textsMember_ofTexts rfl (tidy_changes_framed code)
  have hblank : (isBlankText (trimEnd (tidy code).code) && !isBlankText code) = false := by
    rw [Bool.and_eq_false_imp]
    intro htrimmed
    rw [isBlankText, trimEnd, String.toList_ofList] at htrimmed
    have hcode := isBlankText_of_tidy code (all_blank_of_dropBlankEnd htrimmed)
    rw [hcode]
    rfl
  unfold refactoring
  simp only [embedded_tidied, hmember, hexplanation, hchanges, Option.bind_eq_bind,
    Option.bind_some, hblank, Bool.false_eq_true, if_false]
  rfl

theorem embedded_advice (a : Advice) :
    embedded (objectReply a.toJson).text = some a.toJson := by
  have hcanonical : a.toJson.canonical = a.toJson := rfl
  rw [Advice.toJson, embedded_objectReply, ← Advice.toJson, hcanonical]
  rw [← Advice.toJson, hcanonical]
  simp [Advice.toJson, reread, rereadFields, maxDepth]

/-- Advice is accepted as a diagnosis. Only blanks at the end of the fix are lost. -/
theorem diagnosis_advice {a : Advice} (h : a.Worded) (language : String) :
    (objectReply a.toJson).diagnosis language = .ok {
      diagnosis := a.diagnosis
      suggestedFix := trimEnd a.suggestedFix
      explanation := a.explanation
      provider := providerName } := by
  have hmember : textMember? a.toJson "diagnosis" = some a.diagnosis :=
    congrArg some (trimEnd_of_endsVisibly h.diagnosis)
  have hfix : textMember a.toJson "suggested_fix" = trimEnd a.suggestedFix := rfl
  have hexplanation : textMember a.toJson "explanation" = a.explanation :=
    trimEnd_of_endsVisibly h.explanation
  unfold diagnosis
  simp only [embedded_advice, hmember, hfix, hexplanation, isEmpty_of_endsVisibly h.diagnosis,
    Option.bind_eq_bind, Option.bind_some, Bool.false_eq_true, if_false]
  rfl

theorem embedded_starter (s : Starter) :
    embedded (objectReply s.toJson).text = some s.toJson := by
  have hcanonical : s.toJson.canonical = s.toJson := rfl
  rw [Starter.toJson, embedded_objectReply, ← Starter.toJson, hcanonical]
  rw [← Starter.toJson, hcanonical]
  simp [Starter.toJson, reread, rereadItems, rereadFields, maxDepth]

/-- A starter program is accepted as generated files. Nothing of it is lost. -/
theorem generation_starter {s : Starter} (h : s.Worded) (language : String) :
    (objectReply s.toJson).generation language = .ok {
      files := [s.file]
      mainFile := some s.file.name
      explanation := s.explanation
      provider := providerName } := by
  obtain ⟨⟨name, content, purpose⟩, explanation⟩ := s
  obtain ⟨rfl, hpurpose, hexplanation⟩ := h
  have hname : trimEnd "main.c" = "main.c" := by decide
  have hfile : Reply.generatedFile? (.object [("content", .text content), ("name", .text "main.c"),
      ("purpose", .text purpose)]) = some ⟨"main.c", content, purpose⟩ := by
    have hsafe : Reply.isSafeName "main.c" = true := by decide
    simp [Reply.generatedFile?, Reply.textMember?, Reply.textMember, Json.get?, Json.lookup,
      Json.asText?, hname, hsafe, trimEnd_of_endsVisibly hpurpose]
  have hitems : ((Starter.toJson ⟨⟨"main.c", content, purpose⟩, explanation⟩).get? "files").bind
      Json.asArray? = some [.object [("content", .text content), ("name", .text "main.c"),
        ("purpose", .text purpose)]] := rfl
  have hwanted : Reply.textMember? (Starter.toJson ⟨⟨"main.c", content, purpose⟩, explanation⟩)
      "main_file" = some "main.c" := congrArg some hname
  have htext : Reply.textMember (Starter.toJson ⟨⟨"main.c", content, purpose⟩, explanation⟩)
      "explanation" = explanation := trimEnd_of_endsVisibly hexplanation
  have hmain : Reply.chooseMain [⟨"main.c", content, purpose⟩] (some "main.c") =
      some "main.c" := by
    simp [Reply.chooseMain, Option.filter]
  unfold Reply.generation
  simp only [embedded_starter, hitems, hwanted, htext, Option.bind_eq_bind, Option.bind_some,
    Option.pure_def, filterMap_cons, hfile, filterMap_nil, isEmpty_cons,
    Bool.false_eq_true, if_false, hmain]
  rfl

/-- Findings with line numbers of 64 bits are found in the reply that carries them. -/
theorem embedded_findings {f : Findings}
    (h : ∀ i ∈ f.issues, ∀ n ∈ i.line, n < Nat.pow 2 64) :
    embedded (objectReply f.toJson).text = some (.object [
      ("issues", .array (f.issues.map fun i => i.toJson.canonical)),
      ("suggestions", ofTexts f.suggestions), ("summary", .text f.summary)]) := by
  have hissues : (array (f.issues.map Issue.toJson)).canonical =
      .array (f.issues.map fun i => i.toJson.canonical) := by
    rw [canonical, canonicalItems_eq_map, map_map]
    rfl
  have hcanonical : f.toJson.canonical = .object [
      ("issues", .array (f.issues.map fun i => i.toJson.canonical)),
      ("suggestions", ofTexts f.suggestions), ("summary", .text f.summary)] := by
    change object [("issues", (array (f.issues.map Issue.toJson)).canonical),
      ("suggestions", (ofTexts f.suggestions).canonical), ("summary", .text f.summary)] = _
    rw [hissues, canonical_ofTexts]
  have hreread := reread_array (fun i : Issue => i.toJson.canonical) fun i hi =>
    reread_issue (h i hi) 124
  rw [Findings.toJson, embedded_objectReply, ← Findings.toJson, hcanonical]
  rw [← Findings.toJson, hcanonical]
  rw [maxDepth, reread]
  simp only [rereadFields, hreread, reread_ofTexts, reread_text]
  rfl

/-- The reply to a review is read as the findings it was made from. -/
theorem review_findings {f : Findings} {height : Nat} (h : f.Worded height)
    (hheight : height < Nat.pow 2 64) :
    (objectReply f.toJson).review = .ok {
      summary := f.summary
      issues := f.issues
      suggestions := f.suggestions
      provider := providerName } := by
  have hembedded := embedded_findings (f := f) fun i hi n hn => by
    obtain ⟨m, hm, -, hle⟩ := h.lines i hi
    rw [hm] at hn
    cases hn
    exact Nat.lt_of_le_of_lt hle hheight
  have hissues : (f.issues.map fun i => i.toJson.canonical).filterMap issue? = f.issues := by
    rw [filterMap_map, filterMap_congr (g := some), filterMap_some]
    intro i hi
    refine issue?_toJson (h.messages i hi) fun n hn => ?_
    obtain ⟨m, hm, hpos, -⟩ := h.lines i hi
    rw [hm] at hn
    cases hn
    exact hpos
  have hsummary : textMember (.object [
      ("issues", .array (f.issues.map fun i => i.toJson.canonical)),
      ("suggestions", ofTexts f.suggestions), ("summary", .text f.summary)]) "summary" =
      f.summary := trimEnd_of_endsVisibly h.summary
  have hsuggestions : textsMember (.object [
      ("issues", .array (f.issues.map fun i => i.toJson.canonical)),
      ("suggestions", ofTexts f.suggestions), ("summary", .text f.summary)]) "suggestions" =
      f.suggestions := textsMember_ofTexts rfl h.suggestions
  have hget : ((object [
      ("issues", .array (f.issues.map fun i => i.toJson.canonical)),
      ("suggestions", ofTexts f.suggestions),
      ("summary", .text f.summary)]).get? "issues").bind asArray? =
      some (f.issues.map fun i => i.toJson.canonical) := rfl
  unfold review
  simp only [hembedded, hsummary, hsuggestions, hget, Option.getD_some, hissues,
    isEmpty_of_endsVisibly h.summary, Option.bind_eq_bind, Option.bind_some, Bool.false_and,
    Bool.false_eq_true, if_false]
  rfl

/-- Any findings are accepted as a review: where they are not found as an object, the text that
carries them is the summary. -/
theorem review_accepts (f : Findings) : ∃ value, (objectReply f.toJson).review = .ok value := by
  obtain ⟨cs, hcs⟩ := objectReply_brace _
  exact review_brace (objectReply f.toJson) cs hcs

/-- The answer to the subject of a request is accepted for that request, and gives the same
whatever lines are around the cursor and in all languages. -/
theorem accept_answer_same (request : Request) (view : View) :
    ∃ value, ∀ (nearby : List NumberedLine) (language : String),
      request.accept language (answer (subjectOf request view nearby)) = .ok value := by
  cases request with
  | completion cursor selection =>
    exact ⟨.completion (answer (subjectOf (.completion cursor selection) view [])),
      fun _ _ => rfl⟩
  | refactor code intent =>
    obtain ⟨value, hvalue⟩ : ∃ value, ∀ language,
        (objectReply (tidy code).toJson).refactoring language code = .ok value :=
      ⟨_, refactoring_tidy code⟩
    refine ⟨.refactoring value, fun nearby language => ?_⟩
    rw [subjectOf, answer, Request.accept, hvalue]
    rfl
  | diagnosis errorMessage code =>
    obtain ⟨value, hvalue⟩ : ∃ value, ∀ language,
        (objectReply (diagnose errorMessage code).toJson).diagnosis language = .ok value :=
      ⟨_, diagnosis_advice (diagnose_worded errorMessage code)⟩
    refine ⟨.diagnosis value, fun nearby language => ?_⟩
    rw [subjectOf, answer, Request.accept, hvalue]
    rfl
  | generation prompt =>
    obtain ⟨value, hvalue⟩ : ∃ value, ∀ language,
        (objectReply (starter prompt).toJson).generation language = .ok value :=
      ⟨_, generation_starter (starter_worded prompt)⟩
    refine ⟨.generation value, fun nearby language => ?_⟩
    rw [subjectOf, answer, Request.accept, hvalue]
    rfl
  | review code focus =>
    obtain ⟨value, hvalue⟩ := review_accepts (reviewCode code focus)
    refine ⟨.review value, fun nearby language => ?_⟩
    rw [subjectOf, answer, Request.accept, hvalue]
    rfl

/-- The answer to any prompt for a request is accepted. -/
theorem accept_answer {config : Config} {request : Request} {view : View} {prompt : Prompt}
    (h : build config request view = .ok prompt) (language : String) :
    ∃ value, request.accept language (answer prompt.subject) = .ok value := by
  obtain ⟨nearby, -, rfl⟩ := build_eq_ok_iff.1 h
  obtain ⟨value, hvalue⟩ := accept_answer_same request view
  exact ⟨value, hvalue _ language⟩

/-! ## 4. Nothing lost -/

/-- Outcomes are read from the answers of the offline provider as they were made, in every
language. Tidied code and a suggested fix lose the blanks at their ends; all else is unchanged and
in order. The lines of code under review are numbered in 64 bits. -/
theorem answers_read_as_made (language : String) :
    (∀ code intent : String, (answer (.refactor code intent)).refactoring language code = .ok {
      code := trimEnd (tidy code).code
      explanation := (tidy code).explanation
      changes := (tidy code).changes
      provider := "local" }) ∧
    (∀ errorMessage code : String,
      (answer (.diagnosis errorMessage code)).diagnosis language = .ok {
        diagnosis := (diagnose errorMessage code).diagnosis
        suggestedFix := trimEnd (diagnose errorMessage code).suggestedFix
        explanation := (diagnose errorMessage code).explanation
        provider := "local" }) ∧
    (∀ prompt : String, (answer (.generation prompt)).generation language = .ok {
      files := [(starter prompt).file]
      mainFile := some (starter prompt).file.name
      explanation := (starter prompt).explanation
      provider := "local" }) ∧
    ∀ (code : String) (focus : List String), code.length < Nat.pow 2 64 →
      (answer (.review code focus)).review = .ok {
        summary := (reviewCode code focus).summary
        issues := (reviewCode code focus).issues
        suggestions := (reviewCode code focus).suggestions
        provider := "local" } := by
  refine ⟨?_, ?_, ?_, ?_⟩
  · intro code intent
    exact refactoring_tidy code language
  · intro errorMessage code
    exact diagnosis_advice (diagnose_worded errorMessage code) language
  · intro prompt
    exact generation_starter (starter_worded prompt) language
  · intro code focus hlength
    have hlines : (lines code.toList).length ≤ code.length := length_lines_le code.toList
    exact review_findings (reviewCode_worded code focus) (Nat.lt_of_le_of_lt hlines hlength)

/-- Code that looks like a reply, with two hazards. -/
def hazardousCode : String :=
  "\x7b\"summary\": \"\", // ```c\n\tgets(malloc(n)); \r\n"

def hazards : Findings where
  summary := "The local checks found 2 issues. Requested focus: input."
  issues := [
    ⟨"gets() cannot limit its input and can overflow the buffer", some 2, .error⟩,
    ⟨"memory is allocated but never freed, which leaks it", some 2, .warning⟩]
  suggestions := [
    "Read lines with fgets(buffer, sizeof buffer, stdin).",
    "Release every allocation with free() once it is no longer needed."]

theorem answers_read_as_made_hazardous :
    hazardousCode.length < Nat.pow 2 64 ∧
    (answer (.review hazardousCode [" input ", "\t"])).review = .ok {
      summary := hazards.summary
      issues := hazards.issues
      suggestions := hazards.suggestions
      provider := "local" } := by
  have hlength : hazardousCode.length < Nat.pow 2 64 := by decide
  have hfound : reviewCode hazardousCode [" input ", "\t"] = hazards := by decide +kernel
  refine ⟨hlength, ?_⟩
  rw [(answers_read_as_made "c").2.2.2 hazardousCode [" input ", "\t"] hlength, hfound]

end CodeAssist.Offline
