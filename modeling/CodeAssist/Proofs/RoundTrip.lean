import CodeAssist.Memory.Search
import CodeAssist.Outcome
import CodeAssist.Proofs.Memory.Reread
import CodeAssist.Provider.Basic

/-!
Values that go to the editor and come back.

A value is written as JSON and read from JSON. Fields with nothing in them are left out, a kind is
a field beside the others, and a patch tells an empty field from one it leaves alone. Reading undoes
writing (`ofJson?_toJson`), and the printed text of a written value is read as what was printed
(`reread_toJson`), so every value comes back from its text. Texts, lists and clocks have no bound
here, so whatever counts them is asked to fit a word (`Fits`).
-/

namespace CodeAssist

open Json

open Json (reread rereadFields ofTexts ofNat)

/-! ## 1. Printed values -/

namespace Json

/-- A value comes back from its JSON form, and from the compact and the indented text of it. -/
structure RoundTrips (enc : α → Json) (dec : Json → Option α) (a : α) : Prop where
  value : dec (enc a) = some a
  compact : (parse (enc a).render).bind dec = some a
  indented : (parse (enc a).pretty).bind dec = some a

theorem parse_render (j : Json) : parse j.render = reread maxDepth j := by
  rw [parse, render, String.toList_ofList, compact_eq 0, parseChars_spell]

theorem RoundTrips.of_reread {enc : α → Json} {dec : Json → Option α} {a : α}
    (hvalue : dec (enc a) = some a) (htext : reread maxDepth (enc a) = some (enc a)) :
    RoundTrips enc dec a where
  value := hvalue
  compact := by rw [parse_render, htext, Option.bind_some, hvalue]
  indented := by rw [parse_pretty, htext, Option.bind_some, hvalue]

@[simp] theorem asTexts?_ofTexts (ts : List String) : (ofTexts ts).asTexts? = some ts :=
  asList?_map Reader.asText?_text ts

end Json

/-! ## 2. Cursors, requests and subjects -/

theorem Request.ofJson?_toJson (r : Request) : Request.ofJson? r.toJson = some r := by
  cases r with
  | completion cursor selection =>
    change (Cursor.ofJson? cursor.toJson).bind (fun c => some (completion c selection)) = _
    rw [Cursor.ofJson?_toJson]
    rfl
  | refactor code intent => rfl
  | diagnosis errorMessage code => rfl
  | generation prompt => rfl
  | review code focus =>
    change (ofTexts focus).asTexts?.bind (fun ts => some (review code ts)) = _
    rw [asTexts?_ofTexts]
    rfl

theorem Request.reread_toJson (depth : Nat) (r : Request) :
    reread (depth + 2) r.toJson = some r.toJson := by
  refine reread_object ?_
  cases r <;> simp [Request.fields, Action.toJson]

theorem Subject.ofJson?_toJson (s : Subject) : Subject.ofJson? s.toJson = some s := by
  cases s with
  | completion scene =>
    obtain ⟨file, cursor, selection, linePrefix, surrounding, functions, vars⟩ := scene
    have hscene : Subject.ofJson? (completion ⟨file, cursor, selection, linePrefix, surrounding,
        functions, vars⟩).toJson =
        ((Cursor.ofJson? cursor.toJson).bind fun c => (ofTexts functions).asTexts?.bind fun fs =>
          (ofTexts vars).asTexts?.bind fun vs =>
            some ⟨file, c, selection, linePrefix, surrounding, fs, vs⟩).map completion := by
      cases file <;> rfl
    simp [hscene]
  | refactor code intent => rfl
  | diagnosis errorMessage code => rfl
  | generation prompt => rfl
  | review code focus =>
    change ((ofTexts focus).asTexts?.bind fun ts => some (Request.review code ts)).bind
      Subject.ofRequest? = _
    rw [asTexts?_ofTexts]
    rfl

theorem Subject.reread_toJson (depth : Nat) (s : Subject) :
    reread (depth + 2) s.toJson = some s.toJson := by
  refine reread_object ?_
  cases s with
  | completion scene =>
    cases hfile : scene.file <;>
      simp [Subject.fields, Subject.sceneFields, hfile, Action.toJson]
  | _ => simp [Subject.fields, Action.toJson]

/-! ## 3. The editing state and its patches -/

namespace Json

theorem lookup_append (key : String) (fs gs : List (String × Json)) :
    lookup key (fs ++ gs) = (lookup key fs).or (lookup key gs) := by
  induction fs with
  | nil => rfl
  | cons f rest ih =>
    rw [List.cons_append, lookup, lookup, ih]
    split <;> rfl

theorem occurrences_append (key : String) (fs gs : List (String × Json)) :
    occurrences key (fs ++ gs) = occurrences key fs + occurrences key gs := by
  simp [occurrences]

end Json

namespace EditPatch

theorem lookup_patchField (key name : String) (item : α → Json) (a : Option α) :
    lookup key (patchField name item a) = if name = key then a.map item else none := by
  cases a <;> simp [patchField, lookup]

theorem occurrences_patchField (key name : String) (item : α → Json) (a : Option α) :
    occurrences key (patchField name item a) = if name = key then a.toList.length else 0 := by
  by_cases hkey : name = key <;> cases a <;> simp [patchField, occurrences, hkey]

/-- The slot of a field that a patch may leave alone. -/
def slot (item : α → Json) (a : Option α) : Slot :=
  ((a.map item).map Slot.given).getD .unnamed

/-- No field of a patch is written twice, and each is found under its own name. -/
theorem slots?_toJson (p : EditPatch) :
    p.toJson.slots? ["current_file", "cursor", "selected_text", "compilation_state",
      "last_error"] = some [slot (ofOption .text) p.currentFile, slot Cursor.toJson p.cursor,
        slot .text p.selectedText, slot BuildState.toJson p.build,
        slot (ofOption .text) p.lastError] := by
  have honce {α : Type} (a : Option α) : a.toList.length ≤ 1 := by
    cases a <;> simp
  rw [toJson, slots?, if_neg]
  · simp [lookup_append, lookup_patchField, slot]
  · simp [occurrences_append, occurrences_patchField, honce]

theorem emptiable_slot (s : Option (Option String)) :
    emptiable asText? (slot (ofOption .text) s) = some s := by
  obtain _ | _ | _ := s <;> rfl

theorem optional_slot {item : Json → Option α} {enc : α → Json} (a : Option α)
    (h : ∀ a, item (enc a) = some a) (hnull : ∀ a, (enc a).isNull = false) :
    (slot enc a).optional item = some a := by
  cases a with
  | none => rfl
  | some a => simp [slot, Slot.optional, asOption?, h, hnull]

theorem ofJson?_toJson (p : EditPatch) : EditPatch.ofJson? p.toJson = some p := by
  rw [EditPatch.ofJson?, slots?_toJson]
  simp [emptiable_slot, optional_slot _ Cursor.ofJson?_toJson fun _ => rfl,
    optional_slot _ Reader.asText?_text fun _ => rfl,
    optional_slot _ BuildState.ofJson?_toJson fun _ => rfl]

theorem reread_toJson (depth : Nat) (p : EditPatch) :
    reread (depth + 2) p.toJson = some p.toJson := by
  have hfield {α : Type} {item : α → Json} (name : String) (a : Option α)
      (h : ∀ a, reread (depth + 1) (item a) = some (item a)) :
      ∀ f ∈ patchField name item a, reread (depth + 1) f.2 = some f.2 := by
    cases a <;> simp [patchField, h]
  refine reread_object ?_
  simp only [List.forall_mem_append]
  refine ⟨⟨⟨⟨?_, ?_⟩, ?_⟩, ?_⟩, ?_⟩
  · exact hfield _ _ (reread_ofOption_text _)
  · exact hfield _ _ (Cursor.reread_toJson _)
  · exact hfield _ _ (reread_text _)
  · exact hfield _ _ fun b => reread_text _ b.name
  · exact hfield _ _ (reread_ofOption_text _)

end EditPatch

/-! ## 4. Failures and health -/

theorem ProviderError.ofJson?_toJson (e : ProviderError) :
    ProviderError.ofJson? e.toJson = some e := by
  change ProviderError.ofKind? e.kind e.detail = some e
  cases e <;> rfl

theorem ProviderError.reread_toJson (depth : Nat) (e : ProviderError) :
    reread (depth + 1) e.toJson = some e.toJson :=
  reread_object (by simp)

theorem Attempt.ofJson?_toJson (a : Attempt) : Attempt.ofJson? a.toJson = some a := by
  obtain ⟨provider, elapsedMs, _ | error⟩ := a
  · rfl
  · change ((ProviderError.ofJson? error.toJson).map some).bind
      (fun e => some (Attempt.mk provider elapsedMs e)) = _
    rw [error.ofJson?_toJson]
    rfl

theorem Attempt.reread_toJson (depth : Nat) {a : Attempt} (h : a.elapsedMs < Nat.pow 2 64) :
    reread (depth + 2) a.toJson = some a.toJson := by
  refine reread_object ?_
  cases a.error <;> simp [reread_ofNat _ h, ProviderError.reread_toJson]

theorem Exhausted.ofJson?_toJson (e : Exhausted) : Exhausted.ofJson? e.toJson = some e := by
  change ((array (e.attempts.map Attempt.toJson)).asList? Attempt.ofJson?).bind
    (fun attempts => some (Exhausted.mk attempts)) = _
  rw [asList?_map Attempt.ofJson?_toJson]
  rfl

theorem Exhausted.reread_toJson (depth : Nat) {e : Exhausted}
    (h : ∀ a ∈ e.attempts, a.elapsedMs < Nat.pow 2 64) :
    reread (depth + 4) e.toJson = some e.toJson := by
  have hattempts := reread_array Attempt.toJson fun a ha => Attempt.reread_toJson depth (h a ha)
  exact reread_object (by simpa using hattempts)

theorem Health.ofJson?_toJson (h : Health) : Health.ofJson? h.toJson = some h := by
  obtain ⟨provider, healthy, models, _ | error, elapsedMs⟩ := h
  · cases models <;> rfl
  · have hread : Health.ofJson? (Health.mk provider healthy models (some error) elapsedMs).toJson =
        ((ProviderError.ofJson? error.toJson).map some).bind
          fun e => some ⟨provider, healthy, models, e, elapsedMs⟩ := by
      cases models <;> rfl
    rw [hread, error.ofJson?_toJson]
    rfl

/-- The counts of a report fit a word. -/
def Health.Fits (h : Health) : Prop :=
  h.elapsedMs < Nat.pow 2 64 ∧ ∀ n ∈ h.models, n < Nat.pow 2 64

theorem Health.reread_toJson (depth : Nat) {h : Health} (hfits : h.Fits) :
    reread (depth + 2) h.toJson = some h.toJson := by
  obtain ⟨helapsed, hmodels⟩ := hfits
  refine reread_object ?_
  cases hm : h.models <;> cases h.error <;>
    simp_all [reread_ofNat, ProviderError.reread_toJson, reread]

/-! ## 5. Outcomes -/

theorem Refactoring.ofJson?_toJson (r : Refactoring) :
    Refactoring.ofJson? r.toJson = some r := by
  change (ofTexts r.changes).asTexts?.bind (fun changes => some { r with changes }) = _
  rw [asTexts?_ofTexts]
  rfl

theorem Refactoring.reread_toJson (depth : Nat) (r : Refactoring) :
    reread (depth + 2) r.toJson = some r.toJson :=
  reread_object (by simp)

theorem Diagnosis.reread_toJson (depth : Nat) (d : Diagnosis) :
    reread (depth + 1) d.toJson = some d.toJson :=
  reread_object (by simp)

theorem GeneratedFile.reread_toJson (depth : Nat) (f : GeneratedFile) :
    reread (depth + 1) f.toJson = some f.toJson :=
  reread_object (by simp)

theorem Generation.ofJson?_toJson (g : Generation) : Generation.ofJson? g.toJson = some g := by
  obtain ⟨files, mainFile, explanation, provider⟩ := g
  have hread : Generation.ofJson? (Generation.mk files mainFile explanation provider).toJson =
      ((array (files.map GeneratedFile.toJson)).asList? GeneratedFile.ofJson?).bind
        fun fs => some ⟨fs, mainFile, explanation, provider⟩ := by
    cases mainFile <;> rfl
  have hfile (f : GeneratedFile) : GeneratedFile.ofJson? f.toJson = some f := rfl
  rw [hread, asList?_map hfile]
  rfl

theorem Generation.reread_toJson (depth : Nat) (g : Generation) :
    reread (depth + 3) g.toJson = some g.toJson := by
  have hfiles := reread_array GeneratedFile.toJson fun f (_ : f ∈ g.files) =>
    GeneratedFile.reread_toJson depth f
  refine reread_object ?_
  cases g.mainFile <;> simp [hfiles]

theorem Issue.ofJson?_toJson (i : Issue) : Issue.ofJson? i.toJson = some i := by
  obtain ⟨message, _ | line, severity⟩ := i <;> cases severity <;> rfl

/-- The line of an issue fits a word. -/
def Issue.Fits (i : Issue) : Prop :=
  ∀ n ∈ i.line, n < Nat.pow 2 64

theorem Issue.reread_toJson (depth : Nat) {i : Issue} (h : i.Fits) :
    reread (depth + 1) i.toJson = some i.toJson := by
  refine reread_object ?_
  cases hline : i.line with
  | none => simp
  | some n => simp [reread_ofNat _ (h n hline)]

theorem Review.ofJson?_toJson (r : Review) : Review.ofJson? r.toJson = some r := by
  change ((array (r.issues.map Issue.toJson)).asList? Issue.ofJson?).bind (fun issues =>
    (ofTexts r.suggestions).asTexts?.bind fun suggestions =>
      some { r with issues, suggestions }) = _
  rw [asList?_map Issue.ofJson?_toJson, asTexts?_ofTexts]
  rfl

theorem Review.reread_toJson (depth : Nat) {r : Review} (h : ∀ i ∈ r.issues, i.Fits) :
    reread (depth + 3) r.toJson = some r.toJson := by
  have hissues := reread_array Issue.toJson fun i hi => Issue.reread_toJson depth (h i hi)
  exact reread_object (by simp [hissues])

/-! ## 6. Search hits -/

namespace SearchHit

/-- The numbers of a hit fit a word. -/
def Fits : SearchHit → Prop
  | file _ line _ => line < Nat.pow 2 64
  | function _ _ _ line => line < Nat.pow 2 64
  | variable_ _ _ _ line => line < Nat.pow 2 64
  | event index _ _ => index < Nat.pow 2 64
  | exchange index _ _ => index < Nat.pow 2 64

theorem ofJson?_toJson (h : SearchHit) : SearchHit.ofJson? h.toJson = some h := by
  cases h with
  | file path line text => rfl
  | function path name returnType line => rfl
  | variable_ path name type line => rfl
  | event index kind moment =>
    have hkind : EventKind.ofName? kind.name = some kind := by
      cases kind <;> decide
    have hmoment := asMoment?_ofMoment moment
    rw [toJson]
    generalize ofMoment moment = written at hmoment ⊢
    change (EventKind.ofName? kind.name).bind (fun k =>
      written.asMoment?.bind fun t => some (event index k t)) = _
    rw [hkind, hmoment]
    rfl
  | exchange index action excerpt =>
    have haction : Action.ofName? action.name = some action := by
      cases action <;> decide
    change (Action.ofName? action.name).bind (fun a => some (exchange index a excerpt)) = _
    rw [haction]
    rfl

theorem reread_toJson (depth : Nat) {h : SearchHit} (hfits : h.Fits) :
    reread (depth + 1) h.toJson = some h.toJson := by
  cases h with
  | file path line text | function path name returnType line | variable_ path name type line =>
    exact reread_object (by simp [reread_ofNat _ hfits])
  | event index kind moment =>
    exact reread_object (by simp [reread_ofNat _ hfits, EventKind.toJson, ofMoment])
  | exchange index action excerpt =>
    exact reread_object (by simp [reread_ofNat _ hfits, Action.toJson])

end SearchHit

/-! ## 7. Every value comes back -/

theorem EditPatch.apply_apply (p : EditPatch) (e : Editing) : p.apply (p.apply e) = p.apply e := by
  obtain ⟨_ | _, _ | _, _ | _, _ | _, _ | _⟩ := p <;> rfl

open Json (RoundTrips)

/-- Every value that is exchanged comes back equal, its numbers being words. A patch that leaves a
field alone writes no member for it, and one that empties the field writes null; the patch that is
read does what the written one does, and does it once. -/
theorem wire_values_return :
    (∀ r, RoundTrips Request.toJson Request.ofJson? r) ∧
    (∀ s, RoundTrips Subject.toJson Subject.ofJson? s) ∧
    (∀ e, RoundTrips Editing.toJson Editing.ofJson? e) ∧
    (∀ h : SearchHit, h.Fits → RoundTrips SearchHit.toJson SearchHit.ofJson? h) ∧
    (∀ a : Attempt, a.elapsedMs < 2 ^ 64 → RoundTrips Attempt.toJson Attempt.ofJson? a) ∧
    (∀ e : Exhausted, (∀ a ∈ e.attempts, a.elapsedMs < 2 ^ 64) →
      RoundTrips Exhausted.toJson Exhausted.ofJson? e) ∧
    (∀ e, RoundTrips ProviderError.toJson ProviderError.ofJson? e) ∧
    (∀ h : Health, h.Fits → RoundTrips Health.toJson Health.ofJson? h) ∧
    (∀ r, RoundTrips Refactoring.toJson Refactoring.ofJson? r) ∧
    (∀ d, RoundTrips Diagnosis.toJson Diagnosis.ofJson? d) ∧
    (∀ g, RoundTrips Generation.toJson Generation.ofJson? g) ∧
    (∀ r : Review, (∀ i ∈ r.issues, i.Fits) → RoundTrips Review.toJson Review.ofJson? r) ∧
    ∀ p, RoundTrips EditPatch.toJson EditPatch.ofJson? p ∧
      p.toJson.get? "current_file" = p.currentFile.map (Json.ofOption .text) ∧
      p.toJson.get? "last_error" = p.lastError.map (Json.ofOption .text) ∧
      ∀ q, (Json.parse p.toJson.render).bind EditPatch.ofJson? = some q → ∀ e : Editing,
        q.apply e = p.apply e ∧ q.changes e = p.changes e ∧
          q.apply (q.apply e) = p.apply e ∧ q.changes (p.apply e) = false := by
  refine ⟨fun r => .of_reread r.ofJson?_toJson (r.reread_toJson _),
    fun s => .of_reread s.ofJson?_toJson (s.reread_toJson _),
    fun e => .of_reread e.ofJson?_toJson (e.reread_toJson _),
    fun h hfits => .of_reread h.ofJson?_toJson (SearchHit.reread_toJson _ hfits),
    fun a hfits => .of_reread a.ofJson?_toJson (Attempt.reread_toJson _ hfits),
    fun e hfits => .of_reread e.ofJson?_toJson (Exhausted.reread_toJson _ hfits),
    fun e => .of_reread e.ofJson?_toJson (e.reread_toJson _),
    fun h hfits => .of_reread h.ofJson?_toJson (Health.reread_toJson _ hfits),
    fun r => .of_reread r.ofJson?_toJson (r.reread_toJson _),
    fun d => .of_reread rfl (d.reread_toJson _),
    fun g => .of_reread g.ofJson?_toJson (g.reread_toJson _),
    fun r hfits => .of_reread r.ofJson?_toJson (Review.reread_toJson _ hfits), fun p => ?_⟩
  have hreturns : RoundTrips EditPatch.toJson EditPatch.ofJson? p :=
    .of_reread p.ofJson?_toJson (p.reread_toJson _)
  refine ⟨hreturns, ?_, ?_, ?_⟩
  · simp [EditPatch.toJson, Json.get?, Json.lookup_append, EditPatch.lookup_patchField]
  · simp [EditPatch.toJson, Json.get?, Json.lookup_append, EditPatch.lookup_patchField]
  · intro q hq e
    obtain rfl : p = q := Option.some_inj.1 (hreturns.compact.symm.trans hq)
    simp [EditPatch.changes, p.apply_apply]

/-- The greatest index and a leap second. -/
theorem wire_values_return_leap_second :
    let hit := SearchHit.event (2 ^ 64 - 1) .fileUpdate (.mk 1483228799 1500000000)
    hit.Fits ∧ RoundTrips SearchHit.toJson SearchHit.ofJson? hit := by
  have hfits : (SearchHit.event (2 ^ 64 - 1) .fileUpdate (.mk 1483228799 1500000000)).Fits := by
    rw [SearchHit.Fits]
    decide
  exact ⟨hfits, wire_values_return.2.2.2.1 _ hfits⟩

end CodeAssist
