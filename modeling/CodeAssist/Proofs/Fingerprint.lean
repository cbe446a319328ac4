import CodeAssist.Fingerprint

/-!
Which requests share a fingerprint.

A fingerprint holds the texts of a request in one text, with a null character between two texts
and a comma between two areas of focus. The texts may hold these characters themselves. So two
requests share a fingerprint if they differ in nothing but which null character and which commas
are the ones between (`Request.Alike`). Requests whose texts are free of them are told apart.
-/

namespace CodeAssist

open List String

variable {f : Fingerprint} {focus focus' : List String} {r r' : Request}

namespace Fingerprint

/-! ## 1. One separator -/

def null : Char :=
  Char.ofNat 0

/-- A list can be cut in two at a separator in as many ways as it has separators. -/
theorem append_cons_eq_iff {α : Type} {sep : α} {a b a' b' : List α} :
    a ++ sep :: b = a' ++ sep :: b' ↔
      (a = a' ∧ b = b') ∨ (∃ m, a' = a ++ sep :: m ∧ b = m ++ sep :: b') ∨
        ∃ m, a = a' ++ sep :: m ∧ b' = m ++ sep :: b := by
  constructor
  · intro h
    rcases append_eq_append_iff.1 h with ⟨m, rfl, hrest⟩ | ⟨m, rfl, hrest⟩
    · cases m with
      | nil => simp_all
      | cons c m =>
        simp only [cons_append, cons.injEq] at hrest
        obtain ⟨rfl, rfl⟩ := hrest
        exact .inr (.inl ⟨m, rfl, rfl⟩)
    · cases m with
      | nil => simp_all
      | cons c m =>
        simp only [cons_append, cons.injEq] at hrest
        obtain ⟨rfl, rfl⟩ := hrest
        exact .inr (.inr ⟨m, rfl, rfl⟩)
  · rintro (⟨rfl, rfl⟩ | ⟨m, rfl, rfl⟩ | ⟨m, rfl, rfl⟩) <;> simp

@[simp] theorem toList_joined (first second : String) :
    (joined first second).toList = first.toList ++ null :: second.toList := by
  simp [joined, null]

/-- Two texts are cut out of the same text as two others, but at an earlier null character. -/
def CutEarlier (first second first' second' : String) : Prop :=
  ∃ between, first' = joined first between ∧ second = joined between second'

theorem joined_eq_joined_iff {a b a' b' : String} :
    joined a b = joined a' b' ↔
      (a = a' ∧ b = b') ∨ CutEarlier a b a' b' ∨ CutEarlier a' b' a b := by
  have hcut : ∀ a b a' b' : String, CutEarlier a b a' b' ↔
      ∃ m, a'.toList = a.toList ++ null :: m ∧ b.toList = m ++ null :: b'.toList := by
    intro a b a' b'
    constructor
    · rintro ⟨between, rfl, rfl⟩
      exact ⟨between.toList, by simp, by simp⟩
    · rintro ⟨m, hfirst, hsecond⟩
      refine ⟨ofList m, ?_, ?_⟩ <;> simp [← toList_inj, hfirst, hsecond]
  simp only [hcut, ← toList_inj, toList_joined]
  exact append_cons_eq_iff

theorem of_cut_plain {a b a' b' : String} {p : Prop} (hplain : null ∉ a.toList)
    (hplain' : null ∉ a'.toList) (h : p ∨ CutEarlier a b a' b' ∨ CutEarlier a' b' a b) : p := by
  rcases h with hp | ⟨between, rfl, -⟩ | ⟨between, rfl, -⟩
  · exact hp
  · simp at hplain'
  · simp at hplain

/-! ## 2. Commas -/

/-- The pieces of a text between its commas. -/
def commaPieces (text : String) : List String :=
  (text.toList.splitOn ',').map ofList

/-- The pieces of some areas between all commas. No area at all is like an empty one. -/
def areaPieces (focus : List String) : List String :=
  if focus = [] then [""] else focus.flatMap commaPieces

theorem splitOn_intercalate_parts {sep : Char} {parts : List (List Char)} (h : parts ≠ []) :
    ([sep].intercalate parts).splitOn sep = parts.flatMap (splitOn sep) := by
  induction parts with
  | nil => exact absurd rfl h
  | cons part rest ih =>
    cases rest with
    | nil => simp
    | cons next more =>
      rw [List.intercalate_cons_cons, List.append_assoc, singleton_append,
        splitOn_append_cons_self, ih (by simp)]
      simp

theorem areaPieces_eq (focus : List String) :
    areaPieces focus = commaPieces (",".intercalate focus) := by
  unfold areaPieces
  split
  · rename_i hnone
    subst hnone
    rfl
  · rename_i hsome
    have hcomma : ",".toList = [','] := rfl
    have hparts : focus.map toList ≠ [] := by simpa using hsome
    simp only [commaPieces, toList_intercalate, hcomma, splitOn_intercalate_parts hparts,
      flatMap_map, map_flatMap]
    rfl

theorem intercalate_commaPieces (text : String) : ",".intercalate (commaPieces text) = text := by
  have hid : toList ∘ ofList = id := funext fun _ => toList_ofList
  rw [← toList_inj, toList_intercalate, commaPieces, List.map_map, hid, List.map_id]
  exact intercalate_splitOn ','

/-- Areas read the same with commas between them exactly when they have the same pieces. -/
theorem intercalate_eq_intercalate_iff :
    ",".intercalate focus = ",".intercalate focus' ↔ areaPieces focus = areaPieces focus' := by
  rw [areaPieces_eq, areaPieces_eq]
  refine ⟨congrArg commaPieces, fun h => ?_⟩
  have hback := congrArg (",".intercalate ·) h
  simpa only [intercalate_commaPieces] using hback

theorem areaPieces_plain (hsome : focus ≠ []) (h : ∀ area ∈ focus, ',' ∉ area.toList) :
    areaPieces focus = focus := by
  have hpieces : ∀ area ∈ focus, commaPieces area = [area] := by
    intro area harea
    simp [commaPieces, splitOn_eq_singleton (h area harea)]
  rw [areaPieces, if_neg hsome, flatMap_def, map_congr_left hpieces, ← flatMap_def]
  exact flatMap_singleton' focus

end Fingerprint

/-! ## 3. Requests -/

namespace Request

open Fingerprint

/-- Two requests that are the same but for which null characters and commas stand between their
texts. -/
def Alike : Request → Request → Prop
  | completion cursor selection, completion cursor' selection' =>
    cursor = cursor' ∧ selection = selection'
  | refactor code intent, refactor code' intent' =>
    (intent = intent' ∧ code = code') ∨ CutEarlier intent code intent' code' ∨
      CutEarlier intent' code' intent code
  | diagnosis message code, diagnosis message' code' =>
    (message = message' ∧ code = code') ∨ CutEarlier message code message' code' ∨
      CutEarlier message' code' message code
  | review code focus, review code' focus' =>
    (areaPieces focus = areaPieces focus' ∧ code = code') ∨
      CutEarlier (",".intercalate focus) code (",".intercalate focus') code' ∨
      CutEarlier (",".intercalate focus') code' (",".intercalate focus) code
  | _, _ => False

/-- A request whose texts hold no characters like those between them. -/
def Plain : Request → Prop
  | completion .. | generation .. => True
  | refactor _ intent => null ∉ intent.toList
  | diagnosis message _ => null ∉ message.toList
  | review _ focus => focus ≠ [""] ∧ ∀ area ∈ focus, null ∉ area.toList ∧ ',' ∉ area.toList

end Request

namespace Fingerprint

/-- Requests of one kind hold the same texts, in one text, exactly when they are alike. For a
completion the cursor counts too. -/
theorem alike_iff (hcached : r.action ≠ .generation) (view : View) :
    r.Alike r' ↔ r.action = r'.action ∧ selectionOf r = selectionOf r' ∧
      Prompt.cursorOf r view = Prompt.cursorOf r' view := by
  cases r with
  | completion cursor selection =>
    cases r' <;> simp [Request.Alike, Request.action, selectionOf, Prompt.cursorOf, and_comm]
  | refactor code intent | diagnosis message code =>
    cases r' <;> simp [Request.Alike, Request.action, selectionOf, Prompt.cursorOf,
      joined_eq_joined_iff]
  | review code focus =>
    cases r' <;> simp [Request.Alike, Request.action, selectionOf, Prompt.cursorOf,
      joined_eq_joined_iff, intercalate_eq_intercalate_iff]
  | generation prompt => exact absurd rfl hcached

theorem ofRequest?_eq_some {view : View} (h : ofRequest? r view = some f) :
    r.action ≠ .generation ∧ f.action = r.action ∧ selectionOf r = some f.selection ∧
      Prompt.cursorOf r view = ⟨f.line, f.column⟩ := by
  obtain ⟨selection, hselection, rfl⟩ := Option.map_eq_some_iff.1 h
  refine ⟨?_, rfl, hselection, rfl⟩
  intro hgeneration
  cases r <;> simp_all [Request.action, selectionOf]

theorem action_ne_generation {view : View} (h : ofRequest? r view = some f) :
    f.action ≠ .generation := by
  obtain ⟨hcached, haction, -, -⟩ := ofRequest?_eq_some h
  rw [haction]
  exact hcached

theorem exists_ofRequest? (hcached : r.action ≠ .generation) (view : View) :
    ∃ f, ofRequest? r view = some f := by
  cases r with
  | generation prompt => exact absurd rfl hcached
  | _ => exact ⟨_, rfl⟩

/-- Requests that share a fingerprint are alike, whatever they are seen against. -/
theorem alike_of_ofRequest? {view view' : View} (h : ofRequest? r view = some f)
    (h' : ofRequest? r' view' = some f) : r.Alike r' := by
  obtain ⟨hcached, haction, hselection, hcursor⟩ := ofRequest?_eq_some h
  obtain ⟨-, haction', hselection', hcursor'⟩ := ofRequest?_eq_some h'
  have hkind := haction.symm.trans haction'
  refine (alike_iff hcached view).2 ⟨hkind, hselection.trans hselection'.symm, ?_⟩
  -- A completion has a cursor of its own, and others have that of the view.
  have hcursors := hcursor.trans hcursor'.symm
  cases r <;> cases r' <;> simp_all [Request.action, Prompt.cursorOf]

/-- Requests that are alike share their fingerprint against every view. -/
theorem ofRequest?_eq_of_alike (h : r.Alike r') (view : View) :
    ofRequest? r view = ofRequest? r' view := by
  have hcached : r.action ≠ .generation := by
    intro hgeneration
    cases r <;> simp_all [Request.action, Request.Alike]
  obtain ⟨haction, hselection, hcursor⟩ := (alike_iff hcached view).1 h
  simp only [ofRequest?, haction, hselection, hcursor]

end Fingerprint

/-! ## 4. Plain requests -/

namespace Request

open Fingerprint

theorem null_notMem_intercalate (h : ∀ area ∈ focus, null ∉ area.toList) :
    null ∉ (",".intercalate focus).toList := by
  rw [toList_intercalate]
  induction focus with
  | nil => simp
  | cons area rest ih =>
    have hrest := ih fun area harea => h area (mem_cons_of_mem _ harea)
    cases rest with
    | nil => simpa using h area mem_cons_self
    | cons next more =>
      have hcomma : null ∉ ",".toList := by decide
      simp only [map_cons, List.intercalate_cons_cons, mem_append, not_or] at hrest ⊢
      exact ⟨⟨h area mem_cons_self, hcomma⟩, hrest⟩

theorem areas_eq_of_pieces (hone : focus ≠ [""]) (hone' : focus' ≠ [""])
    (h : ∀ area ∈ focus, ',' ∉ area.toList) (h' : ∀ area ∈ focus', ',' ∉ area.toList)
    (hpieces : areaPieces focus = areaPieces focus') :
    focus = focus' := by
  by_cases hnone : focus = [] <;> by_cases hnone' : focus' = []
  · rw [hnone, hnone']
  · rw [areaPieces_plain hnone' h', hnone] at hpieces
    exact absurd hpieces.symm hone'
  · rw [areaPieces_plain hnone h, hnone'] at hpieces
    exact absurd hpieces hone
  · rwa [areaPieces_plain hnone h, areaPieces_plain hnone' h'] at hpieces

theorem Alike.eq_of_plain (h : r.Alike r') (hplain : r.Plain) (hplain' : r'.Plain) : r = r' := by
  cases r with
  | completion cursor selection =>
    cases r' <;> simp_all [Alike]
  | refactor code intent =>
    cases r' with
    | refactor code' intent' =>
      obtain ⟨rfl, rfl⟩ := of_cut_plain hplain hplain' h
      rfl
    | _ => exact h.elim
  | diagnosis message code =>
    cases r' with
    | diagnosis message' code' =>
      obtain ⟨rfl, rfl⟩ := of_cut_plain hplain hplain' h
      rfl
    | _ => exact h.elim
  | review code focus =>
    cases r' with
    | review code' focus' =>
      have hnull := null_notMem_intercalate fun area harea => (hplain.2 area harea).1
      have hnull' := null_notMem_intercalate fun area harea => (hplain'.2 area harea).1
      obtain ⟨hpieces, rfl⟩ := of_cut_plain hnull hnull' h
      rw [areas_eq_of_pieces hplain.1 hplain'.1 (fun area harea => (hplain.2 area harea).2)
        (fun area harea => (hplain'.2 area harea).2) hpieces]
    | _ => exact h.elim
  | generation prompt => cases r' <;> exact h.elim

end Request

end CodeAssist
