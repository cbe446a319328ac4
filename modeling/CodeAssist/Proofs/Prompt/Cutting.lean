import CodeAssist.Proofs.Prompt.Dropping

/-!
The text of a prompt within its budget.

Header and body come first and stay whole as long as they fit. When they alone are too long, nothing
optional is left, and the text is cut to its budget exactly: the body loses its end to the mark, or,
when header and mark do not fit either, the text is the start of header and mark.
-/

namespace CodeAssist.Prompt

open List String

namespace Sections

variable {s : Sections} {budget : Nat}

/-! ## 1. Sections within a budget -/

theorem render_core (s : Sections) :
    s.render = s.core ++ (s.renderNearby ++ s.renderSignatures ++ s.renderExchanges) := by
  simp only [render, List.append_assoc]

theorem Bare.render (h : s.Bare) : s.render = s.core := by
  have hnearby : s.renderNearby = [] := by rw [renderNearby, h.nearby]; rfl
  have hsignatures : s.renderSignatures = [] := by rw [renderSignatures, h.signatures]; rfl
  have hexchanges : s.renderExchanges = [] := by rw [renderExchanges, h.exchanges]; rfl
  rw [render_core, hnearby, hsignatures, hexchanges, append_nil, append_nil,
    append_nil]

theorem length_core (s : Sections) : s.core.length = s.header.length + 2 + s.body.length := by
  rw [core, List.length_append, List.length_append]
  rfl

theorem Shortened.core_eq {full : Sections} (h : Shortened full s) : s.core = full.core := by
  rw [core, core, h.header, h.body]

theorem length_fit_le (hs : Numbered s.nearby) (hfits : s.core.length ≤ budget) :
    (s.fit budget).length ≤ budget := by
  obtain ⟨hrun, hend⟩ := fit_run budget hs
  rcases hend with hend | hbare
  · exact hend
  · rw [length_eq, hbare.render, (Shortened.of_run hrun).core_eq]
    exact hfits

theorem bare_fit (hs : Numbered s.nearby) (hlong : budget < s.core.length) :
    (s.fit budget).Bare := by
  obtain ⟨hrun, hend⟩ := fit_run budget hs
  refine hend.resolve_left fun hfits => ?_
  rw [length_eq, render_core, List.length_append, (Shortened.of_run hrun).core_eq] at hfits
  omega

/-- Header and body with as much of the body as the mark leaves room for. -/
def cutText (s : Sections) (budget : Nat) : List Char :=
  s.header ++ ['\n', '\n'] ++ (s.body.take (budget - (s.header.length + 14)) ++ cutMark)

theorem length_cutText (hlong : budget < s.core.length) :
    (s.cutText budget).length = max budget (s.header.length + 14) := by
  rw [length_core] at hlong
  have hmark : cutMark.length = 12 := rfl
  simp only [cutText, List.length_append, length_take, hmark, length_cons,
    length_nil]
  omega

section Strings

variable {head text : String} (hheader : s.header = head.toList) (hbody : s.body = text.toList)
include hheader hbody

theorem core_toList : s.core = (head ++ "\n\n" ++ text).toList := by
  rw [core, hheader, hbody, toList_append, toList_append]
  rfl

theorem cutText_toList (budget : Nat) :
    s.cutText budget =
      (head ++ "\n\n" ++ ofList (text.toList.take (budget - (head.length + 14))) ++
        "\n[truncated]").toList := by
  have hpart : ∀ cs : List Char, (ofList cs).toList = cs := fun _ => toList_ofList
  rw [cutText, hheader, hbody, length_toList, ← List.append_assoc, toList_append,
    toList_append, toList_append, hpart (text.toList.take _)]
  rfl

end Strings

theorem renderWithin_long (hbare : s.Bare) (hlong : budget < s.core.length) :
    s.renderWithin budget = (s.cutText budget).take budget := by
  have hlength : s.length = s.header.length + 2 + s.body.length := by
    rw [length_eq, hbare.render, length_core]
  rw [length_core] at hlong
  have hkeep : s.body.length - (s.length - budget + cutMark.length) =
      budget - (s.header.length + 14) := by
    have hmark : cutMark.length = 12 := rfl
    omega
  have hcut : ∀ text, ({ s with body := text } : Sections).render =
      s.header ++ ['\n', '\n'] ++ text := fun text =>
    Bare.render (s := { s with body := text }) ⟨hbare.exchanges, hbare.signatures, hbare.nearby⟩
  have hexcess : ¬ (s.length - budget == 0) = true := by
    rw [beq_iff_eq]
    omega
  rw [renderWithin]
  simp only [if_neg hexcess, hkeep, hcut, cutText]

theorem length_renderWithin_le (s : Sections) (budget : Nat) :
    (s.renderWithin budget).length ≤ budget := by
  rw [renderWithin]
  split
  · rename_i hfits
    rw [← length_eq]
    exact Nat.le_of_sub_eq_zero (beq_iff_eq.1 hfits)
  · exact length_take_le ..

/-- Sections whose header and body are too long become the start of a text that has nothing
optional. -/
theorem renderWithin_fit_long (hs : Numbered s.nearby) (hlong : budget < s.core.length) :
    (s.fit budget).renderWithin budget = (s.cutText budget).take budget := by
  have hshort := Shortened.of_run (fit_run budget hs).1
  rw [renderWithin_long (bare_fit hs hlong) (hshort.core_eq ▸ hlong), cutText, cutText,
    hshort.header, hshort.body]

end Sections

/-! ## 2. The main statement -/

theorem sections_header (config : Config) (request : Request) (view : View)
    (nearby : List NumberedLine) :
    (sections config request view nearby).header =
      (header request.action (cursorOf request view) view).toList := by
  simp only [sections]

theorem sections_body (config : Config) (request : Request) (view : View)
    (nearby : List NumberedLine) :
    (sections config request view nearby).body =
      (body config request (cursorOf request view) view).toList := by
  simp only [sections]

theorem eq_append_ofList {s t : String} {cs : List Char} (h : s.toList = t.toList ++ cs) :
    s = t ++ ofList cs := by
  apply toList_inj.1
  rw [h, toList_append, toList_ofList]

/-- A prompt is built unless the sum that ends its window overflows. Its text has at most as many
characters as its instructions leave. It starts with header and body if these fit. Otherwise it has
exactly that many, nothing optional, and its body is cut and marked, or it is the start of header
and mark if not even these fit. -/
theorem build_within_budget (config : Config) (request : Request) (view : View) :
    (build config request view = .error .overflow ↔ Overflows config request view) ∧
    ∀ prompt, build config request view = .ok prompt →
    let left := config.budgetChars.toNat - prompt.system.length
    let head := header request.action (cursorOf request view) view
    let text := body config request (cursorOf request view) view
    prompt.user.length ≤ left ∧
    ((head ++ "\n\n" ++ text).length ≤ left →
      ∃ rest, prompt.user = head ++ "\n\n" ++ text ++ rest) ∧
    (left < (head ++ "\n\n" ++ text).length →
      prompt.user.length = left ∧
      (head.length + 14 ≤ left → ∃ part rest, text = part ++ rest ∧
        prompt.user = head ++ "\n\n" ++ part ++ "\n[truncated]") ∧
      (left < head.length + 14 → ∃ rest,
        head ++ "\n\n" ++ "\n[truncated]" = prompt.user ++ rest)) := by
  refine ⟨build_eq_error_iff, fun prompt hprompt => ?_⟩
  obtain ⟨nearby, hwindow, rfl⟩ := build_eq_ok_iff.1 hprompt
  intro left head text
  have hnumbered : Sections.Numbered (sections config request view nearby).nearby :=
    window_numbered hwindow
  have huser : (promptOf config request view nearby).user.toList =
      ((sections config request view nearby).fit left).renderWithin left :=
    promptOf_user config request view nearby
  have hheader := sections_header config request view nearby
  have hbody := sections_body config request view nearby
  have hcore := Sections.core_toList hheader hbody
  refine ⟨?_, fun hfits => ?_, fun hlong => ?_⟩
  · rw [← String.length_toList, huser]
    exact Sections.length_renderWithin_le _ _
  · rw [← String.length_toList, ← hcore] at hfits
    have hshort := Sections.Shortened.of_run (Sections.fit_run left hnumbered).1
    rw [Sections.renderWithin_of_fits (Sections.length_fit_le hnumbered hfits),
      Sections.render_core, hshort.core_eq, hcore] at huser
    exact ⟨_, eq_append_ofList huser⟩
  · rw [← String.length_toList, ← hcore] at hlong
    have hlength : ((sections config request view nearby).cutText left).length =
        max left (head.length + 14) := by
      rw [Sections.length_cutText hlong, hheader, String.length_toList]
    have hcut := Sections.cutText_toList hheader hbody left
    rw [Sections.renderWithin_fit_long hnumbered hlong] at huser
    refine ⟨?_, fun hroom => ?_, fun hroom => ?_⟩
    · rw [← String.length_toList, huser, List.length_take, hlength]
      omega
    · rw [List.take_of_length_le (by omega), hcut] at huser
      refine ⟨_, String.ofList (text.toList.drop (left - (head.length + 14))), ?_,
        String.toList_inj.1 huser⟩
      rw [← String.ofList_append, List.take_append_drop, String.ofList_toList]
    · rw [Nat.sub_eq_zero_of_le (Nat.le_of_lt hroom), List.take_zero, String.ofList_nil,
        String.append_empty] at hcut
      refine ⟨String.ofList (((sections config request view nearby).cutText left).drop left),
        eq_append_ofList ?_⟩
      rw [huser, List.take_append_drop, hcut]

/-- A hundred characters for a text of a hundred and twelve: the body is cut. -/
theorem build_within_budget_cut :
    let config : Config := ⟨"C", 2, 407⟩
    let request : Request := .completion ⟨3, 1⟩ ""
    let head := header .completion ⟨3, 1⟩ fiveLines
    let text := body config request ⟨3, 1⟩ fiveLines
    (head ++ "\n\n" ++ text).length = 112 ∧
      ∃ prompt, build config request fiveLines = .ok prompt ∧ prompt.user.length = 100 ∧
        ∃ part rest, text = part ++ rest ∧
          prompt.user = head ++ "\n\n" ++ part ++ "\n[truncated]" := by
  intro config request head text
  have hbuild : build config request fiveLines =
      .ok (promptOf config request fiveLines allFive) := rfl
  generalize hprompt : promptOf config request fiveLines allFive = prompt at hbuild
  have hsystem : prompt.system = instructions .completion "C" := by
    rw [← hprompt, promptOf]
    rfl
  have hleft : config.budgetChars.toNat - prompt.system.length = 100 := by
    change (407 : UInt64).toNat - _ = 100
    rw [hsystem, length_instructions_completion]
    rfl
  have hlength : (head ++ "\n\n" ++ text).length = 112 := by decide +kernel
  have hhead : head.length = 63 := by decide +kernel
  obtain ⟨-, -, hlong⟩ := (build_within_budget config request fiveLines).2 prompt hbuild
  have hcut : config.budgetChars.toNat - prompt.system.length <
      (head ++ "\n\n" ++ text).length := by
    rw [hleft, hlength]
    decide
  have hroom : head.length + 14 ≤ config.budgetChars.toNat - prompt.system.length := by
    rw [hleft, hhead]
    decide
  obtain ⟨huser, hmarked, -⟩ := hlong hcut
  exact ⟨hlength, prompt, hbuild, huser.trans hleft, hmarked hroom⟩

end CodeAssist.Prompt
