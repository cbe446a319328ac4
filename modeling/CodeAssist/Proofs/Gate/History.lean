import CodeAssist.Proofs.Session.Steps
import Mathlib.Data.List.Basic
import Mathlib.Data.List.Induction

/-!
Tickets by the history of their gate.

A gate is used in any order: tickets are given out, given back once, often or late, and all are
cancelled at times. What a ticket is worth after that can be read off the history. It is in force
exactly if it is the last one of its kind and was neither given back nor cancelled since
(`isCurrent_after`), and it is cancelled exactly if something that cancels came upon it while it
was in force (`isCancelled_after`).
-/

namespace CodeAssist.Gate

open List Option

/-! ## 1. Histories -/

/-- What is done at a gate. -/
inductive Act where
  | issue (action : Action)
  | finish (t : Ticket)
  | cancelAll

/-- The kind of action that is concerned; nothing when all kinds are. -/
def Act.kind? : Act → Option Action
  | issue action => some action
  | finish t => some t.action
  | cancelAll => none

def act (g : Gate) : Act → Gate
  | .issue action => (g.issue action).2
  | .finish t => g.finish t
  | .cancelAll => g.cancelAll

/-- The gate after a history, oldest first. -/
def after (acts : List Act) : Gate :=
  acts.foldl act fresh

/-- A history that gives a ticket out, with what was done before and after that. -/
def GivesOut (t : Ticket) (acts before later : List Act) : Prop :=
  acts = before ++ .issue t.action :: later ∧ ((after before).issue t.action).1 = t

def Issued (t : Ticket) (acts : List Act) : Prop :=
  ∃ before later, GivesOut t acts before later

variable {g : Gate} {t : Ticket} {acts before later : List Act} {a : Act}

theorem after_snoc (acts : List Act) (a : Act) : after (acts ++ [a]) = (after acts).act a := by
  simp [after]

/-- Where a history is divided lies before its last act, or its last act is what divides it. -/
theorem snoc_eq_iff {b : Act} :
    acts ++ [a] = before ++ b :: later ↔
      (before = acts ∧ b = a ∧ later = []) ∨
        ∃ rest, later = rest ++ [a] ∧ acts = before ++ b :: rest := by
  rcases later.eq_nil_or_concat' with rfl | ⟨rest, c, rfl⟩
  · simp
    grind
  · have hlast : before ++ b :: (rest ++ [c]) = before ++ b :: rest ++ [c] := by simp
    rw [hlast, ← concat_eq_append, ← concat_eq_append, concat_inj]
    simp
    grind

/-! ## 2. One act -/

/-- A ticket is in force after an act if it was and the act does not end that, or if the act gives
it out. -/
theorem isCurrent_act :
    (g.act a).isCurrent t = true ↔
      (g.isCurrent t = true ∧ a ≠ .issue t.action ∧ a ≠ .finish t ∧ a ≠ .cancelAll) ∨
        (a = .issue t.action ∧ (g.issue t.action).1 = t) := by
  rw [isCurrent_eq_true, isCurrent_eq_true]
  cases a with
  | issue action =>
    by_cases hkind : t.action = action
    · subst hkind
      cases t
      simp [act, Gate.issue]
    · simp [act, Gate.issue, hkind, Ne.symm hkind]
  | finish u =>
    simp only [act, finish_holder_eq_some, isCurrent_eq_true]
    constructor
    · rintro ⟨hheld, hkept⟩
      refine .inl ⟨hheld, by simp, ?_, by simp⟩
      rintro ⟨⟩
      exact hkept ⟨hheld, rfl⟩
    · rintro (⟨hheld, -, hother, -⟩ | ⟨⟨⟩, -⟩)
      refine ⟨hheld, ?_⟩
      rintro ⟨hcurrent, hkind⟩
      refine hother ?_
      rw [← hkind, hheld] at hcurrent
      cases t
      cases u
      cases hkind
      cases hcurrent
      rfl
  | cancelAll => simp [act, Gate.cancelAll]

/-- A ticket stays out whichever ticket is given back, itself included. -/
theorem Out.returned (h : g.Out t) (u : Ticket) : (g.finish u).Out t := by
  refine ⟨by simpa using h.issued, fun a ha => h.own a (finish_holder_eq_some.1 ha).1, fun hc => ?_⟩
  rw [isCancelled, finish_cancelled] at hc
  rw [isCurrent_eq_false]
  exact fun hheld => isCurrent_eq_false.1 (h.cancelled hc) (finish_holder_eq_some.1 hheld).1

theorem Out.act (h : g.Out t) (a : Act) : (g.act a).Out t := by
  cases a with
  | issue action => exact (h.issue action).1
  | finish u => exact h.returned u
  | cancelAll => exact h.cancelAll.1

theorem Bounded.act (h : g.Bounded) (a : Act) : (g.act a).Bounded := by
  cases a with
  | issue action => exact h.issue action
  | finish u => exact h.finish u
  | cancelAll => exact h.cancelAll

/-- A ticket that is out is cancelled by what comes upon it while it is in force. -/
theorem Out.isCancelled_act (h : g.Out t) :
    (g.act a).isCancelled t = true ↔
      g.isCancelled t = true ∨ (a = .issue t.action ∨ a = .cancelAll) ∧ g.isCurrent t = true := by
  have hown : ∀ {action}, g.holder action = some t.number →
      action = t.action ∧ g.isCurrent t = true := by
    intro action hheld
    have hkind := h.own action hheld
    exact ⟨hkind, isCurrent_eq_true.2 (hkind ▸ hheld)⟩
  rw [isCancelled_eq_true, isCancelled_eq_true]
  cases a with
  | issue action =>
    simp only [Gate.act, Gate.issue, mem_append, mem_toList, Act.issue.injEq,
      reduceCtorEq, or_false]
    rw [or_comm]
    refine or_congr_right ⟨fun hheld => hown hheld, ?_⟩
    rintro ⟨rfl, hcurrent⟩
    exact isCurrent_eq_true.1 hcurrent
  | finish u => simp [Gate.act]
  | cancelAll =>
    simp only [Gate.act, Gate.cancelAll, mem_append, mem_filterMap, reduceCtorEq, false_or,
      true_and]
    rw [or_comm]
    refine or_congr_right ⟨?_, fun hcurrent => ?_⟩
    · rintro ⟨action, -, hheld⟩
      exact (hown hheld).2
    · exact ⟨t.action, by cases t.action <;> decide, isCurrent_eq_true.1 hcurrent⟩

/-! ## 3. Histories of any length -/

theorem bounded_after (acts : List Act) : (after acts).Bounded := by
  induction acts using reverseRecOn with
  | nil => exact bounded_fresh
  | append_singleton acts a ih => exact after_snoc acts a ▸ ih.act a

theorem GivesOut.snoc_iff :
    GivesOut t (acts ++ [a]) before later ↔
      (before = acts ∧ later = [] ∧ a = .issue t.action ∧ ((after acts).issue t.action).1 = t) ∨
        ∃ rest, later = rest ++ [a] ∧ GivesOut t acts before rest := by
  rw [GivesOut, snoc_eq_iff]
  constructor
  · rintro ⟨⟨rfl, rfl, rfl⟩ | ⟨rest, rfl, rfl⟩, hgiven⟩
    · exact .inl ⟨rfl, rfl, rfl, hgiven⟩
    · exact .inr ⟨rest, rfl, rfl, hgiven⟩
  · rintro (⟨rfl, rfl, rfl, hgiven⟩ | ⟨rest, rfl, rfl, hgiven⟩)
    · exact ⟨.inl ⟨rfl, rfl, rfl⟩, hgiven⟩
    · exact ⟨.inr ⟨rest, rfl, rfl⟩, hgiven⟩

theorem Issued.out (h : Issued t acts) : (after acts).Out t := by
  induction acts using reverseRecOn with
  | nil =>
    obtain ⟨before, later, hnil, -⟩ := h
    simp at hnil
  | append_singleton acts a ih =>
    rw [after_snoc]
    obtain ⟨before, later, hgives⟩ := h
    rcases GivesOut.snoc_iff.1 hgives with ⟨-, -, rfl, hgiven⟩ | ⟨rest, -, hearlier⟩
    · have hout := ((bounded_after acts).out_issue t.action).1
      rwa [hgiven] at hout
    · exact (ih ⟨before, rest, hearlier⟩).act a

/-- A ticket is in force if it was given out and nothing that ends it came later. -/
theorem isCurrent_after (acts : List Act) (t : Ticket) :
    (after acts).isCurrent t = true ↔ ∃ before later, GivesOut t acts before later ∧
      ∀ a ∈ later, a ≠ .issue t.action ∧ a ≠ .finish t ∧ a ≠ .cancelAll := by
  induction acts using reverseRecOn with
  | nil =>
    refine ⟨nofun, ?_⟩
    rintro ⟨before, later, ⟨hnil, -⟩, -⟩
    simp at hnil
  | append_singleton acts a ih =>
    rw [after_snoc, isCurrent_act, ih]
    constructor
    · rintro (⟨⟨before, later, hgives, hlater⟩, ha⟩ | ⟨rfl, hgiven⟩)
      · refine ⟨before, later ++ [a], GivesOut.snoc_iff.2 (.inr ⟨later, rfl, hgives⟩), ?_⟩
        exact forall_mem_append.2 ⟨hlater, forall_mem_singleton.2 ha⟩
      · exact ⟨acts, [], GivesOut.snoc_iff.2 (.inl ⟨rfl, rfl, rfl, hgiven⟩), by simp⟩
    · rintro ⟨before, later, hgives, hlater⟩
      rcases GivesOut.snoc_iff.1 hgives with ⟨-, -, rfl, hgiven⟩ | ⟨rest, rfl, hearlier⟩
      · exact .inr ⟨rfl, hgiven⟩
      · rw [forall_mem_append] at hlater
        exact .inl ⟨⟨before, rest, hearlier, hlater.1⟩, hlater.2 a (by simp)⟩

theorem issued_of_isCurrent (h : (after acts).isCurrent t = true) : Issued t acts := by
  obtain ⟨before, later, hgives, -⟩ := (isCurrent_after acts t).1 h
  exact ⟨before, later, hgives⟩

theorem Issued.append (h : Issued t acts) (more : List Act) : Issued t (acts ++ more) := by
  obtain ⟨before, later, rfl, hgiven⟩ := h
  exact ⟨before, later ++ more, by simp, hgiven⟩

/-- A ticket that a history gives out is cancelled exactly if an act that cancels its kind came
upon it while it was in force. -/
theorem isCancelled_after (h : Issued t acts) :
    (after acts).isCancelled t = true ↔ ∃ before a later, acts = before ++ a :: later ∧
      (a = .issue t.action ∨ a = .cancelAll) ∧ (after before).isCurrent t = true := by
  induction acts using reverseRecOn with
  | nil =>
    obtain ⟨before, later, hnil, -⟩ := h
    simp at hnil
  | append_singleton acts a ih =>
    by_cases hearlier : Issued t acts
    · rw [after_snoc, hearlier.out.isCancelled_act, ih hearlier]
      constructor
      · rintro (⟨before, b, later, rfl, hb, hcurrent⟩ | ⟨ha, hcurrent⟩)
        · exact ⟨before, b, later ++ [a], by simp, hb, hcurrent⟩
        · exact ⟨acts, a, [], rfl, ha, hcurrent⟩
      · rintro ⟨before, b, later, hsplit, hb, hcurrent⟩
        rcases snoc_eq_iff.1 hsplit with ⟨rfl, rfl, -⟩ | ⟨rest, -, rfl⟩
        · exact .inr ⟨hb, hcurrent⟩
        · exact .inl ⟨before, b, rest, rfl, hb, hcurrent⟩
    · -- The last act gives the ticket out: it is in force now and was not before.
      have hnever : ∀ before b later, acts ++ [a] = before ++ b :: later →
          (after before).isCurrent t = false := by
        intro before b later hsplit
        refine Bool.eq_false_iff.2 fun hcurrent => hearlier ?_
        have hissued := issued_of_isCurrent hcurrent
        rcases snoc_eq_iff.1 hsplit with ⟨rfl, -⟩ | ⟨rest, -, rfl⟩
        · exact hissued
        · exact hissued.append _
      obtain ⟨before, later, hgives⟩ := id h
      rcases GivesOut.snoc_iff.1 hgives with ⟨-, -, rfl, hgiven⟩ | ⟨rest, -, hgives⟩
      · have hcurrent := isCurrent_act.2 (.inr ⟨rfl, hgiven⟩)
        rw [← after_snoc] at hcurrent
        constructor
        · intro hcancelled
          cases hcurrent.symm.trans (h.out.cancelled hcancelled)
        · rintro ⟨before, b, later, hsplit, -, hheld⟩
          cases hheld.symm.trans (hnever before b later hsplit)
      · exact absurd ⟨before, rest, hgives⟩ hearlier

theorem Issued.isCancelled_append (h : Issued t acts) (hc : (after acts).isCancelled t = true)
    (more : List Act) : (after (acts ++ more)).isCancelled t = true := by
  obtain ⟨before, a, later, rfl, ha, hcurrent⟩ := (isCancelled_after h).1 hc
  exact (isCancelled_after (h.append more)).2 ⟨before, a, later ++ more, by simp, ha, hcurrent⟩

theorem Out.act_elsewhere (h : g.Out t) {action : Action} (ha : a.kind? = some action)
    (hother : action ≠ t.action) :
    (g.act a).isCurrent t = g.isCurrent t ∧ (g.act a).isCancelled t = g.isCancelled t := by
  have hissue : a ≠ .issue t.action := by
    rintro rfl
    exact hother (some.inj ha).symm
  have hfinish : a ≠ .finish t := by
    rintro rfl
    exact hother (some.inj ha).symm
  have hclose : a ≠ .cancelAll := by
    rintro rfl
    cases ha
  constructor
  · rw [Bool.eq_iff_iff, isCurrent_act]
    simp [hissue, hfinish, hclose]
  · rw [Bool.eq_iff_iff, h.isCancelled_act]
    simp [hissue, hclose]

end CodeAssist.Gate

/-! ## 4. The chain -/

/-- A way along a chain that ends cancelled ends when its ticket is cancelled. -/
theorem CodeAssist.Session.Walks.ends {ticket : Ticket} {s : Session} {p : Pause (Ending Answer)}
    (h : Walks ticket s p) :
    p.Ends fun ending s => ending.isCancelled = true → s.gate.isCancelled ticket = true := by
  induction h with
  | ended h => exact .ended h
  | wait _ ih => exact .wait ih

/-! ## 5. The main statement -/

namespace CodeAssist.Gate

/-- After any history of a gate, at most one ticket of a kind is in force, and it is the last one
of its kind, neither given back nor cancelled since; a ticket is cancelled exactly if a later one
of its kind or a closing came upon it while it was in force. So no ticket in force is cancelled,
and a request that ends cancelled has a ticket that is past. Giving back a ticket that is past
changes nothing, and what is done to one kind is nothing to the tickets of another. -/
theorem tickets_by_history (acts : List Act) :
    (∀ t u, (after acts).isCurrent t = true → (after acts).isCurrent u = true →
      t.action = u.action → t = u) ∧
    (∀ t, (after acts).isCurrent t = true ↔ ∃ before later, GivesOut t acts before later ∧
      ∀ a ∈ later, a ≠ .issue t.action ∧ a ≠ .finish t ∧ a ≠ .cancelAll) ∧
    (∀ t, Issued t acts →
      ((after acts).isCancelled t = true ↔ ∃ before a later, acts = before ++ a :: later ∧
        (a = .issue t.action ∨ a = .cancelAll) ∧ (after before).isCurrent t = true) ∧
      ((after acts).isCurrent t = true → (after acts).isCancelled t = false) ∧
      ((after acts).isCancelled t = true → ∀ more, (after (acts ++ more)).isCancelled t = true ∧
        (after (acts ++ more)).isCurrent t = false) ∧
      ∀ a action, a.kind? = some action → action ≠ t.action →
        (after (acts ++ [a])).isCurrent t = (after acts).isCurrent t ∧
        (after (acts ++ [a])).isCancelled t = (after acts).isCancelled t) ∧
    (∀ t, (after acts).isCurrent t = false → after (acts ++ [.finish t]) = after acts) ∧
    ∀ accept job chain failed s, (Session.follow accept job chain failed s).Ends fun ending s =>
      ending.isCancelled = true → s.gate = after acts → Issued job.ticket acts →
        s.gate.isCurrent job.ticket = false := by
  refine ⟨fun t u ht hu hkind => ?_, isCurrent_after acts, fun t ht => ⟨isCancelled_after ht,
    fun hcurrent => ?_, fun hcancelled more => ?_, fun a action ha hother => ?_⟩, fun t hpast => ?_,
    fun accept job chain failed s => ?_⟩
  · rw [isCurrent_eq_true] at ht hu
    rw [hkind, hu] at ht
    cases t
    cases u
    cases hkind
    cases ht
    rfl
  · refine Bool.eq_false_iff.2 fun hcancelled => ?_
    cases hcurrent.symm.trans (ht.out.cancelled hcancelled)
  · have hlater := ht.isCancelled_append hcancelled more
    exact ⟨hlater, (ht.append more).out.cancelled hlater⟩
  · rw [after_snoc]
    exact ht.out.act_elsewhere ha hother
  · rw [after_snoc]
    exact finish_of_past hpast
  · refine (Session.follow_walks accept job chain failed s).ends.mono ?_
    intro ending s hends hending hgate hissued
    have hcancelled := hends hending
    rw [hgate] at hcancelled ⊢
    exact hissued.out.cancelled hcancelled

end CodeAssist.Gate
