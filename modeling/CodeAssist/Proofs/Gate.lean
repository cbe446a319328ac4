import CodeAssist.Gate

/-!
Tickets that are out.

A ticket is out from when it is given to when it is given back. While it is out, other tickets come
and go: it stays in force until one of its own kind is given out or the gate is closed, and it is
not cancelled as long as it is in force. Tickets of other kinds do not touch it.
-/

namespace CodeAssist.Gate

open List Option

/-- A gate that has given out all the tickets it speaks of. -/
structure Bounded (g : Gate) : Prop where
  holder : ∀ action n, g.holder action = some n → n ≤ g.issued
  cancelled : ∀ n ∈ g.cancelled, n ≤ g.issued

/-- A ticket that a gate has given out and that was not given back. -/
structure Out (g : Gate) (t : Ticket) : Prop where
  issued : t.number ≤ g.issued
  own : ∀ action, g.holder action = some t.number → action = t.action
  cancelled : g.isCancelled t = true → g.isCurrent t = false

variable {g : Gate} {t u : Ticket}

theorem isCurrent_eq_true : g.isCurrent t = true ↔ g.holder t.action = some t.number := by
  rw [isCurrent, beq_iff_eq]

theorem isCurrent_eq_false : g.isCurrent t = false ↔ g.holder t.action ≠ some t.number := by
  rw [isCurrent, beq_eq_false_iff_ne]

theorem isCancelled_eq_true : g.isCancelled t = true ↔ t.number ∈ g.cancelled := by
  rw [isCancelled, contains_iff_mem]

theorem bounded_fresh : fresh.Bounded :=
  ⟨nofun, nofun⟩

/-! ## 1. Giving out -/

theorem Bounded.issue (h : g.Bounded) (action : Action) : (g.issue action).2.Bounded where
  holder a n hn := by
    simp only [Gate.issue] at hn ⊢
    split at hn
    · exact Nat.le_of_eq (some.inj hn).symm
    · exact Nat.le_succ_of_le (h.holder a n hn)
  cancelled n hn := by
    simp only [Gate.issue] at hn ⊢
    rcases mem_append.1 hn with hreplaced | hbefore
    · exact Nat.le_succ_of_le (h.holder action n (mem_toList.1 hreplaced))
    · exact Nat.le_succ_of_le (h.cancelled n hbefore)

/-- A ticket that is given out is out and in force. -/
theorem Bounded.out_issue (h : g.Bounded) (action : Action) :
    (g.issue action).2.Out (g.issue action).1 ∧
      (g.issue action).2.isCurrent (g.issue action).1 = true := by
  have hcurrent : (g.issue action).2.isCurrent (g.issue action).1 = true := by
    rw [isCurrent_eq_true]
    exact if_pos rfl
  refine ⟨⟨Nat.le_refl _, fun a ha => ?_, fun hcancelled => ?_⟩, hcurrent⟩
  · simp only [Gate.issue] at ha ⊢
    split at ha
    · assumption
    · have hle := h.holder a _ ha
      omega
  · -- the number is new, so nothing that was cancelled has it
    rw [isCancelled_eq_true] at hcancelled
    simp only [Gate.issue] at hcancelled
    rcases mem_append.1 hcancelled with hreplaced | hbefore
    · have hle := h.holder action _ (mem_toList.1 hreplaced)
      omega
    · have hle := h.cancelled _ hbefore
      omega

/-- A ticket that is out stays in force when one of another kind is given, and only then. -/
theorem Out.issue (h : g.Out t) (action : Action) :
    (g.issue action).2.Out t ∧
      ((g.issue action).2.isCurrent t = true ↔ g.isCurrent t = true ∧ t.action ≠ action) := by
  have hissued := h.issued
  have hholder : ∀ a, (g.issue action).2.holder a = some t.number ↔
      g.holder a = some t.number ∧ a ≠ action := by
    intro a
    simp only [Gate.issue]
    split
    · rename_i hsame
      refine ⟨fun hn => ?_, fun hn => absurd hsame hn.2⟩
      have hnumber := some.inj hn
      omega
    · rename_i hother
      exact ⟨fun hn => ⟨hn, hother⟩, fun hn => hn.1⟩
  refine ⟨⟨Nat.le_succ_of_le h.issued, fun a ha => h.own a ((hholder a).1 ha).1, ?_⟩, ?_⟩
  · intro hcancelled
    rw [isCancelled_eq_true] at hcancelled
    rw [isCurrent_eq_false, Ne, hholder]
    rintro ⟨hcurrent, hother⟩
    rcases mem_append.1 hcancelled with hreplaced | hbefore
    · exact hother (h.own action (mem_toList.1 hreplaced)).symm
    · exact isCurrent_eq_false.1 (h.cancelled (isCancelled_eq_true.2 hbefore)) hcurrent
  · rw [isCurrent_eq_true, isCurrent_eq_true, hholder]

/-! ## 2. Giving back -/

theorem finish_holder_eq_some {action : Action} {n : Nat} :
    (g.finish u).holder action = some n ↔
      g.holder action = some n ∧ ¬ (g.isCurrent u = true ∧ action = u.action) := by
  rw [finish]
  split
  · rename_i hcurrent
    dsimp only
    split
    · rename_i hsame
      exact ⟨nofun, fun h => absurd ⟨hcurrent, hsame⟩ h.2⟩
    · rename_i hother
      exact ⟨fun h => ⟨h, fun hboth => hother hboth.2⟩, fun h => h.1⟩
  · rename_i hpast
    exact ⟨fun h => ⟨h, fun hboth => hpast hboth.1⟩, fun h => h.1⟩

@[simp] theorem finish_issued : (g.finish u).issued = g.issued := by
  rw [finish]
  split <;> rfl

@[simp] theorem finish_cancelled : (g.finish u).cancelled = g.cancelled := by
  rw [finish]
  split <;> rfl

theorem finish_of_past (h : g.isCurrent u = false) : g.finish u = g := by
  rw [finish, if_neg (by rw [h]; exact Bool.false_ne_true)]

theorem Bounded.finish (h : g.Bounded) (u : Ticket) : (g.finish u).Bounded where
  holder a n hn := by
    rw [finish_issued]
    exact h.holder a n (finish_holder_eq_some.1 hn).1
  cancelled n hn := by
    rw [finish_cancelled] at hn
    rw [finish_issued]
    exact h.cancelled n hn

theorem Out.finish (h : g.Out t) (hother : t.number ≠ u.number) :
    (g.finish u).Out t ∧ (g.finish u).isCurrent t = g.isCurrent t := by
  have hholder : ∀ a, (g.finish u).holder a = some t.number ↔ g.holder a = some t.number := by
    intro a
    refine finish_holder_eq_some.trans ⟨fun hn => hn.1, fun hn => ⟨hn, ?_⟩⟩
    rintro ⟨hcurrent, rfl⟩
    rw [isCurrent_eq_true, hn] at hcurrent
    exact hother (some.inj hcurrent)
  have hsame : (g.finish u).isCurrent t = g.isCurrent t := by
    rw [Bool.eq_iff_iff, isCurrent_eq_true, isCurrent_eq_true, hholder]
  refine ⟨⟨?_, fun a ha => h.own a ((hholder a).1 ha), fun hcancelled => ?_⟩, hsame⟩
  · rw [finish_issued]
    exact h.issued
  · rw [hsame]
    rw [isCancelled, finish_cancelled] at hcancelled
    exact h.cancelled hcancelled

/-! ## 3. Closing -/

theorem Bounded.cancelAll (h : g.Bounded) : g.cancelAll.Bounded where
  holder _ _ hn := nomatch hn
  cancelled n hn := by
    rcases mem_append.1 hn with hheld | hbefore
    · obtain ⟨a, -, ha⟩ := mem_filterMap.1 hheld
      exact h.holder a n ha
    · exact h.cancelled n hbefore

theorem Out.cancelAll (h : g.Out t) : g.cancelAll.Out t ∧ g.cancelAll.isCurrent t = false :=
  ⟨⟨h.issued, nofun, fun _ => rfl⟩, rfl⟩

end CodeAssist.Gate
