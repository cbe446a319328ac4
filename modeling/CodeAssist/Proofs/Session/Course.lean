import CodeAssist.Session.Course

/-!
What a course comes to, whatever goes on at its pauses.

At a pause other operations may change the session in any way and a write may succeed or fail.
`Pause.Ends P` says that the operation ends with `P` all the same. It is shown course by course:
for what happens at once, for a rest, and for courses one after the other (`Course.ends_bind`).
-/

namespace CodeAssist

/-- Every way on from a pause ends with a value and a session for which `P` holds. -/
inductive Pause.Ends (P : α → Session → Prop) : Pause α → Prop
  | ended {value : α} {s : Session} (h : P value s) : Ends P (.ended value s)
  | turn {s : Session} {next : Session → Pause α} (h : ∀ s, Ends P (next s)) :
    Ends P (.turn s next)
  | write {s : Session} {next : Except StoreError Unit → Session → Pause α}
    (h : ∀ result s, Ends P (next result s)) : Ends P (.write s next)
  | wait {wakeAt : Nat} {ticket : Option Ticket} {s : Session} {next : Session → Pause α}
    (h : ∀ s, Ends P (next s)) : Ends P (.wait wakeAt ticket s next)

theorem Pause.Ends.mono {P Q : α → Session → Prop} {p : Pause α} (h : p.Ends P)
    (hmono : ∀ value s, P value s → Q value s) : p.Ends Q := by
  induction h with
  | ended h => exact .ended (hmono _ _ h)
  | turn _ ih => exact .turn ih
  | write _ ih => exact .write ih
  | wait _ ih => exact .wait ih

namespace Course

variable {P : β → Session → Prop} {Q : α → Session → Prop}

theorem ends_pure {value : β} {s : Session} (h : P value s) :
    ((pure value : Course β) s).Ends P :=
  .ended h

theorem act_bind (f : Session → α × Session) (next : α → Course β) (s : Session) :
    (act f >>= next) s = next (f s).1 (f s).2 :=
  rfl

theorem ends_act {f : Session → β × Session} {s : Session} (h : P (f s).1 (f s).2) :
    (act f s).Ends P :=
  .ended h

theorem ends_get {P : Session → Session → Prop} {s : Session} (h : P s s) :
    ((get : Course Session) s).Ends P :=
  .ended h

theorem ends_modify (f : Session → Session) (s : Session) :
    ((modify f : Course Unit) s).Ends fun _ _ => True :=
  .ended trivial

theorem ends_bind {c : Course α} {k : α → Course β} {s : Session} (hc : (c s).Ends Q)
    (hk : ∀ value s, Q value s → (k value s).Ends P) : ((c >>= k) s).Ends P := by
  have hthen : ∀ p : Pause α, p.Ends Q → (p.andThen k).Ends P := by
    intro p hp
    induction hp with
    | ended h => exact hk _ _ h
    | turn _ ih => exact .turn ih
    | write _ ih => exact .write ih
    | wait _ ih => exact .wait ih
  exact hthen (c s) hc

theorem ends_rest (ms : Nat) (ticket : Option Ticket) (s : Session) :
    (rest ms ticket s).Ends fun _ _ => True := by
  rw [rest]
  split
  · exact .ended trivial
  · exact .wait fun _ => .ended trivial

end Course

end CodeAssist
