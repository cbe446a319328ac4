import CodeAssist.Proofs.Session.Course
import CodeAssist.Session.Request

/-!
How a walk along a chain ends.

Each member of a chain fails or answers, after a time that is no longer than the limit. A walk
passes over the members that fail and stops at the first one that answers, behind the last one, or
where its cancellation comes before the next event. What is known of a walk is said by the members
alone: `PassedOver` speaks of what they do, and not of the walk.
-/

namespace CodeAssist

open List

variable {front : List Provider} {counts' : Nat → Nat} {e : ProviderError} {reply : Reply}

/-! ## 1. Attempts -/

/-- The milliseconds that each member of a chain gets for a call. -/
def Call.limit (call : Call) : Nat :=
  call.options.timeoutMs.toNat

/-- A member fails after some time: with an error, with a reply that is refused, or because it has
said nothing when the time is up. -/
inductive Provider.Fails (p : Provider) (accept : Acceptance α) (call : Call) (earlier : Nat) :
    Nat → ProviderError → Prop where
  | erred {ms : Nat} {e : ProviderError}
      (h : p.complete earlier call = .answers ms (.error e)) (htime : ms ≤ call.limit) :
      Fails p accept call earlier ms e
  | refused {ms : Nat} {reply : Reply} {e : ProviderError}
      (h : p.complete earlier call = .answers ms (.ok reply)) (htime : ms ≤ call.limit)
      (hrefused : accept reply = .error e) : Fails p accept call earlier ms e
  | late (h : ∀ ms result, p.complete earlier call = .answers ms result → call.limit < ms) :
      Fails p accept call earlier call.limit (p.late call.limit)

/-- A member replies in time, and its reply is accepted. -/
structure Provider.Answers (p : Provider) (accept : Acceptance α) (call : Call) (earlier took : Nat)
    (value : α) (reply : Reply) : Prop where
  replied : p.complete earlier call = .answers took (.ok reply)
  inTime : took ≤ call.limit
  accepted : accept reply = .ok value

section Attempts

variable {p : Provider} {accept : Acceptance α} {call : Call} {earlier took : Nat}

theorem Provider.Fails.took_le (h : p.Fails accept call earlier took e) :
    took ≤ call.limit := by
  cases h with
  | erred _ htime => exact htime
  | refused _ htime _ => exact htime
  | late _ => exact Nat.le_refl _

theorem Provider.attempt_inTime {ms : Nat} {result : Except ProviderError Reply}
    (h : p.complete earlier call = .answers ms result) (htime : ms ≤ call.limit) :
    p.attempt accept call earlier = (ms, result.bind fun reply =>
      (accept reply).bind fun value => .ok (value, reply)) := by
  unfold Call.limit at htime
  simp only [Provider.attempt, h, Conduct.within, if_pos htime]
  rfl

theorem Provider.attempt_late
    (h : ∀ ms result, p.complete earlier call = .answers ms result → call.limit < ms) :
    p.attempt accept call earlier = (call.limit, .error (p.late call.limit)) := by
  unfold Call.limit at h ⊢
  cases hconduct : p.complete earlier call with
  | silent =>
    simp only [Provider.attempt, hconduct, Conduct.within]
    rfl
  | answers ms result =>
    have hlate := Nat.not_le.2 (h ms result hconduct)
    simp only [Provider.attempt, hconduct, Conduct.within, if_neg hlate]
    rfl

theorem Provider.fails_or_answers (p : Provider) (accept : Acceptance α) (call : Call)
    (earlier : Nat) :
    (∃ took e, p.Fails accept call earlier took e) ∨
      ∃ took value reply, p.Answers accept call earlier took value reply := by
  by_cases hlate : ∀ ms result, p.complete earlier call = .answers ms result → call.limit < ms
  · exact .inl ⟨_, _, .late hlate⟩
  · simp only [Classical.not_forall, Nat.not_lt] at hlate
    obtain ⟨ms, result, hconduct, htime⟩ := hlate
    cases result with
    | error e => exact .inl ⟨ms, e, .erred hconduct htime⟩
    | ok reply =>
      cases haccept : accept reply with
      | error e => exact .inl ⟨ms, e, .refused hconduct htime haccept⟩
      | ok value => exact .inr ⟨ms, value, reply, hconduct, htime, haccept⟩

theorem Provider.Fails.attempt_eq (h : p.Fails accept call earlier took e) :
    p.attempt accept call earlier = (took, .error e) := by
  cases h with
  | erred h htime =>
    rw [attempt_inTime h htime]
    rfl
  | refused h htime hrefused =>
    rw [attempt_inTime h htime]
    simp only [Except.bind, hrefused]
  | late h => exact attempt_late h

theorem Provider.Answers.attempt_eq {value : α}
    (h : p.Answers accept call earlier took value reply) :
    p.attempt accept call earlier = (took, .ok (value, reply)) := by
  rw [attempt_inTime h.replied h.inTime]
  simp only [Except.bind, h.accepted]

theorem Provider.Fails.not_answers {took' : Nat} {value : α}
    (h : p.Fails accept call earlier took e) :
    ¬ p.Answers accept call earlier took' value reply := by
  intro hanswers
  have hsame := h.attempt_eq.symm.trans hanswers.attempt_eq
  simp at hsame

theorem Provider.attempt_eq_error_iff :
    p.attempt accept call earlier = (took, .error e) ↔ p.Fails accept call earlier took e := by
  refine ⟨fun h => ?_, fun h => h.attempt_eq⟩
  rcases p.fails_or_answers accept call earlier with ⟨took', e', hfails⟩ | ⟨_, _, _, hanswers⟩
  · have hsame := hfails.attempt_eq.symm.trans h
    simp only [Prod.mk.injEq, Except.error.injEq] at hsame
    rw [← hsame.1, ← hsame.2]
    exact hfails
  · have hsame := hanswers.attempt_eq.symm.trans h
    simp at hsame

theorem Provider.attempt_eq_ok_iff {value : α} :
    p.attempt accept call earlier = (took, .ok (value, reply)) ↔
      p.Answers accept call earlier took value reply := by
  refine ⟨fun h => ?_, fun h => h.attempt_eq⟩
  rcases p.fails_or_answers accept call earlier with ⟨_, _, hfails⟩ | ⟨_, _, _, hanswers⟩
  · have hsame := hfails.attempt_eq.symm.trans h
    simp at hsame
  · have hsame := hanswers.attempt_eq.symm.trans h
    simp only [Prod.mk.injEq, Except.ok.injEq] at hsame
    obtain ⟨rfl, rfl, rfl⟩ := hsame
    exact hanswers

end Attempts

/-! ## 2. Counting -/

/-- One more call of each of the first members of a chain. -/
def Tally.calling (tally : Tally) (members : Nat) : Tally :=
  tally.mapIdx fun i count => if i < members then count + 1 else count

@[simp] theorem Tally.calling_zero (tally : Tally) : tally.calling 0 = tally := by
  apply ext_getElem?
  intro i
  simp [Tally.calling]

theorem Tally.count_calling {members i : Nat} (h : members ≤ i) (tally : Tally) :
    (tally.calling members).count i = tally.count i := by
  unfold Tally.calling Tally.count
  rw [getD_eq_getElem?_getD, getD_eq_getElem?_getD, getElem?_mapIdx]
  cases tally[i]? with
  | none => rfl
  | some n => simp [Nat.not_lt.2 h]

theorem Tally.bump_calling (tally : Tally) (members : Nat) :
    (tally.calling members).bump members = tally.calling (members + 1) := by
  unfold Tally.calling Tally.bump
  apply ext_getElem?
  intro i
  rw [getElem?_modify, getElem?_mapIdx, getElem?_mapIdx]
  cases tally[i]? with
  | none => simp
  | some n =>
    simp only [Option.map_some]
    split <;> split <;> split <;> simp <;> omega

/-! ## 3. Walks -/

/-- The members of a chain from a place on fail one after the other, and a log tells of their
attempts. The member at a place was called before as often as `counts` says. -/
inductive PassedOver (accept : Acceptance α) (call : Call) (counts : Nat → Nat) :
    Nat → List Provider → List Attempt → Prop where
  | nil {k : Nat} : PassedOver accept call counts k [] []
  | cons {k took : Nat} {p : Provider} {e : ProviderError} {members : List Provider}
      {log : List Attempt}
      (h : p.Fails accept call (counts k) took e)
      (hrest : PassedOver accept call counts (k + 1) members log) :
      PassedOver accept call counts k (p :: members) (⟨p.name, took, some e⟩ :: log)

/-- The members in front of one fail and that one answers, and a log tells of their attempts. -/
structure AnsweredBy (accept : Acceptance α) (call : Call) (counts : Nat → Nat) (k : Nat)
    (front : List Provider) (p : Provider) (value : α) (reply : Reply) (log : List Attempt) :
    Prop where
  attempts : ∃ failed took, PassedOver accept call counts k front failed ∧
    p.Answers accept call (counts (k + front.length)) took value reply ∧
    log = failed ++ [⟨p.name, took, none⟩]

/-- The time that a member takes, whether it fails or answers. -/
def Provider.Takes (p : Provider) (accept : Acceptance α) (call : Call) (earlier took : Nat) :
    Prop :=
  (∃ e, p.Fails accept call earlier took e) ∨
    ∃ value reply, p.Answers accept call earlier took value reply

def spent : List Attempt → Nat
  | [] => 0
  | a :: rest => a.elapsedMs + spent rest

@[simp] theorem spent_nil : spent [] = 0 :=
  rfl

@[simp] theorem spent_cons (a : Attempt) (log : List Attempt) :
    spent (a :: log) = a.elapsedMs + spent log :=
  rfl

@[simp] theorem spent_append (log more : List Attempt) :
    spent (log ++ more) = spent log + spent more := by
  induction log with
  | nil => simp
  | cons a log ih => simp [ih, Nat.add_assoc]

/-- A cancellation that comes before an instant comes before every later one. -/
theorem Cancellation.precedes_mono {cancel : Cancellation} {t t' : Nat} (hle : t ≤ t')
    (h : cancel.precedes t = true) : cancel.precedes t' = true := by
  cases cancel with
  | never => cases h
  | atStart => rfl
  | after ms =>
    simp only [Cancellation.precedes, decide_eq_true_eq] at h ⊢
    omega

theorem Cancellation.not_precedes_mono {cancel : Cancellation} {t t' : Nat} (hle : t ≤ t')
    (h : cancel.precedes t' = false) : cancel.precedes t = false := by
  cases hearly : cancel.precedes t with
  | false => rfl
  | true =>
    rw [Cancellation.precedes_mono hle hearly] at h
    cases h

theorem Cancellation.ne_atStart {cancel : Cancellation} {t : Nat}
    (h : cancel.precedes t = false) : cancel ≠ .atStart := by
  rintro rfl
  cases h

section Walks

variable {accept : Acceptance α} {call : Call} {cancel : Cancellation} {p : Provider}
  {i now took : Nat} {rest : List (Provider × Nat)} {failed : List Attempt} {tally : Tally}

theorem walk_of_fails (h : p.Fails accept call (tally.count i) took e)
    (hcancel : cancel.precedes (now + took) = false) :
    walk accept call cancel ((p, i) :: rest) now failed tally =
      walk accept call cancel rest (now + took) (failed ++ [⟨p.name, took, some e⟩])
        (tally.bump i) := by
  rw [walk, if_neg (Cancellation.ne_atStart hcancel), h.attempt_eq]
  simp only [hcancel, Bool.false_eq_true, if_false]

/-- A walk ends with a member that answers before the cancellation. -/
theorem walk_of_answers {value : α} (h : p.Answers accept call (tally.count i) took value reply)
    (hcancel : cancel.precedes (now + took) = false) :
    walk accept call cancel ((p, i) :: rest) now failed tally =
      ⟨.answered value reply (failed ++ [⟨p.name, took, none⟩]), now + took, tally.bump i⟩ := by
  rw [walk, if_neg (Cancellation.ne_atStart hcancel), h.attempt_eq]
  simp only [hcancel, Bool.false_eq_true, if_false]

theorem Provider.Takes.attempt_fst {earlier : Nat} (h : p.Takes accept call earlier took) :
    (p.attempt accept call earlier).1 = took := by
  rcases h with ⟨e, hfails⟩ | ⟨value, reply, hanswers⟩
  · rw [hfails.attempt_eq]
  · rw [hanswers.attempt_eq]

/-- A walk ends with a cancellation that comes before the next member has failed or answered. One
that was there from the start comes before the member is called. -/
theorem walk_of_cancelled (h : p.Takes accept call (tally.count i) took)
    (hcancel : cancel.precedes (now + took) = true) :
    walk accept call cancel ((p, i) :: rest) now failed tally =
      ⟨.cancelled failed, now, if cancel = .atStart then tally else tally.bump i⟩ := by
  rw [walk]
  by_cases hstart : cancel = .atStart
  · rw [if_pos hstart, if_pos hstart]
  · rw [← h.attempt_fst] at hcancel
    rw [if_neg hstart, if_neg hstart]
    simp only [hcancel, if_true]

end Walks

section Chains

variable {accept : Acceptance α} {call : Call} {cancel : Cancellation} {tally : Tally}

/-- A walk goes on behind the providers that it passed over. -/
theorem walk_passed {k : Nat} {members : List Provider} {log : List Attempt}
    (h : PassedOver accept call tally.count k members log) (behind : List Provider) (now : Nat)
    (failed : List Attempt)
    (hcancel : members = [] ∨ cancel.precedes (now + spent log) = false) :
    walk accept call cancel ((members ++ behind).zipIdx k) now failed (tally.calling k) =
      walk accept call cancel (behind.zipIdx (k + members.length)) (now + spent log)
        (failed ++ log) (tally.calling (k + members.length)) := by
  induction h generalizing now failed with
  | nil => simp
  | @cons k took p e members log hfails hrest ih =>
    have hlater : cancel.precedes (now + (took + spent log)) = false := by
      simpa using hcancel
    have hfails' : p.Fails accept call ((tally.calling k).count k) took e := by
      rw [Tally.count_calling (Nat.le_refl k)]
      exact hfails
    have hbehind := ih (now + took) (failed ++ [⟨p.name, took, some e⟩])
      (.inr (by rw [Nat.add_assoc]; exact hlater))
    rw [cons_append, zipIdx_cons,
      walk_of_fails hfails' (Cancellation.not_precedes_mono (by omega) hlater),
      Tally.bump_calling, hbehind]
    simp [Nat.add_assoc, Nat.add_comm 1 members.length]

/-- Where a walk along some members stops: behind the last one, at one that answers before the
cancellation, or at one that the cancellation does not wait for. -/
theorem exists_stop (accept : Acceptance α) (call : Call) (cancel : Cancellation)
    (counts : Nat → Nat) (members : List Provider) (k now : Nat) :
    ∃ front behind log, members = front ++ behind ∧ PassedOver accept call counts k front log ∧
      (front = [] ∨ cancel.precedes (now + spent log) = false) ∧
      (behind = [] ∨ ∃ p others took, behind = p :: others ∧
        ((∃ value reply, p.Answers accept call (counts (k + front.length)) took value reply ∧
            cancel.precedes (now + spent log + took) = false) ∨
          (p.Takes accept call (counts (k + front.length)) took ∧
            cancel.precedes (now + spent log + took) = true))) := by
  induction members generalizing k now with
  | nil => exact ⟨[], [], [], rfl, .nil, .inl rfl, .inl rfl⟩
  | cons p members ih =>
    rcases p.fails_or_answers accept call (counts k) with
      ⟨took, e, hfails⟩ | ⟨took, value, reply, hanswers⟩
    · cases hcancel : cancel.precedes (now + took) with
      | true =>
        refine ⟨[], p :: members, [], rfl, .nil, .inl rfl, .inr ⟨p, members, took, rfl, .inr ?_⟩⟩
        exact ⟨.inl ⟨e, hfails⟩, by simpa using hcancel⟩
      | false =>
        obtain ⟨front, behind, log, rfl, hpassed, hkept, hstop⟩ := ih (k + 1) (now + took)
        have hplace : k + (p :: front).length = k + 1 + front.length := by
          simp only [length_cons]
          omega
        have htime : ∀ t, now + (took + spent log) + t = now + took + spent log + t := by
          intro t
          omega
        refine ⟨p :: front, behind, ⟨p.name, took, some e⟩ :: log, rfl, .cons hfails hpassed,
          .inr ?_, ?_⟩
        · rcases hkept with rfl | hkept
          · cases hpassed
            simpa using hcancel
          · simpa [Nat.add_assoc] using hkept
        · rw [hplace]
          simpa only [spent_cons, htime] using hstop
    · refine ⟨[], p :: members, [], rfl, .nil, .inl rfl, .inr ⟨p, members, took, rfl, ?_⟩⟩
      cases hcancel : cancel.precedes (now + took) with
      | true => exact .inr ⟨.inr ⟨value, reply, hanswers⟩, by simpa using hcancel⟩
      | false => exact .inl ⟨value, reply, hanswers, by simpa using hcancel⟩

end Chains

/-! ## 4. Endings -/

def Ending.log : Ending α → List Attempt
  | answered _ _ log => log
  | exhausted failure => failure.attempts
  | cancelled log => log

/-- All that the walk of a call along a chain can come to. -/
inductive WalkEnds (chain : Chain) (accept : Acceptance α) (call : Call) (cancel : Cancellation)
    (tally : Tally) : Walk α → Prop where
  | answered {front behind : List Provider} {p : Provider} {failed : List Attempt} {took : Nat}
      {value : α} {reply : Reply} (hchain : chain = front ++ p :: behind)
      (hpassed : PassedOver accept call tally.count 0 front failed)
      (hanswers : p.Answers accept call (tally.count front.length) took value reply)
      (hcancel : cancel.precedes (spent failed + took) = false) :
      WalkEnds chain accept call cancel tally
        ⟨.answered value reply (failed ++ [⟨p.name, took, none⟩]), spent failed + took,
          tally.calling (front.length + 1)⟩
  | exhausted {log : List Attempt} (hpassed : PassedOver accept call tally.count 0 chain log)
      (hcancel : chain = [] ∨ cancel.precedes (spent log) = false) :
      WalkEnds chain accept call cancel tally
        ⟨.exhausted ⟨log⟩, spent log, tally.calling chain.length⟩
  | cancelled {front behind : List Provider} {p : Provider} {log : List Attempt} {took : Nat}
      (hchain : chain = front ++ p :: behind)
      (hpassed : PassedOver accept call tally.count 0 front log)
      (hkept : front = [] ∨ cancel.precedes (spent log) = false)
      (htakes : p.Takes accept call (tally.count front.length) took)
      (hcancel : cancel.precedes (spent log + took) = true) :
      WalkEnds chain accept call cancel tally
        ⟨.cancelled log, spent log,
          tally.calling (if cancel = .atStart then 0 else front.length + 1)⟩

section Endings

variable {chain : Chain} {accept : Acceptance α} {call : Call} {cancel : Cancellation}
  {tally : Tally} {w : Walk α}

theorem dispatch_passed {log : List Attempt} (h : PassedOver accept call tally.count 0 front log)
    (hcancel : front = [] ∨ cancel.precedes (spent log) = false) (behind : List Provider) :
    Chain.dispatch (front ++ behind) accept call cancel tally =
      walk accept call cancel (behind.zipIdx front.length) (spent log) log
        (tally.calling front.length) := by
  have hwalk := walk_passed h behind 0 [] (by simpa using hcancel)
  simpa [Chain.dispatch] using hwalk

/-- A walk that ends as specified is that of the chain. -/
theorem WalkEnds.eq_dispatch (h : WalkEnds chain accept call cancel tally w) :
    chain.dispatch accept call cancel tally = w := by
  cases h with
  | @answered front behind p failed took value reply hchain hpassed hanswers hcancel =>
    have hearlier : cancel.precedes (spent failed) = false :=
      Cancellation.not_precedes_mono (by omega) hcancel
    rw [← Tally.count_calling (Nat.le_refl _)] at hanswers
    rw [hchain, dispatch_passed hpassed (.inr hearlier), zipIdx_cons,
      walk_of_answers hanswers hcancel, Tally.bump_calling]
  | @exhausted log hpassed hcancel =>
    have hwalk := dispatch_passed hpassed hcancel []
    rw [append_nil] at hwalk
    rw [hwalk, zipIdx_nil, walk]
  | @cancelled front behind p log took hchain hpassed hkept htakes hcancel =>
    rw [← Tally.count_calling (Nat.le_refl _)] at htakes
    rw [hchain, dispatch_passed hpassed hkept, zipIdx_cons,
      walk_of_cancelled htakes hcancel, Tally.bump_calling]
    by_cases hstart : cancel = .atStart
    · -- Nobody fails before a cancellation that was there from the start.
      have hfront : front = [] := by
        rcases hkept with hnil | hlate
        · exact hnil
        · exact absurd hstart (Cancellation.ne_atStart hlate)
      simp [hstart, hfront]
    · simp [hstart]

/-- A walk along a chain ends in one of the specified ways. -/
theorem dispatch_ends (chain : Chain) (accept : Acceptance α) (call : Call)
    (cancel : Cancellation) (tally : Tally) :
    WalkEnds chain accept call cancel tally (chain.dispatch accept call cancel tally) := by
  obtain ⟨front, behind, log, hchain, hpassed, hkept, hstop⟩ :=
    exists_stop accept call cancel tally.count chain 0 0
  simp only [Nat.zero_add] at hkept hstop
  -- Each way to stop is a way to end, and there is one walk.
  suffices hends : ∃ w, WalkEnds chain accept call cancel tally w by
    obtain ⟨w, hw⟩ := hends
    rw [hw.eq_dispatch]
    exact hw
  rcases hstop with rfl | ⟨p, others, took, rfl, ⟨value, reply, hanswers, hcancel⟩ |
    ⟨htakes, hcancel⟩⟩
  · rw [append_nil] at hchain
    subst hchain
    exact ⟨_, .exhausted hpassed hkept⟩
  · exact ⟨_, .answered hchain hpassed hanswers hcancel⟩
  · exact ⟨_, .cancelled hchain hpassed hkept htakes hcancel⟩

/-- A walk is answered exactly when the members in front of some member failed and that one
answered, all before the cancellation. -/
theorem dispatch_answered_iff {value : α} {log : List Attempt} :
    (chain.dispatch accept call cancel tally).ending = .answered value reply log ↔
      (∃ front p behind, chain = front ++ p :: behind ∧
        AnsweredBy accept call tally.count 0 front p value reply log) ∧
      cancel.precedes (spent log) = false := by
  constructor
  · intro hending
    have hends := dispatch_ends chain accept call cancel tally
    generalize chain.dispatch accept call cancel tally = w at hends hending
    cases hends with
    | @answered front behind p failed took _ _ hchain hpassed hanswers hcancel =>
      cases hending
      refine ⟨⟨front, p, behind, hchain, ⟨failed, took, hpassed, ?_, rfl⟩⟩, by simpa using hcancel⟩
      rwa [Nat.zero_add]
    | exhausted => cases hending
    | cancelled => cases hending
  · rintro ⟨⟨front, p, behind, hchain, ⟨failed, took, hpassed, hanswers, rfl⟩⟩, hcancel⟩
    rw [Nat.zero_add] at hanswers
    have hends : WalkEnds chain accept call cancel tally _ :=
      .answered hchain hpassed hanswers (by simpa using hcancel)
    rw [hends.eq_dispatch]

/-- A walk is exhausted exactly when every member failed before the cancellation. -/
theorem dispatch_exhausted_iff {failure : Exhausted} :
    (chain.dispatch accept call cancel tally).ending = .exhausted failure ↔
      PassedOver accept call tally.count 0 chain failure.attempts ∧
      (chain = [] ∨ cancel.precedes (spent failure.attempts) = false) := by
  constructor
  · intro hending
    have hends := dispatch_ends chain accept call cancel tally
    generalize chain.dispatch accept call cancel tally = w at hends hending
    cases hends with
    | answered => cases hending
    | exhausted hpassed hcancel =>
      cases hending
      exact ⟨hpassed, hcancel⟩
    | cancelled => cases hending
  · rintro ⟨hpassed, hcancel⟩
    rw [(WalkEnds.exhausted hpassed hcancel).eq_dispatch]

/-- A walk is cancelled exactly when the cancellation comes after the failures of the members in
front of some member, and before that one has failed or answered. -/
theorem dispatch_cancelled_iff {log : List Attempt} :
    (chain.dispatch accept call cancel tally).ending = .cancelled log ↔
      ∃ front p behind took, chain = front ++ p :: behind ∧
        PassedOver accept call tally.count 0 front log ∧
        (front = [] ∨ cancel.precedes (spent log) = false) ∧
        p.Takes accept call (tally.count front.length) took ∧
        cancel.precedes (spent log + took) = true := by
  constructor
  · intro hending
    have hends := dispatch_ends chain accept call cancel tally
    generalize chain.dispatch accept call cancel tally = w at hends hending
    cases hends with
    | answered => cases hending
    | exhausted => cases hending
    | cancelled hchain hpassed hkept htakes hcancel =>
      cases hending
      exact ⟨_, _, _, _, hchain, hpassed, hkept, htakes, hcancel⟩
  · rintro ⟨front, p, behind, took, hchain, hpassed, hkept, htakes, hcancel⟩
    rw [(WalkEnds.cancelled hchain hpassed hkept htakes hcancel).eq_dispatch]

end Endings

section Logs

variable {accept : Acceptance α} {call : Call} {counts : Nat → Nat} {k : Nat}
  {members : List Provider} {log : List Attempt}

theorem PassedOver.names (h : PassedOver accept call counts k members log) :
    log.map (·.provider) = members.map (·.name) := by
  induction h with
  | nil => rfl
  | cons _ _ ih => simp [ih]

theorem PassedOver.length_eq (h : PassedOver accept call counts k members log) :
    log.length = members.length := by
  simpa using congrArg length h.names

theorem PassedOver.failed (h : PassedOver accept call counts k members log) :
    ∀ a ∈ log, a.elapsedMs ≤ call.limit ∧ ∃ e, a.error = some e := by
  induction h with
  | nil => simp
  | cons hfails _ ih =>
    intro a ha
    rcases mem_cons.1 ha with rfl | ha
    · exact ⟨hfails.took_le, _, rfl⟩
    · exact ih a ha

def Ending.isAnswered : Ending α → Bool
  | answered _ _ _ => true
  | _ => false

/-- How many members of a chain were called for an ending: those with an attempt in its log, and the
one that a cancellation did not wait for. -/
def Ending.calls (cancel : Cancellation) : Ending α → Nat
  | answered _ _ log => log.length
  | exhausted failure => failure.attempts.length
  | cancelled log => if cancel = .atStart then 0 else log.length + 1

theorem WalkEnds.tally_eq {chain : Chain} {cancel : Cancellation} {tally : Tally} {w : Walk α}
    (h : WalkEnds chain accept call cancel tally w) :
    w.tally = tally.calling (w.ending.calls cancel) := by
  cases h with
  | answered _ hpassed _ _ | exhausted hpassed _ | cancelled _ hpassed _ _ _ =>
    simp [Ending.calls, hpassed.length_eq]

theorem WalkEnds.names_eq {chain : Chain} {cancel : Cancellation} {tally : Tally} {w : Walk α}
    (h : WalkEnds chain accept call cancel tally w) :
    w.ending.log.map (·.provider) = chain.names.take w.ending.log.length := by
  cases h with
  | @answered front behind p failed took value reply hchain hpassed _ _ =>
    have hfront : (front.map (·.name)).take (front.length + 1) = front.map (·.name) :=
      take_of_length_le (by simp)
    simp [Ending.log, Chain.names, hchain, hpassed.names, hpassed.length_eq, take_append,
      hfront]
  | exhausted hpassed _ =>
    have hlength := hpassed.length_eq
    simp only [Ending.log, Chain.names, hpassed.names]
    rw [take_of_length_le (by simp [hlength])]
  | cancelled hchain hpassed _ _ _ =>
    simp [Ending.log, Chain.names, hchain, hpassed.names, hpassed.length_eq]

/-- No attempt of a walk took longer than the limit, and each has an error but the last one of a
walk that was answered. -/
theorem WalkEnds.attempts {chain : Chain} {cancel : Cancellation} {tally : Tally} {w : Walk α}
    (h : WalkEnds chain accept call cancel tally w) {i : Nat} {a : Attempt}
    (ha : w.ending.log[i]? = some a) :
    a.elapsedMs ≤ call.limit ∧
      (a.error = none ↔ w.ending.isAnswered = true ∧ i + 1 = w.ending.log.length) := by
  -- Members that were passed over have errors.
  have hfailed : ∀ {k : Nat} {members : List Provider} {log : List Attempt},
      PassedOver accept call tally.count k members log → a ∈ log →
      a.elapsedMs ≤ call.limit ∧ a.error ≠ none := by
    intro k members log hpassed hmem
    obtain ⟨htime, e, he⟩ := hpassed.failed a hmem
    exact ⟨htime, by simp [he]⟩
  cases h with
  | @answered front behind p failed took value reply _ hpassed hanswers _ =>
    simp only [Ending.log] at ha
    by_cases hlast : i < failed.length
    · rw [getElem?_append_left hlast] at ha
      obtain ⟨htime, herror⟩ := hfailed hpassed (mem_of_getElem? ha)
      refine ⟨htime, ⟨fun hnone => absurd hnone herror, fun hend => ?_⟩⟩
      simp only [Ending.log, length_append, length_singleton] at hend
      omega
    · rw [getElem?_append_right (Nat.not_lt.1 hlast), getElem?_singleton] at ha
      split at ha
      · cases ha
        refine ⟨hanswers.inTime, fun _ => ⟨rfl, ?_⟩, fun _ => rfl⟩
        simp only [Ending.log, length_append, length_singleton]
        omega
      · cases ha
  | exhausted hpassed _ | cancelled _ hpassed _ _ _ =>
    obtain ⟨htime, herror⟩ := hfailed hpassed (mem_of_getElem? ha)
    exact ⟨htime, by simp [herror, Ending.isAnswered]⟩

end Logs

/-! ## 5. Sessions -/

section Counts

variable {accept : Acceptance α} {call : Call} {counts : Nat → Nat} {k : Nat}

theorem PassedOver.congr {members : List Provider} {log : List Attempt}
    (h : PassedOver accept call counts k members log) (hsame : ∀ i, k ≤ i → counts' i = counts i) :
    PassedOver accept call counts' k members log := by
  induction h with
  | nil => exact .nil
  | @cons k took p e members log hfails hrest ih =>
    rw [← hsame k (Nat.le_refl k)] at hfails
    exact .cons hfails (ih fun i hi => hsame i (by omega))

theorem AnsweredBy.congr {p : Provider} {value : α} {log : List Attempt}
    (h : AnsweredBy accept call counts k front p value reply log)
    (hsame : ∀ i, k ≤ i → counts' i = counts i) :
    AnsweredBy accept call counts' k front p value reply log := by
  obtain ⟨failed, took, hpassed, hanswers, hlog⟩ := h.attempts
  rw [← hsame (k + front.length) (Nat.le_add_right _ _)] at hanswers
  exact ⟨failed, took, hpassed.congr hsame, hanswers, hlog⟩

theorem AnsweredBy.cons {q p : Provider} {took : Nat}
    (hfails : q.Fails accept call (counts k) took e) {value : α} {log : List Attempt}
    (h : AnsweredBy accept call counts (k + 1) front p value reply log) :
    AnsweredBy accept call counts k (q :: front) p value reply
      (⟨q.name, took, some e⟩ :: log) := by
  obtain ⟨failed, took', hpassed, hanswers, rfl⟩ := h.attempts
  have hplace : k + 1 + front.length = k + (q :: front).length := by
    simp only [length_cons]
    omega
  rw [hplace] at hanswers
  exact ⟨_, took', .cons hfails hpassed, hanswers, rfl⟩

end Counts

namespace Session

/-- All that going along some members of a chain can come to, from a session to a later one, with
the attempts that failed before. `counts` says how often each member was called when the request
came to it. -/
inductive FollowEnds (accept : Acceptance Answer) (job : Job) (counts : Nat → Nat) (k : Nat)
    (members : List Provider) (failed : List Attempt) (s : Session) :
    Ending Answer → Session → Prop where
  | answered {front behind : List Provider} {p : Provider} {value : Answer} {reply : Reply}
      {log : List Attempt} {t : Session} (hmembers : members = front ++ p :: behind)
      (hlog : AnsweredBy accept job.call counts k front p value reply log)
      (hticket : t.gate.isCancelled job.ticket = false) :
      FollowEnds accept job counts k members failed s (.answered value reply (failed ++ log)) t
  | exhausted {log : List Attempt} {t : Session}
      (hpassed : PassedOver accept job.call counts k members log)
      (hticket : s.gate.isCancelled job.ticket = false →
        t.gate.isCancelled job.ticket = false) :
      FollowEnds accept job counts k members failed s (.exhausted ⟨failed ++ log⟩) t
  | cancelled {front behind : List Provider} {p : Provider} {log : List Attempt} {t : Session}
      (hmembers : members = front ++ p :: behind)
      (hpassed : PassedOver accept job.call counts k front log)
      (hticket : t.gate.isCancelled job.ticket = true) :
      FollowEnds accept job counts k members failed s (.cancelled (failed ++ log)) t

/-- A request goes past a member that fails while its ticket holds. -/
theorem FollowEnds.cons {accept : Acceptance Answer} {job : Job} {counts : Nat → Nat} {k took : Nat}
    {p : Provider} {members : List Provider} {failed : List Attempt} {s t u : Session}
    {ending : Ending Answer} (hfails : p.Fails accept job.call (counts k) took e)
    (hticket : t.gate.isCancelled job.ticket = false)
    (h : FollowEnds accept job counts (k + 1) members (failed ++ [⟨p.name, took, some e⟩]) t
      ending u) :
    FollowEnds accept job counts k (p :: members) failed s ending u := by
  cases h with
  | answered hmembers hlog hend =>
    rw [append_assoc]
    exact .answered (by rw [hmembers]; rfl) (hlog.cons hfails) hend
  | exhausted hpassed hend =>
    rw [append_assoc]
    exact .exhausted (.cons hfails hpassed) fun _ => hend hticket
  | cancelled hmembers hpassed hend =>
    rw [append_assoc]
    exact .cancelled (by rw [hmembers]; rfl) (.cons hfails hpassed) hend

theorem FollowEnds.congr {accept : Acceptance Answer} {job : Job} {counts : Nat → Nat} {k : Nat}
    {members : List Provider} {failed : List Attempt} {s t : Session} {ending : Ending Answer}
    (h : FollowEnds accept job counts k members failed s ending t)
    (hsame : ∀ i, k ≤ i → counts' i = counts i) :
    FollowEnds accept job counts' k members failed s ending t := by
  cases h with
  | answered hmembers hlog hend => exact .answered hmembers (hlog.congr hsame) hend
  | exhausted hpassed hend => exact .exhausted (hpassed.congr hsame) hend
  | cancelled hmembers hpassed hend => exact .cancelled hmembers (hpassed.congr hsame) hend

/-- Whatever goes on while a request waits, it ends in one of these ways. -/
theorem follow_ends (accept : Acceptance Answer) (job : Job) (members : List Provider) (k : Nat)
    (failed : List Attempt) (s : Session) :
    (follow accept job (members.zipIdx k) failed s).Ends fun ending t =>
      ∃ counts, FollowEnds accept job counts k members failed s ending t := by
  induction members generalizing k failed s with
  | nil =>
    refine Course.ends_pure ⟨fun _ => 0, ?_⟩
    have hends : FollowEnds accept job (fun _ => 0) k [] failed s (.exhausted ⟨failed ++ []⟩) s :=
      .exhausted .nil id
    simpa using hends
  | cons p members ih =>
    rw [zipIdx_cons, follow]
    refine Course.ends_bind (Course.ends_get (P := fun _ _ => True) trivial) fun now u _ => ?_
    generalize hattempt : p.attempt accept job.call (now.tally.count k) = tried
    obtain ⟨took, outcome⟩ := tried
    refine Course.ends_bind (Course.ends_modify _ u) fun _ u _ => ?_
    refine Course.ends_bind (Course.ends_rest took _ u) fun _ u _ => ?_
    refine Course.ends_bind (Course.ends_get (P := fun seen t => seen = u ∧ t = u) ⟨rfl, rfl⟩) ?_
    rintro seen t ⟨rfl, rfl⟩
    split
    · rename_i hcancelled
      have hmembers : p :: members = [] ++ p :: members := rfl
      have hends : FollowEnds accept job (fun _ => 0) k (p :: members) failed s
          (.cancelled (failed ++ [])) t := .cancelled hmembers .nil hcancelled
      exact Course.ends_pure ⟨_, by simpa using hends⟩
    · rename_i hheld
      have hticket : t.gate.isCancelled job.ticket = false := by simpa using hheld
      cases outcome with
      | ok pair =>
        obtain ⟨value, reply⟩ := pair
        have hanswers := Provider.attempt_eq_ok_iff.1 hattempt
        have hmembers : p :: members = [] ++ p :: members := rfl
        refine Course.ends_pure ⟨fun _ => now.tally.count k, ?_⟩
        exact .answered hmembers ⟨[], took, .nil, hanswers, rfl⟩ hticket
      | error e =>
        have hfails := Provider.attempt_eq_error_iff.1 hattempt
        -- The member was called as often as it was seen, the others as the rest of the way says.
        refine (ih (k + 1) (failed ++ [⟨p.name, took, some e⟩]) t).mono ?_
        rintro ending v ⟨counts, hends⟩
        refine ⟨fun i => if i = k then now.tally.count k else counts i, ?_⟩
        refine FollowEnds.cons (t := t) (by simpa using hfails) hticket (hends.congr ?_)
        intro i hi
        rw [if_neg (by omega)]

end Session

/-! ## 6. The main statement -/

/-- A walk is answered exactly when the members in front of some member failed and that one gave a
reply that was accepted, it is exhausted exactly when every member failed, and it is cancelled
exactly when the cancellation came before the next of these events. Its log has the attempts of the
first members in order, none longer than the limit, each with an error but the one that was
accepted; these members were called once more, and the one that a cancellation did not wait for, and
nobody else. And whatever goes on in a session while a request waits, its log is of the same kind,
and it is cancelled only when its ticket is. -/
theorem dispatch_first_accepted (chain : Chain) (accept : Acceptance α) (call : Call)
    (cancel : Cancellation) (tally : Tally) :
    let w := chain.dispatch accept call cancel tally
    (∀ value reply log, w.ending = .answered value reply log ↔
      (∃ front p behind, chain = front ++ p :: behind ∧
        AnsweredBy accept call tally.count 0 front p value reply log) ∧
      cancel.precedes (spent log) = false) ∧
    (∀ failure, w.ending = .exhausted failure ↔
      PassedOver accept call tally.count 0 chain failure.attempts ∧
      (chain = [] ∨ cancel.precedes (spent failure.attempts) = false)) ∧
    (∀ log, w.ending = .cancelled log ↔
      ∃ front p behind took, chain = front ++ p :: behind ∧
        PassedOver accept call tally.count 0 front log ∧
        (front = [] ∨ cancel.precedes (spent log) = false) ∧
        p.Takes accept call (tally.count front.length) took ∧
        cancel.precedes (spent log + took) = true) ∧
    w.ending.log.map (·.provider) = chain.names.take w.ending.log.length ∧
    (∀ i a, w.ending.log[i]? = some a → a.elapsedMs ≤ call.options.timeoutMs.toNat ∧
      (a.error = none ↔ w.ending.isAnswered = true ∧ i + 1 = w.ending.log.length)) ∧
    w.tally = tally.calling (w.ending.calls cancel) ∧
    ∀ (read : Acceptance Answer) (job : Session.Job) (s : Session),
      (Session.follow read job chain.zipIdx [] s).Ends fun ending t =>
        ∃ counts, Session.FollowEnds read job counts 0 chain [] s ending t := by
  intro w
  have hends : WalkEnds chain accept call cancel tally w :=
    dispatch_ends chain accept call cancel tally
  refine ⟨fun value reply log => dispatch_answered_iff, fun failure => dispatch_exhausted_iff,
    fun log => dispatch_cancelled_iff, hends.names_eq, fun i a ha => hends.attempts ha,
    hends.tally_eq, fun read job s => ?_⟩
  exact Session.follow_ends read job chain 0 [] s

/-- A member that does the same whenever it is called. -/
def steady (name : String) (conduct : Conduct Reply) : Provider :=
  ⟨name, false, fun _ _ => conduct, .silent⟩

/-- A member that says something after some time. -/
def replying (name : String) (ms : Nat) (text : String) : Provider :=
  steady name (.answers ms (.ok ⟨name, text, [], .null⟩))

/-- One member never answers, the reply of the next is refused, and the third one answers. -/
def rehearsal : Chain :=
  [steady "mute" .silent, replying "vague" 30 "perhaps", replying "clear" 20 "yes",
    replying "spare" 0 "yes"]

/-- A call with fifty milliseconds for each member. -/
def briefCall : Call :=
  ⟨"1", default, { (default : Options) with timeoutMs := 50 }⟩

def acceptYes : Acceptance String := fun reply =>
  if reply.text = "yes" then .ok reply.text else .error (.malformed "unclear")

/-- The attempts of the two members that fail. -/
def failedRehearsal : List Attempt :=
  [⟨"mute", 50, some ((steady "mute" .silent).late 50)⟩,
    ⟨"vague", 30, some (.malformed "unclear")⟩]

theorem rehearsal_passed :
    PassedOver acceptYes briefCall (Tally.count [0, 0, 0, 0]) 0 (rehearsal.take 2)
      failedRehearsal := by
  refine .cons (.late fun ms result h => ?_) (.cons (.refused rfl ?_ rfl) .nil)
  · cases h
  · decide

/-- An answer at the very instant of the cancellation counts, and one a millisecond later does
not. -/
theorem dispatch_first_accepted_tie :
    let reply : Reply := ⟨"clear", "yes", [], .null⟩
    let w := rehearsal.dispatch acceptYes briefCall (.after 100) [0, 0, 0, 0]
    let w' := rehearsal.dispatch acceptYes briefCall (.after 99) [0, 0, 0, 0]
    w.ending = .answered "yes" reply (failedRehearsal ++ [⟨"clear", 20, none⟩]) ∧
      w.tally = [1, 1, 1, 0] ∧ (∀ a ∈ w.ending.log, a.elapsedMs ≤ 50) ∧
      w'.ending = .cancelled failedRehearsal ∧ w'.tally = [1, 1, 1, 0] := by
  intro reply w w'
  have hanswers : (replying "clear" 20 "yes").Answers acceptYes briefCall 0 20 "yes" reply :=
    ⟨rfl, by decide, rfl⟩
  obtain ⟨hanswered, -, -, -, hlimit, htally, -⟩ :=
    dispatch_first_accepted rehearsal acceptYes briefCall (.after 100) [0, 0, 0, 0]
  obtain ⟨-, -, hcancelled, -, -, htally', -⟩ :=
    dispatch_first_accepted rehearsal acceptYes briefCall (.after 99) [0, 0, 0, 0]
  have hending : w.ending = .answered "yes" reply (failedRehearsal ++ [⟨"clear", 20, none⟩]) :=
    (hanswered _ _ _).2 ⟨⟨rehearsal.take 2, _, _, rfl, ⟨_, 20, rehearsal_passed, hanswers, rfl⟩⟩,
      by decide⟩
  have hending' : w'.ending = .cancelled failedRehearsal :=
    (hcancelled _).2 ⟨rehearsal.take 2, _, _, 20, rfl, rehearsal_passed, .inr (by decide),
      .inr ⟨_, _, hanswers⟩, by decide⟩
  refine ⟨hending, ?_, fun a ha => ?_, hending', ?_⟩
  · rw [htally, hending]
    rfl
  · obtain ⟨i, hi⟩ := List.mem_iff_getElem?.1 ha
    exact (hlimit i a hi).1
  · rw [htally', hending']
    rfl

end CodeAssist
