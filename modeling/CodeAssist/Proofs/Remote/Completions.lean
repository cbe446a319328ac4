import CodeAssist.Proofs.Disk.Frame
import CodeAssist.Proofs.Reply.Suggestions
import CodeAssist.Remote.Adapter

/-!
Completions from remote providers, and the suggestions in them.

A remote completion is accepted by its whole text and read line by line. The two tests for an empty
reply differ: a text is refused when it is blank, while a line gives no suggestion when it is blank
or a fence. So a reply that is made of fences is accepted with nothing in it. A list marker is no
further difference: behind it something of the line is always left (`suggestionText_ends`).
-/

namespace CodeAssist

open Text List

/-! ## 1. Lines -/

namespace Reply

/-- A text suggests nothing if and only if each of its lines is blank or a fence. -/
theorem suggested_eq_nil_iff (text : String) :
    suggested text = [] ↔
      ∀ line ∈ lines text.toList, line.all isBlank = true ∨ isFence line = true := by
  have hlines : suggested text = [] ↔ (lines text.toList).filter isSuggestionLine = [] := by
    rw [suggested_eq, map_eq_nil_iff, zipIdx_eq_nil_iff, take_eq_nil_iff]
    exact or_iff_right (by decide)
  rw [hlines, filter_eq_nil_iff]
  refine forall_congr' fun line => imp_congr_right fun _ => ?_
  rw [isSuggestionLine]
  cases line.all isBlank <;> simp

end Reply

/-! ## 2. Adapters -/

namespace Remote.Adapter

/-- The answer to a call has a text. -/
def Answers (a : Adapter) (call : Call) (out : Outside) (text : String) : Prop :=
  ∃ request body raw, a.callRequest call = .ok request ∧
    (out.send request).body a.name = .ok body ∧ Json.read body = some raw ∧
    a.answerText (out.explain body) raw = .ok text

/-- A completion is refused if its text is blank, and otherwise accepted with the suggestions of its
lines. -/
theorem complete_of_answers {a : Adapter} {call : Call} {out : Outside}
    {text : String} (hcall : call.prompt.action = .completion) (h : a.Answers call out text) :
    ∃ raw, a.complete call out =
      if isBlankText text = true then .error (.malformed s!"{a.name}: empty completion")
      else .ok ⟨a.name, text, Reply.suggested text, raw⟩ := by
  obtain ⟨request, body, raw, hrequest, hbody, hraw, htext⟩ := h
  refine ⟨raw, ?_⟩
  simp only [complete, replyOf, hrequest, hbody, hraw, htext, hcall, bind, Except.bind,
    beq_self_eq_true, Bool.true_and, if_true]

theorem answers_of_complete {a : Adapter} {call : Call} {out : Outside}
    {reply : Reply} (h : a.complete call out = .ok reply) : a.Answers call out reply.text := by
  obtain ⟨request, hrequest, h⟩ := exists_of_bind_ok h
  obtain ⟨body, hbody, h⟩ := exists_of_bind_ok h
  rw [replyOf] at h
  split at h
  · cases h
  · rename_i raw hraw
    obtain ⟨text, htext, h⟩ := exists_of_bind_ok h
    split at h
    · cases h
    · cases h
      exact ⟨request, body, raw, hrequest, hbody, hraw, htext⟩

/-- A reply to a completion is refused as malformed exactly when its text is blank. Each other one
is accepted, and it suggests nothing if and only if each of its lines is blank or a fence. -/
theorem completions_suggest_iff {a : Adapter} {call : Call} (out : Outside)
    (hcall : call.prompt.action = .completion) :
    (∀ text, a.Answers call out text → isBlankText text = true →
      a.complete call out = .error (.malformed s!"{a.name}: empty completion")) ∧
    (∀ text, a.Answers call out text → isBlankText text = false →
      ∃ reply, a.complete call out = .ok reply ∧ reply.text = text) ∧
    (∀ reply, a.complete call out = .ok reply →
      a.Answers call out reply.text ∧ isBlankText reply.text = false ∧
      (reply.suggestions = [] ↔ ∀ line ∈ lines reply.text.toList,
        line.all isBlank = true ∨ Reply.isFence line = true)) := by
  refine ⟨fun text htext hblank => ?_, fun text htext hblank => ?_, fun reply hreply => ?_⟩
  · obtain ⟨raw, hcomplete⟩ := complete_of_answers hcall htext
    rw [hcomplete, if_pos hblank]
  · obtain ⟨raw, hcomplete⟩ := complete_of_answers hcall htext
    rw [if_neg (by rw [hblank]; decide)] at hcomplete
    exact ⟨_, hcomplete, rfl⟩
  · have htext := answers_of_complete hreply
    obtain ⟨raw, hcomplete⟩ := complete_of_answers hcall htext
    rw [hreply] at hcomplete
    split at hcomplete
    · cases hcomplete
    · rename_i hblank
      refine ⟨htext, Bool.eq_false_iff.2 hblank, ?_⟩
      have hsuggested : reply.suggestions = Reply.suggested reply.text :=
        congrArg Reply.suggestions (Except.ok.inj hcomplete)
      rw [hsuggested]
      exact Reply.suggested_eq_nil_iff reply.text

def lineCall : Call :=
  ⟨"r1", ⟨.completion, "Suggest completions.", "in", default⟩, .forAction .completion⟩

def generator : Adapter :=
  ⟨"ollama", ollamaUrl, ollamaModel, .generate⟩

/-- Its answer, a completion fenced on one line. -/
def fencedAnswer : Outside where
  send _ := .answered 200 "\x7b\"response\": \"```int x;```\"\x7d"
  explain _ := "expected value"

theorem completions_suggest_iff_fenced :
    lineCall.prompt.action = .completion ∧
    ∃ reply, generator.complete lineCall fencedAnswer = .ok reply ∧
      isBlankText reply.text = false ∧ reply.suggestions = [] := by
  have hdone : (generator.complete lineCall fencedAnswer).toOption.map Reply.text =
      some "```int x;```" := by
    decide +kernel
  cases hreply : generator.complete lineCall fencedAnswer with
  | error e =>
    rw [hreply] at hdone
    cases hdone
  | ok reply =>
    rw [hreply] at hdone
    have htext : reply.text = "```int x;```" := Option.some.inj hdone
    obtain ⟨-, hvisible, hnone⟩ := (completions_suggest_iff fencedAnswer rfl).2.2 reply hreply
    refine ⟨rfl, reply, rfl, hvisible, hnone.2 ?_⟩
    rw [htext]
    decide +kernel

/-- The line is completed, and nothing is suggested. -/
theorem fenced_completion_accepted :
    ((generator.complete lineCall fencedAnswer).toOption.map fun reply =>
      (reply.text, reply.suggestions)) = some ("```int x;```", []) := by
  decide +kernel

end Remote.Adapter

end CodeAssist
