import CodeAssist.Provider.Chain
import CodeAssist.Reply.Suggestions

/-!
Providers that play a script, for rehearsals of a chain.
-/

namespace CodeAssist

inductive Step where
  | reply (afterMs : Nat) (text : String)
  | fail (error : ProviderError)
  | hang
  deriving DecidableEq, Repr

namespace Step

def conduct (name : String) (call : Call) : Step → Conduct Reply
  | reply afterMs text =>
    .answers afterMs (.ok {
      provider := name
      text
      suggestions := if call.prompt.action = .completion then Reply.suggested text else []
      raw := .null })
  | fail e => .answers 0 (.error e)
  | hang => .silent

def health (models : Option Nat) : Step → Conduct (Option Nat)
  | reply afterMs _ => .answers afterMs (.ok models)
  | fail e => .answers 0 (.error e)
  | hang => .silent

end Step

/-- A script: each call plays the next step and the last step repeats. Without steps the provider
hangs. -/
structure Script where
  name : String
  isLocal : Bool := false
  steps : List Step
  health : Step := .reply 0 ""
  models : Option Nat := none

/-- The step of a script for a call, by the number of calls before. -/
def Script.step (s : Script) (earlier : Nat) : Step :=
  (s.steps[min earlier (s.steps.length - 1)]?).getD .hang

def Script.provider (s : Script) : Provider where
  name := s.name
  isLocal := s.isLocal
  complete := fun earlier call => (s.step earlier).conduct s.name call
  health := s.health.health s.models

end CodeAssist
