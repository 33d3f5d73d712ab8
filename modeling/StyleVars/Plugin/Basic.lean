import StyleVars.Value.Structured

/-!
# Plugins

A plugin may replace every captured value, and the payload that is made of all of them. The plugins
of a pipeline are applied in order, each to what the one before it gave.
-/

namespace StyleVars

/-- What a plugin makes of a payload: an answer, or one that has to be waited for. -/
inductive Reply
  | ready (payload : Data)
  | later (outcome : Except Failure Data)

/-- A plugin with its options. -/
structure Plugin where
  name : Text
  options : Data.Entries
  onValue : Structured → Native → Except Failure Structured
  onPayload : Data → Except Failure Reply

/-- Plugins in the order in which they are applied. -/
abbrev Pipeline := List Plugin

/-- Whether the caller of a pipeline can wait for an answer. -/
inductive Patience
  | none
  | waits
  deriving DecidableEq

namespace Pipeline

/-- A captured value after all plugins; each of them also sees the native value. -/
def runOnValue (pipeline : Pipeline) (native : Native) (value : Structured) :
    Except Failure Structured :=
  pipeline.foldlM (fun value plugin => plugin.onValue value native) value

/-- A payload after all plugins, for a caller that cannot wait: no plugin may answer later. -/
def runAtOnce : Pipeline → Data → Except Failure Data
  | [], payload => .ok payload
  | plugin :: rest, payload => do
    match ← plugin.onPayload payload with
    | .ready result => runAtOnce rest result
    | .later _ => throw (.answersLater plugin.name)

/-- A payload after all plugins, for a caller that waits for each answer. -/
def runAwaiting : Pipeline → Data → Except Failure Data
  | [], payload => .ok payload
  | plugin :: rest, payload => do
    let result ←
      match ← plugin.onPayload payload with
      | .ready result => pure result
      | .later outcome => outcome
    runAwaiting rest result

/-- A payload after all plugins, in the form that is written for the caller. -/
def runOnPayload (patience : Patience) (pipeline : Pipeline) (payload : Data) :
    Except Failure Data :=
  match patience with
  | .none => pipeline.runAtOnce payload
  | .waits => pipeline.runAwaiting payload

/-- A payload after one plugin alone. -/
def applyToPayload (patience : Patience) (plugin : Plugin) (payload : Data) :
    Except Failure Data :=
  runOnPayload patience [plugin] payload

@[simp]
theorem runOnPayload_nil (patience : Patience) (payload : Data) :
    runOnPayload patience [] payload = .ok payload := by
  cases patience <;> rfl

/-- A plugin that answers at once gives its answer to every caller. -/
theorem applyToPayload_of_ready (patience : Patience) {plugin : Plugin} {payload : Data}
    {outcome : Except Failure Data} (h : plugin.onPayload payload = outcome.map .ready) :
    applyToPayload patience plugin payload = outcome := by
  rw [applyToPayload]
  cases patience with
  | none =>
    rw [runOnPayload, runAtOnce, h]
    cases outcome <;> rfl
  | waits =>
    rw [runOnPayload, runAwaiting, h]
    cases outcome <;> rfl

theorem runOnPayload_cons (patience : Patience) (plugin : Plugin) (rest : Pipeline)
    (payload : Data) :
    runOnPayload patience (plugin :: rest) payload =
      applyToPayload patience plugin payload >>= runOnPayload patience rest := by
  rw [applyToPayload]
  cases patience with
  | none =>
    rw [runOnPayload, runOnPayload, runAtOnce, runAtOnce]
    rcases plugin.onPayload payload with e | _ | _ <;> rfl
  | waits =>
    rw [runOnPayload, runOnPayload, runAwaiting, runAwaiting]
    rcases plugin.onPayload payload with e | _ | _ | _ <;> rfl

end Pipeline
end StyleVars
