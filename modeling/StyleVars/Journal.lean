import StyleVars.Compile.Work

/-!
# What happened so far

An extraction leaves a record of what it did, whether it succeeds or fails: messages for the log,
and for each compilation what it was told and what it noted.
-/

namespace StyleVars

/-- How much a message matters. -/
inductive Level
  | debug
  | info
  | warning
  | error
  | critical
  deriving DecidableEq

namespace Level

/-- The place of a level in their order. -/
def rank : Level → Nat
  | debug => 10
  | info => 20
  | warning => 30
  | error => 40
  | critical => 50

/-- The name of a level. -/
def name : Level → Text
  | debug => "DEBUG".toText
  | info => "INFO".toText
  | warning => "WARNING".toText
  | error => "ERROR".toText
  | critical => "CRITICAL".toText

end Level

/-- A message of one of the stages of an extraction. -/
structure Note where
  stage : Text
  level : Level
  message : Text

/-- A compilation: what the compiler was told and what it noted. -/
structure Pass where
  request : CompileRequest
  trace : List TraceEvent

/-- Something that happened. -/
inductive Event
  | note (note : Note)
  | pass (pass : Pass)

/-- A computation that leaves a record, even when it fails. -/
structure Recorded (α : Type) where
  events : List Event
  outcome : Except Failure α

namespace Recorded

variable {α β : Type}

/-- A result without any record. -/
def ok (a : α) : Recorded α := ⟨[], .ok a⟩

/-- A failure without any record. -/
def fail (e : Failure) : Recorded α := ⟨[], .error e⟩

/-- An outcome without any record. -/
def lift (outcome : Except Failure α) : Recorded α := ⟨[], outcome⟩

/-- Only a record. -/
def tell (events : List Event) : Recorded Unit := ⟨events, .ok ()⟩

/-- A message for the log. -/
def log (stage : Text) (level : Level) (message : Text) : Recorded Unit :=
  tell [.note ⟨stage, level, message⟩]

/-- One computation after the other; nothing comes after a failure. -/
def bind (x : Recorded α) (f : α → Recorded β) : Recorded β :=
  match x.outcome with
  | .ok a => ⟨x.events ++ (f a).events, (f a).outcome⟩
  | .error e => ⟨x.events, .error e⟩

instance : Monad Recorded where
  pure := ok
  bind := bind

instance : MonadExceptOf Failure Recorded where
  throw := fail
  tryCatch x handler :=
    match x.outcome with
    | .ok _ => x
    | .error e => ⟨x.events ++ (handler e).events, (handler e).outcome⟩

instance : MonadLift (Except Failure) Recorded := ⟨lift⟩

/-- The messages for the log, in order. -/
def notes (x : Recorded α) : List Note :=
  x.events.filterMap fun
    | .note n => some n
    | .pass _ => none

/-- The compilations, in order. -/
def passes (x : Recorded α) : List Pass :=
  x.events.filterMap fun
    | .pass p => some p
    | .note _ => none

@[simp]
theorem outcome_pure (a : α) : (pure a : Recorded α).outcome = .ok a := rfl

@[simp]
theorem outcome_lift (x : Except Failure α) : (lift x).outcome = x := rfl

@[simp]
theorem outcome_bind (x : Recorded α) (f : α → Recorded β) :
    (x >>= f).outcome = x.outcome.bind fun a => (f a).outcome := by
  change (bind x f).outcome = _
  unfold bind
  cases h : x.outcome <;> simp [Except.bind]

end Recorded
end StyleVars
