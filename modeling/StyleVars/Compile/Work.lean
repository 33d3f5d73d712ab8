import StyleVars.Compile.Function
import StyleVars.Compile.Importer
import StyleVars.Value.Native

/-!
# What a compiler does

A compiler is seen from outside: it asks its host for imports, calls functions of its host, and ends
with a text or a failure. Between these steps it may note what it is doing. When the host fails, the
compiler is told, and what it makes of the failure is its own affair.
-/

namespace StyleVars

/-- A note of a compiler on what it is doing: a call that goes to no function of the host, a call
that goes to one, or an import with the importer that answered and its answer. -/
inductive TraceEvent
  | plainCall (name argument : Text)
  | call (name argument : Text)
  | lookUp (path previous : Text) (answer : Option (Nat × List Served))

/-- The course of a compilation, up to what the host answers. -/
inductive Work (α : Type) : Type
  | done (result : α)
  | fail (failure : Failure)
  | lookUp (importer : Nat) (path previous : Text)
      (next : Except Failure (Option (List Served)) → Work α)
  | call (function : Nat) (argument : Native) (next : Except Failure (Option Text) → Work α)
  | note (event : TraceEvent) (next : Work α)

namespace Work

variable {α β σ : Type}

/-- One course after the other. -/
def bind (work : Work α) (f : α → Work β) : Work β :=
  match work with
  | done a => f a
  | fail e => .fail e
  | lookUp i path previous next => .lookUp i path previous fun answer => (next answer).bind f
  | call i argument next => .call i argument fun answer => (next answer).bind f
  | note event next => .note event (next.bind f)

instance : Monad Work where
  pure := .done
  bind := bind

end Work

/-- The host of a compilation: how it looks up an import and how it answers a call, both of which
may change its state. A call is answered with nothing, or with the message by which it is refused.
-/
structure Host (σ : Type) where
  lookUp : Nat → Text → Text → σ → Except Failure (Option (List Served)) × σ
  call : Nat → Native → σ → Except Failure (Option Text) × σ

/-- How a compilation went: its notes, how it ended, and the state in which it left its host. -/
structure WorkRun (α σ : Type) where
  trace : List TraceEvent
  outcome : Except Failure α
  state : σ

/-- Carries out a compilation. -/
def Work.run {α σ : Type} (host : Host σ) : Work α → σ → WorkRun α σ
  | .done a, s => ⟨[], .ok a, s⟩
  | .fail e, s => ⟨[], .error e, s⟩
  | .lookUp i path previous next, s =>
    let (answer, s') := host.lookUp i path previous s
    run host (next answer) s'
  | .call i argument next, s =>
    let (answer, s') := host.call i argument s
    run host (next answer) s'
  | .note event next, s =>
    let rest := run host next s
    { rest with trace := event :: rest.trace }

/-- What a compiler is given to compile: a text, or the name of a file. -/
inductive CompileInput
  | source (text : Text)
  | file (name : Text)

/-- What a compiler is told. Importer 0 is asked first. -/
structure CompileRequest where
  input : CompileInput
  includePaths : List Text
  outputStyle : Text
  precision : Int
  importerCount : Nat
  functions : List FunctionHead

/-- A compiler gives a course of action for each request. -/
abbrev Compiler := CompileRequest → Work Text

end StyleVars
