import StyleVars.Compile.Pass
import StyleVars.Plugin.Basic
import StyleVars.Sheet.Declaration

/-!
# Capturing the values of declarations

To learn the values of the variables of a file, a call is appended to its text for each of its
declarations. The call passes the variable to a hook, which keeps the value.
-/

namespace StyleVars

variable [ColorNames]

/-- The name of the hook of a declaration of a file. -/
def hookIdentifier (file declaration : Nat) : Text :=
  "sassvars-capture-f".toText ++ Text.ofNat file ++ "-d".toText ++ Text.ofNat declaration

/-- The signature of a hook. -/
def hookSignature (file declaration : Nat) : Text :=
  hookIdentifier file declaration ++ "($value)".toText

/-- A call of a hook, as a declaration. -/
def hookCall (file declaration : Nat) (variableName : Text) : Text :=
  "$sassvars-capture: ".toText ++ hookIdentifier file declaration ++
    .char '(' :: variableName ++ ");".toText

/-- A file with its number among the files of an extraction, its text and its declarations. -/
structure SheetFile where
  name : Text
  index : Nat
  source : Text
  declarations : List Declaration

namespace SheetFile

/-- The file of a name and a number with the given text. -/
def ofSource (name : Text) (index : Nat) (source : Text) : SheetFile :=
  ⟨name, index, source, StyleVars.declarations source⟩

/-- The calls of the hooks, in the order of the declarations. -/
def hookCalls (file : SheetFile) : List Text :=
  file.declarations.mapIdx fun i d => hookCall file.index i d.name

/-- The text of the file with a line for each call at its end. The calls start on a line of their
own, so that a comment at the end of the text does not hide the first one. -/
def instrumented (file : SheetFile) : Text :=
  if file.declarations = [] then file.source
  else
    file.source ++ (if file.source.getLast? = some (.char '\n') then [] else [.char '\n']) ++
      file.hookCalls.flatMap (· ++ [.char '\n'])

/-- The hooks of the file by their signatures. -/
def hooks (file : SheetFile) : Keyed Text HostFunction :=
  file.declarations.mapIdx fun i _ => (hookSignature file.index i, .hook file.index i)

end SheetFile

/-- The value of a declaration. -/
structure Captured where
  declaration : Declaration
  value : Structured

/-- The values captured for the declarations of one file, in the order in which they were first
captured, and the type of the first value that could not be captured. -/
structure Captures where
  slots : Keyed Nat Captured
  failure : Option Text

namespace Captures

/-- Nothing captured. -/
def empty : Captures := ⟨[], none⟩

/-- The captured form of a value. -/
def capturedForm (pipeline : Pipeline) (native : Native) : Except Failure Structured := do
  let value ← native.structured
  pipeline.runOnValue native value

/-- Passes a value to the hook of a declaration. A later value replaces an earlier one. A value of
an unsupported type is refused, and every other failure ends the compilation; both leave the
captured values as they are. -/
def call (pipeline : Pipeline) (declarations : List Declaration) (index : Nat) (native : Native)
    (c : Captures) : Except Failure (Option Text) × Captures :=
  match declarations[index]? with
  | none => (.ok none, c)
  | some declaration =>
    match capturedForm pipeline native with
    | .ok value => (.ok none, { c with slots := Keyed.put index ⟨declaration, value⟩ c.slots })
    | .error (.unsupportedType typeName cause) =>
      (.ok (some (Failure.unsupportedType typeName cause).message),
        { c with failure := c.failure.or (some typeName) })
    | .error e => (.error e, c)

/-- The captured values in the order of the declarations. -/
def inOrder (c : Captures) : List Captured :=
  (c.slots.mergeSort fun a b => a.1 ≤ b.1).map Prod.snd

/-- The captured values by the names of their variables. -/
def byName (c : Captures) : Keyed Text (List Captured) :=
  c.inOrder.foldl (fun groups captured =>
    let name := captured.declaration.name
    Keyed.put name ((Keyed.get? name groups).getD [] ++ [captured]) groups) []

end Captures

/-- The hooks of several files; the state holds what was captured for each of them. -/
def captureHooks (pipeline : Pipeline) (files : List SheetFile) : Hooks (List Captures) :=
  fun file declaration native states =>
    match files[file]?, states[file]? with
    | some f, some c =>
      let (answer, c') := c.call pipeline f.declarations declaration native
      (answer, states.set file c')
    | _, _ => (.ok none, states)

end StyleVars
