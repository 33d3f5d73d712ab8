import StyleVars.Failure
import StyleVars.Keyed
import StyleVars.Text.Blank
import StyleVars.Text.Word

/-!
# Functions of a compilation

A style sheet may call functions that its host provides. The host names a function by a signature: a
name and, between parentheses, the parameters. In the name a hyphen and an underscore are the same.
-/

namespace StyleVars

/-- A function name, and the text between the parentheses when there are any. -/
structure Signature where
  name : Text
  parameters : Option Text

namespace Signature

/-- Reads a signature. -/
def ofText? (t : Text) : Option Signature :=
  let start := t.dropWhile isBlank
  let name := start.takeWhile isNameChar
  if (name.head?.map isNameStart).getD false then
    match Text.strip (start.dropWhile isNameChar) with
    | [] => some ⟨name, none⟩
    | '(' :: rest =>
      if rest.getLast? = some (.char ')') then some ⟨name, some rest.dropLast⟩ else none
    | _ => none
  else none

end Signature

/-- A name with hyphens for underscores. -/
def normalizeName (name : Text) : Text := Text.replaceChar '_' '-' name

/-- The name in a signature, with hyphens for underscores. -/
def signatureName (signature : Text) : Except Failure Text :=
  match Signature.ofText? signature with
  | some s => .ok (normalizeName s.name)
  | none => .error (.invalidSignature signature)

/-- A function of the caller: one with the listed parameters, one with any number of them, or one
that has been given its name and parameters already. -/
inductive CustomFunction
  | plain (parameters : List Text)
  | variadic
  | ready (name : Text) (parameters : List Text)

/-- A function can be called with one value, as the compiler calls all of them. -/
def CustomFunction.takesOne : CustomFunction → Bool
  | plain parameters => parameters.length = 1
  | variadic => true
  | ready .. => true

/-- What a signature stands for: the hook of a declaration of a file, or a function of the caller.
-/
inductive HostFunction
  | hook (file declaration : Nat)
  | custom (function : CustomFunction)

/-- A function as the compiler is told of it. -/
structure FunctionHead where
  name : Text
  parameters : List Text

namespace FunctionHead

/-- The parameters with the dollar signs that they lack. -/
def ofNames (name : Text) (parameters : List Text) : FunctionHead :=
  ⟨name, parameters.map fun p => if p.head? = some (.char '$') then p else '$' :: p⟩

/-- The name and the parameters as a call would write them. -/
def text (head : FunctionHead) : Text :=
  head.name ++ .char '(' :: Text.join ", ".toText head.parameters ++ [.char ')']

end FunctionHead

namespace HostFunction

/-- The parameters of a function, when they can be listed. -/
def parameters? : HostFunction → Option (List Text)
  | hook .. => some ["value".toText]
  | custom (.plain parameters) => some parameters
  | custom .variadic => none
  | custom (.ready _ parameters) => some parameters

/-- The function as the compiler is told of it. A signature without parentheses takes its parameters
from the function. -/
def head (signature : Text) (function : HostFunction) : Except Failure FunctionHead :=
  match function with
  | custom (.ready name parameters) => .ok (.ofNames name parameters)
  | _ =>
    match Signature.ofText? signature with
    | none => .error (.invalidSignature signature)
    | some ⟨name, some parameters⟩ =>
      .ok (.ofNames name (((Text.splitOn ',' parameters).map Text.strip).filter (· ≠ [])))
    | some ⟨name, none⟩ =>
      match function.parameters? with
      | some parameters => .ok (.ofNames name parameters)
      | none => .error .openParameters

/-- All functions as the compiler is told of them. -/
def heads (functions : Keyed Text HostFunction) : Except Failure (List FunctionHead) :=
  functions.mapM fun (signature, function) => head signature function

end HostFunction
end StyleVars
