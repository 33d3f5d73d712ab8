import StyleVars.Compile.Job

/-!
# The line compiler

A compiler for style sheets in which every statement has a line of its own. It carries out imports,
calls of capture functions and errors, copies the rules, and leaves out everything else. What the
variables hold is not computed but given beforehand, as a list of values for each variable. When the
host fails, so does the compilation.
-/

namespace StyleVars.LineCompiler

/-- The values that each variable has one after the other. -/
abbrev Values := Keyed Text (List Native)

/-- The text compiled so far, and how often each variable has been passed to a function. -/
structure State where
  css : Text
  counts : Keyed Text Nat

/-- How deep style sheets may import each other. -/
def maxDepth : Nat := 20

/-- The white space that a line may have at its ends. -/
def isLineBlank (c : CodePoint) : Bool := c = ' ' || c = '\t' || c = '\r'

/-- What a line asks for. -/
inductive Line
  | capture (function argument : Text)
  | imports (paths : List Text)
  | error (message : Text)
  | rule (text : Text)
  | other

/-- The text between a start and an end. -/
def between? (first last line : Text) : Option Text :=
  if first.isPrefixOf line && last.isSuffixOf line then
    some ((line.drop first.length).take (line.length - first.length - last.length))
  else none

/-- Reads a line. -/
def Line.ofText (text : Text) : Line :=
  let line := Text.trimEnds isLineBlank text
  match between? "$sassvars-capture: ".toText ");".toText line with
  | some call =>
    let (function, argument) := (Text.splitFirst '(' call).getD (call, [])
    .capture function argument
  | none =>
    match between? "@import \"".toText "\";".toText line with
    | some paths => .imports (Text.splitOnText "\", \"".toText [] 0 paths)
    | none =>
      if "@error ".toText.isPrefixOf line then .error (line.drop "@error ".length)
      else if line.head? = some (.char '.') then .rule line
      else .other

/-- The value that a variable has when it is used for the n-th time; the last one is kept. -/
def valueAt (values : Values) (argument : Text) (n : Nat) : Native :=
  match Keyed.get? argument values with
  | some vs => (vs[n]?.or vs.getLast?).getD .null
  | none => .null

/-- What a style sheet is compiled with: how many importers there are, the places of the functions
by their normalized names, the last one first, and the values of the variables. -/
structure Surroundings where
  importerCount : Nat
  functions : Keyed Text Nat
  values : Values

/-- What a request is compiled with. -/
def Surroundings.ofRequest (request : CompileRequest) (values : Values) : Surroundings :=
  let places := request.functions.zipIdx.map fun (head, i) => (normalizeName head.name, i)
  ⟨request.importerCount, places.reverse, values⟩

/-- Asks the importers from the given one on, until one answers. -/
def ask (path previous : Text) (importer : Nat) : Nat → Work (Option (Nat × List Served))
  | 0 => .done none
  | count + 1 =>
    .lookUp importer path previous fun answer =>
      match answer with
      | .ok (some served) => .done (some (importer, served))
      | .ok none => ask path previous (importer + 1) count
      | .error e => .fail e

/-- The failure of a compilation for a reason. -/
def refuse {α : Type} (message : Text) : Work α := .fail (.compile ("Error: ".toText ++ message))

/-- Passes the next value of a variable to a function of the host, the last one of the name. -/
def capture (given : Surroundings) (function argument : Text) (s : State) : Work State :=
  match Keyed.get? (normalizeName function) given.functions with
  | none => .note (.plainCall function argument) (.done s)
  | some index =>
    let n := (Keyed.get? argument s.counts).getD 0
    .note (.call function argument) <|
      .call index (valueAt given.values argument n) fun answer =>
        match answer with
        | .ok (some message) => refuse message
        | .ok none => .done { s with counts := Keyed.put argument (n + 1) s.counts }
        | .error e => .fail e

/-- Carries out an import of one path; `enter` compiles what it brings in. -/
def importPath (given : Surroundings) (enter : Text → Text → State → Work State)
    (previous : Text) (s : State) (path : Text) : Work State := do
  match ← ask path previous 0 given.importerCount with
  | some (importer, served) =>
    .note (.lookUp path previous (some (importer, served))) <|
      served.foldlM (fun s file =>
        match file.source with
        | some source => enter source file.name s
        | none => .done s) s
  | none =>
    .note (.lookUp path previous none) <|
      if ".css".toText.isSuffixOf path || Text.occurs "//".toText path then .done s
      else refuse ("File to import not found or unreadable: ".toText ++ path ++ ".".toText)

/-- Carries out a line. -/
def runLine (given : Surroundings) (enter : Text → Text → State → Work State) (previous : Text)
    (s : State) (line : Text) : Work State :=
  match Line.ofText line with
  | .capture function argument => capture given function argument s
  | .imports paths => paths.foldlM (importPath given enter previous) s
  | .error message => refuse message
  | .rule text => .done { s with css := s.css ++ text ++ [.char '\n'] }
  | .other => .done s

/-- Compiles a style sheet, which may have style sheets in it down to the given depth. -/
def runSheet (given : Surroundings) : Nat → Text → Text → State → Work State
  | 0, _, _, _ => refuse "An @import loop has been found".toText
  | depth + 1, source, name, s =>
    (Text.splitOn '\n' source).foldlM (runLine given (runSheet given depth) name) s

end StyleVars.LineCompiler

namespace StyleVars

/-- Compiles line by line. -/
def lineCompiler (site : Site) (values : LineCompiler.Values) : Compiler := fun request => do
  let (source, name) ←
    match request.input with
    | .source text => pure (text, textSource)
    | .file name =>
      match site.disk.read site.place (.ofText name) with
      | .ok text => pure (text, name)
      | .error e => .fail e
  let given := LineCompiler.Surroundings.ofRequest request values
  let s ← LineCompiler.runSheet given (LineCompiler.maxDepth + 1) source name ⟨[], []⟩
  return s.css

end StyleVars
