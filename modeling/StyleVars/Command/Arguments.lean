import StyleVars.Command.Help
import StyleVars.Numeric.Reader

/-!
# Arguments of the command line

The words of a command line are options and arguments. A long option may be shortened as long as no
other one starts alike, and its value may follow an equals sign; the value of a short option may
follow it directly or after an equals sign, as may other short options after one without a value.
After a double hyphen all words are arguments. A double hyphen is no value: an option that is
written in one word with it is given, but without a value.
-/

namespace StyleVars.Command

/-- What an option sets. -/
inductive Switch
  | help (topic : Topic)
  | verbose
  | includePath
  | plugin
  | config
  | output
  | logFile
  | css
  | host
  | port
  deriving DecidableEq

/-- An option has a value. -/
def Switch.takesValue : Switch → Bool
  | help _ | verbose | css => false
  | _ => true

/-- The spellings of the options of a command. -/
abbrev Spellings := List (Text × Switch)

/-- The options of the program itself, which each of its commands has too. -/
def commonSpellings (topic : Topic) : Spellings :=
  [("-h".toText, .help topic), ("--help".toText, .help topic), ("-v".toText, .verbose),
    ("--verbose".toText, .verbose)]

/-- The options of the command that extracts variables. -/
def extractSpellings : Spellings :=
  commonSpellings .extract ++
    [("-I".toText, .includePath), ("--include-path".toText, .includePath),
      ("-p".toText, .plugin), ("--plugin".toText, .plugin), ("--config".toText, .config),
      ("-o".toText, .output), ("--output".toText, .output), ("--log-file".toText, .logFile),
      ("--css".toText, .css)]

/-- The options of the command that runs the service. -/
def serveSpellings : Spellings :=
  commonSpellings .serve ++ [("--host".toText, .host), ("--port".toText, .port)]

/-- Why no command is run: help was asked for, or the words make no command. -/
inductive Stop
  | help (topic : Topic)
  | usage
  deriving DecidableEq

/-- What a word of the command line is. An option may have something attached to it, directly or
after an equals sign. -/
inductive WordKind
  | argument
  | terminator
  | option (switch : Switch) (isLong : Bool) (attached : Option Text)
  | unknown

/-- A word and what it is. -/
abbrev Word := Text × WordKind

/-- The switch of a spelling. -/
def switch? (options : Spellings) (spelling : Text) : Option Switch :=
  (options.find? fun (s, _) => s = spelling).map Prod.snd

/-- An option word is a long one. -/
def isLongSpelling (word : Text) : Bool := "--".toText.isPrefixOf word

/-- The part before the first equals sign, and the part after it. -/
def splitValue (word : Text) : Text × Option Text :=
  match Text.splitFirst '=' word with
  | some (before, value) => (before, some value)
  | none => (word, none)

/-- A negative number, which is an argument although it starts with a hyphen. Its line may end after
it. -/
def isNegativeNumber (word : Text) : Bool :=
  match (Text.dropEnd? ['\n'] word).getD word with
  | '-' :: rest =>
    let isDigit (c : CodePoint) : Bool := (digitValue? c).isSome
    match Text.splitFirst '.' rest with
    | none => rest ≠ [] && rest.all isDigit
    | some (whole, fraction) => whole.all isDigit && fraction ≠ [] && fraction.all isDigit
  | _ => false

/-- The options that a word may be short for. -/
def abbreviated (options : Spellings) (word : Text) : List WordKind :=
  if isLongSpelling word then
    let (start, value) := splitValue word
    (options.filter fun (s, _) => start.isPrefixOf s).map fun (_, switch) =>
      .option switch true value
  else
    (options.filter fun (s, _) => s = word.take 2).map fun (_, switch) =>
      .option switch false (some (word.drop 2))

/-- What a word is before any double hyphen. -/
def kindOf (options : Spellings) (word : Text) : Except Stop WordKind :=
  if word.head? ≠ some '-' then .ok .argument
  else
    match switch? options word with
    | some switch => .ok (.option switch (isLongSpelling word) none)
    | none =>
      if word.length = 1 then .ok .argument
      else
        let (start, value) := splitValue word
        match value, switch? options start with
        | some value, some switch =>
          .ok (.option switch (isLongSpelling start) (some value))
        | _, _ =>
          match abbreviated options word with
          | [kind] => .ok kind
          | _ :: _ => .error .usage
          | [] =>
            if isNegativeNumber word || word.contains ' ' then .ok .argument else .ok .unknown

/-- What the words of a command line are. -/
def classify (options : Spellings) : List Text → Except Stop (List Word)
  | [] => .ok []
  | word :: rest =>
    if word = "--".toText then .ok ((word, .terminator) :: rest.map fun w => (w, .argument))
    else do
      let kind ← kindOf options word
      let kinds ← classify options rest
      return (word, kind) :: kinds

/-- An option that was given, with its value if it has one. -/
abbrev Setting := Switch × Option Text

/-- What the words of a command have been read as: options in order, the argument when there is one,
and words that belong to nothing. -/
structure Reading where
  settings : List Setting
  argument : Option Text
  extras : List Text

/-- The setting of an option by a word that has its value in it. -/
def settingOf (switch : Switch) (value : Text) : Setting :=
  (switch, if value = "--".toText then none else some value)

/-- Reads what is attached to an option: its value, or more short options after a short one without
a value. The last of them, when nothing is attached to it, is given apart from the others. -/
def readAttached (options : Spellings) (switch : Switch) (isLong : Bool) :
    Text → Except Stop (List Setting × Option Switch)
  | [] => if switch.takesValue then .ok ([settingOf switch []], none) else .error .usage
  | c :: tail =>
    if switch.takesValue then .ok ([settingOf switch (c :: tail)], none)
    else if isLong then .error .usage
    else
      match switch? options ['-', c], tail with
      | none, _ => .error .usage
      | some next, [] => .ok ([(switch, none)], some next)
      | some next, _ =>
        (readAttached options next false tail).map fun (settings, last) =>
          ((switch, none) :: settings, last)

/-- Reads an option with nothing attached to it: its value is the next word. -/
def readDetached (switch : Switch) (rest : List Word) : Except Stop (Setting × List Word) :=
  if switch.takesValue then
    match rest with
    | (value, .argument) :: more => .ok ((switch, some value), more)
    | _ => .error .usage
  else .ok ((switch, none), rest)

/-- Reads the options of a word, given what the word is, and the words that belong to them. -/
def readOption (options : Spellings) (switch : Switch) (isLong : Bool) (attached : Option Text)
    (rest : List Word) : Except Stop (List Setting × List Word) := do
  let (settings, last) ←
    match attached with
    | none => pure ([], some switch)
    | some text => readAttached options switch isLong text
  match last with
  | none => return (settings, rest)
  | some last => do
    let (setting, rest) ← readDetached last rest
    return (settings ++ [setting], rest)

/-- Asking for help ends the reading, and so does a port that is no number. -/
def checkSetting : Setting → Except Stop Unit
  | (.help topic, _) => .error (.help topic)
  | (.port, some value) => if (intOfTyped? value).isSome then .ok () else .error .usage
  | _ => .ok ()

/-- Reads a word that starts like an option, and the words that belong to it: options, or a word
that belongs to nothing. -/
def readWord (options : Spellings) (word : Text) (kind : WordKind) (rest : List Word) :
    Except Stop (List Setting × List Text × List Word) :=
  match kind with
  | .option switch isLong attached => do
    let (settings, rest) ← readOption options switch isLong attached rest
    settings.forM checkSetting
    return (settings, [], rest)
  | _ => .ok ([], [word], rest)

/-- How many words the argument of a command takes at the start of the given words: the argument,
and a double hyphen before or after it. -/
def argumentSpan : List Word → Option (Text × Nat)
  | (_, .terminator) :: (word, .argument) :: _ => some (word, 2)
  | (word, .argument) :: (_, .terminator) :: _ => some (word, 2)
  | (word, .argument) :: _ => some (word, 1)
  | _ => none

/-- The word is an option. -/
def isOption : Word → Bool
  | (_, .option ..) => true
  | (_, .unknown) => true
  | _ => false

/-- Reads the words of a command that may have an argument. Each round takes at least one word. -/
def readWords (options : Spellings) (wanted : Bool) : Nat → List Word → Except Stop Reading
  | 0, _ => .error .usage
  | fuel + 1, words =>
    match if wanted then argumentSpan words else none with
    | some (argument, count) => do
      let reading ← readWords options false fuel (words.drop count)
      return { reading with argument := some argument }
    | none =>
      match words with
      | [] => .ok ⟨[], none, []⟩
      | (word, kind) :: rest =>
        if isOption (word, kind) then do
          let (settings, extras, rest) ← readWord options word kind rest
          let reading ← readWords options wanted fuel rest
          return { reading with
            settings := settings ++ reading.settings
            extras := extras ++ reading.extras }
        else do
          let reading ← readWords options wanted fuel rest
          return { reading with extras := word :: reading.extras }

/-- Reads the words of a command. -/
def read (options : Spellings) (wanted : Bool) (words : List Text) : Except Stop Reading := do
  let kinds ← classify options words
  readWords options wanted (kinds.length + 1) kinds

/-! ## Commands -/

/-- What a command line asks for. A host and a port that are given without a value are none. -/
inductive Invocation
  | extract (entry : Text) (settings : List Setting) (verbose : Bool)
  | serve (host : Option Text) (port : Option Int) (verbose : Bool)

/-- The options of a command and whether it has an argument. -/
def commandNamed? (name : Text) : Option (Spellings × Bool) :=
  if name = "extract".toText then some (extractSpellings, true)
  else if name = "serve".toText then some (serveSpellings, false)
  else none

/-- The options before the command, the words that belong to nothing, the command, and its words. -/
def readCommand : Nat → List Word → Except Stop (List Setting × List Text × Text × List Text)
  | 0, _ => .error .usage
  | fuel + 1, words =>
    match words with
    | [] => .error .usage
    | (_, .terminator) :: _ => .error .usage
    | (name, .argument) :: rest => .ok ([], [], name, rest.map Prod.fst)
    | (word, kind) :: rest => do
      let (settings, extras, rest) ← readWord (commonSpellings .program) word kind rest
      let (more, moreExtras, name, words) ← readCommand fuel rest
      return (settings ++ more, extras ++ moreExtras, name, words)

/-- Whether an option was given, and its last value: none when it was given without one. -/
def lastGiven (settings : List Setting) (switch : Switch) : Option (Option Text) :=
  (settings.reverse.find? fun (s, _) => s = switch).map Prod.snd

/-- The last value that an option was given, when it has characters. -/
def lastText (settings : List Setting) (switch : Switch) : Option Text :=
  (lastGiven settings switch).join.filter (· ≠ [])

/-- All values that an option was given; one that was given without a value has none. -/
def allGiven (settings : List Setting) (switch : Switch) : List (Option Text) :=
  (settings.filter fun (s, _) => s = switch).map Prod.snd

/-- Reads a command line. -/
def Invocation.ofWords (words : List Text) : Except Stop Invocation := do
  let kinds ← classify (commonSpellings .program) words
  let (before, extras, name, rest) ← readCommand (kinds.length + 1) kinds
  match commandNamed? name with
  | none => throw .usage
  | some (options, wanted) =>
    let reading ← read options wanted rest
    if wanted && reading.argument.isNone || extras ++ reading.extras ≠ [] then throw .usage
    let settings := before ++ reading.settings
    let verbose := (lastGiven settings .verbose).isSome
    match reading.argument with
    | some entry => return .extract entry settings verbose
    | none =>
      let host := (lastGiven settings .host).getD (some "127.0.0.1".toText)
      let port :=
        match lastGiven settings .port with
        | some value => value.bind intOfTyped?
        | none => some 8000
      return .serve host port verbose

end StyleVars.Command
