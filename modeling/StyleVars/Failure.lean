import StyleVars.Data.Shown
import StyleVars.Numeric.Reader

/-!
# Failures

Everything that can end an extraction early, as a cause. The wording of each cause is in `message`;
what a caller does about it depends only on its `family`.
-/

namespace StyleVars

/-- What is wrong with a sequence of bytes that is not well-formed UTF-8. -/
inductive EncodingProblem
  | startByte
  | continuationByte
  | truncated

/-- What is wrong with a settings file. -/
inductive SettingsProblem
  | malformed
  | notMapping
  | pluginsNotList
  | pluginEntry (entry : Data)

/-- Why an extraction ended early. -/
inductive Failure
  /-- A value of a type that has neither a flat nor a structured form; `cause` is the message of the
  compilation that it ended. -/
  | unsupportedType (typeName : Text) (cause : Option Text)
  /-- A style sheet in the indented notation. -/
  | unsupportedSyntax (file : Text)
  /-- A file that imports itself through the files of the chain. -/
  | cyclicImport (chain : List Text)
  /-- The compiler refused the style sheet. -/
  | compile (message : Text)
  /-- What is no number has no nearest integer. -/
  | roundsNan
  /-- Infinity has no nearest integer. -/
  | roundsInfinity
  /-- An integer past the largest number. -/
  | integerTooLarge
  /-- The lists and mappings of a document are nested too deeply. -/
  | nestedTooDeep
  /-- An integer in a document has too many digits. -/
  | longInteger (digits : Nat)
  /-- A path of no characters has no relative form. -/
  | emptyPath
  /-- The home directory of another user. -/
  | noHome
  /-- A file that is not there. -/
  | missingFile (path : Text)
  /-- The style sheet to start with is not there. -/
  | missingEntry (path : Text)
  /-- The bytes from `first` up to `last`, the first of them `byte`, are not UTF-8. -/
  | encoding (byte first last : Nat) (problem : EncodingProblem)
  /-- Neither a file nor a text to compile. -/
  | nothingToCompile
  /-- A request that names neither a file nor a text. -/
  | emptyRequest
  /-- Not the signature of a function. -/
  | invalidSignature (signature : Text)
  /-- A bare function name whose parameters cannot be listed. -/
  | openParameters
  /-- A path was given, but its text has been taken away. -/
  | pathWithoutText
  /-- A function of the caller takes more or fewer values than the one of its call. -/
  | parameterCount
  /-- An importer that takes no path. -/
  | importerWithoutPath
  /-- A file that was never loaded. -/
  | unknownFile (file : Text)
  /-- A value stands where a mapping belongs. -/
  | notMapping
  /-- A value that has no items. -/
  | notIterable (typeName : Text)
  /-- A value that has no entries to add to others. -/
  | withoutEntries (typeName : Text)
  /-- An item of a list of entries has no parts. -/
  | entryWithoutParts (index : Nat)
  /-- An item of a list of entries has another number of parts than a key and a value. -/
  | entryLength (index length : Nat)
  /-- A value of a type that cannot be a key. -/
  | unusableKey (typeName : Text)
  /-- The settings file is not usable. -/
  | settings (problem : SettingsProblem)
  /-- No plugin of that name. -/
  | unknownPlugin (name : Text)
  /-- A plugin that could not be loaded. -/
  | brokenPlugin (name reason : Text)
  /-- A mapping that names no plugin. -/
  | pluginTarget
  /-- Not a description of a plugin. -/
  | pluginDescription (description : Data)
  /-- An installed plugin maker returned something else. -/
  | pluginMakerResult
  /-- An installed plugin is neither a plugin nor a maker of one. -/
  | pluginMaker
  /-- A plugin answered later than the caller can wait. -/
  | answersLater (plugin : Text)

/-- The groups of failures between which callers distinguish. -/
inductive Family
  | extraction
  | compilation
  | settings
  | value
  | missingFile
  | other
  deriving DecidableEq

namespace EncodingProblem

/-- The wording of a problem. -/
def message : EncodingProblem → Text
  | startByte => "invalid start byte".toText
  | continuationByte => "invalid continuation byte".toText
  | truncated => "unexpected end of data".toText

end EncodingProblem

namespace SettingsProblem

/-- The wording of a problem. -/
def message : SettingsProblem → Text
  | malformed => "Failed to parse .sassvars.yml".toText
  | notMapping => ".sassvars.yml must contain a mapping at the root".toText
  | pluginsNotList => "extract.plugins must be a list".toText
  | pluginEntry entry => "Invalid plugin entry in .sassvars.yml: ".toText ++ entry.shown

end SettingsProblem

namespace Failure

/-- The wording of a failure. -/
def message : Failure → Text
  | unsupportedType name _ => "Unsupported sass variable type '".toText ++ name ++ "'".toText
  | unsupportedSyntax file =>
    "Cannot extract variables from indented-syntax stylesheet '".toText ++ file ++ "'".toText
  | cyclicImport chain => "Cyclic import detected: ".toText ++ Text.join " -> ".toText chain
  | compile message => message
  | roundsNan => "cannot convert float NaN to integer".toText
  | roundsInfinity => "cannot convert float infinity to integer".toText
  | integerTooLarge => "int too large to convert to float".toText
  | nestedTooDeep => "the document is nested too deeply".toText
  | longInteger digits =>
    "Exceeds the limit (".toText ++ Text.ofNat maxDigits ++
      " digits) for integer string conversion: value has ".toText ++ Text.ofNat digits ++
      " digits; use sys.set_int_max_str_digits() to increase the limit".toText
  | emptyPath => "no path specified".toText
  | noHome => "Could not determine home directory.".toText
  | missingFile path => "[Errno 2] No such file or directory: ".toText ++ Text.quoted path
  | missingEntry path => "Entry stylesheet not found: ".toText ++ path
  | encoding byte first last problem =>
    "'utf-8' codec can't decode ".toText ++
      (if last = first + 1 then
        "byte 0x".toText ++ Text.hex 2 byte ++ " in position ".toText ++ Text.ofNat first
      else "bytes in position ".toText ++ Text.ofNat first ++ .char '-' :: Text.ofNat (last - 1)) ++
      ": ".toText ++ problem.message
  | nothingToCompile => "Compile options require either 'file' or 'data'".toText
  | emptyRequest => "Request requires 'path' or 'data'".toText
  | invalidSignature signature =>
    "Invalid custom function signature '".toText ++ signature ++ "'".toText
  | openParameters => "the parameters of the function cannot be listed".toText
  | pathWithoutText => "expected str, bytes or os.PathLike object, not list".toText
  | parameterCount => "the function takes another number of values".toText
  | importerWithoutPath => "the importer takes no path".toText
  | unknownFile file => Text.quoted file
  | notMapping => "the value is not a mapping".toText
  | notIterable typeName => "'".toText ++ typeName ++ "' object is not iterable".toText
  | withoutEntries typeName => "'".toText ++ typeName ++ "' object is not a mapping".toText
  | entryWithoutParts index =>
    "cannot convert dictionary update sequence element #".toText ++ Text.ofNat index ++
      " to a sequence".toText
  | entryLength index length =>
    "dictionary update sequence element #".toText ++ Text.ofNat index ++ " has length ".toText ++
      Text.ofNat length ++ "; 2 is required".toText
  | unusableKey typeName => "unhashable type: '".toText ++ typeName ++ "'".toText
  | settings problem => problem.message
  | unknownPlugin name => "Unknown plugin requested: ".toText ++ name
  | brokenPlugin name reason =>
    "Failed to load plugin entry point '".toText ++ name ++ "': ".toText ++ reason
  | pluginTarget => "Plugin mapping requires a 'plugin' name or Plugin subclass".toText
  | pluginDescription description =>
    "Unsupported plugin specification: ".toText ++ description.shown
  | pluginMakerResult => "Plugin entry point factory did not return a Plugin instance".toText
  | pluginMaker => "Plugin entry point must be a Plugin subclass or factory".toText
  | answersLater plugin =>
    "Plugin '".toText ++ plugin ++ "' returned an awaitable; use the async extraction API".toText

/-- The group of a failure. -/
def family : Failure → Family
  | unsupportedType .. | unsupportedSyntax _ | cyclicImport _ => .extraction
  | compile _ => .compilation
  | settings _ => .settings
  | missingFile _ | missingEntry _ => .missingFile
  | roundsNan | longInteger _ | emptyPath | encoding .. | nothingToCompile | emptyRequest
  | invalidSignature _ | entryLength .. | unknownPlugin _ => .value
  | roundsInfinity | integerTooLarge | nestedTooDeep | noHome | openParameters | pathWithoutText
  | parameterCount | importerWithoutPath | unknownFile _ | notMapping | notIterable _
  | withoutEntries _ | entryWithoutParts _ | unusableKey _ | brokenPlugin .. | pluginTarget
  | pluginDescription _ | pluginMakerResult | pluginMaker | answersLater _ => .other

end Failure
end StyleVars
