import StyleVars.Journal
import StyleVars.Text.Basic

/-!
# Logging

Messages go to the console and, when one is given, to a log file. A message is known by the name of
its logger, which usually starts with that of the program; what follows it is the stage.
-/

namespace StyleVars

/-- The name of the logger of the program. -/
def rootLogger : Text := "sassvars".toText

/-- The full name of the logger of a stage; without a stage it is the logger of the program. -/
def loggerOf : Option Text → Text
  | none | some [] => rootLogger
  | some stage => rootLogger ++ .char '.' :: stage

/-- The stage that the full name of a logger tells. -/
def stageOf (logger : Text) : Text :=
  let start := rootLogger ++ [.char '.']
  if start.isPrefixOf logger then logger.drop start.length else logger

/-- How messages are logged: whether the console shows all of them and with their stages, and the
log file, which always gets all of them. -/
structure LogSetup where
  verbose : Bool
  file : Option Text

namespace LogSetup

/-- The least level that the console shows. -/
def consoleLevel (setup : LogSetup) : Level := if setup.verbose then .debug else .info

/-- The least level that is logged anywhere. -/
def level (setup : LogSetup) : Level := if setup.file.isSome then .debug else setup.consoleLevel

/-- How many places messages go to. -/
def places (setup : LogSetup) : Nat := if setup.file.isSome then 2 else 1

/-- The line of a message on the console. -/
def consoleLine (setup : LogSetup) (logger : Text) (level : Level) (message : Text) : Text :=
  if setup.consoleLevel.rank ≤ level.rank then
    "[sassvars] ".toText ++ level.name ++ .char ' ' ::
      (if setup.verbose then stageOf logger ++ ": ".toText else []) ++ message ++ [.char '\n']
  else []

/-- The line of a message in the log file; `time` stands for when it was logged. -/
def fileLine (setup : LogSetup) (time logger : Text) (level : Level) (message : Text) : Text :=
  if setup.file.isSome && Level.debug.rank ≤ level.rank then
    time ++ .char ' ' :: level.name ++ .char ' ' :: stageOf logger ++ ": ".toText ++ message ++
      [.char '\n']
  else []

/-- The lines of messages on the console. -/
def consoleText (setup : LogSetup) (notes : List Note) : Text :=
  notes.flatMap fun n => setup.consoleLine (loggerOf (some n.stage)) n.level n.message

/-- The lines of messages in the log file. -/
def fileText (setup : LogSetup) (time : Text) (notes : List Note) : Text :=
  notes.flatMap fun n => setup.fileLine time (loggerOf (some n.stage)) n.level n.message

end LogSetup
end StyleVars
