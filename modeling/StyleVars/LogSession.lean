import StyleVars.Keyed
import StyleVars.LogSetup

/-!
# Loggers in a session

Loggers form a tree. What stands before a dot in the name of a logger may be the name of a logger
further up; the parent of a logger is the nearest of those that have been asked for, so that it may
get a nearer one later. Only what is logged by the logger of the program, or below it, is written.

`length_lt_of_parent?` says that names get shorter on the way up, which is why the way ends.
-/

namespace StyleVars

/-- The names that may stand above a name, which is given in reverse: what precedes its dots, the
longest first. A dot right before a dot that counts does not count itself. -/
def namesAbove : Text → List Text
  | [] => []
  | '.' :: c :: rest => (c :: rest).reverse :: namesAbove rest
  | _ :: rest => namesAbove rest

theorem length_lt_of_mem_namesAbove {above reversed : Text} (h : above ∈ namesAbove reversed) :
    above.length < reversed.length := by
  fun_induction namesAbove reversed with
  | case1 => simp at h
  | case2 c rest ih =>
    rcases List.mem_cons.1 h with rfl | h
    · simp
    · have := ih h
      simp only [List.length_cons]
      omega
  | case3 _ rest _ ih =>
    have := ih h
    simp only [List.length_cons]
    omega

/-- What is known of the loggers: the setup, the names of those that have been asked for, and which
levels they have been found to let through since the setup. -/
structure LogSession where
  setup : Option LogSetup
  loggers : List Text
  decided : Keyed (Text × Level) Bool

namespace LogSession

/-- Before anything is set up or logged. -/
def start : LogSession := ⟨none, [], []⟩

/-- The parent of a logger, unless it is the one above all others. -/
def parent? (s : LogSession) (name : Text) : Option Text :=
  (namesAbove name.reverse).find? s.loggers.contains

theorem length_lt_of_parent? {s : LogSession} {name parent : Text}
    (h : s.parent? name = some parent) : parent.length < name.length := by
  have := length_lt_of_mem_namesAbove (List.mem_of_find?_eq_some h)
  rwa [List.length_reverse] at this

/-- A logger is that of the program or below it. -/
def covers (s : LogSession) (name : Text) : Bool :=
  if name = rootLogger then true
  else
    match h : s.parent? name with
    | some parent =>
      have := length_lt_of_parent? h
      s.covers parent
    | none => false
termination_by name.length

/-- The session with another setup. -/
def configured (s : LogSession) (setup : LogSetup) : LogSession :=
  ⟨some setup, Keyed.insertNew s.loggers rootLogger, []⟩

/-- The least level that a logger lets through. It comes from the setup for the loggers that are
covered. -/
def leastLevel (s : LogSession) (name : Text) : Level :=
  match s.setup with
  | some setup => if s.covers name then setup.level else .warning
  | none => .warning

/-- A logger lets messages of a level through. What it was found to do it does until the next setup,
even when it gets another parent. -/
def letsThrough (s : LogSession) (name : Text) (level : Level) : Bool :=
  (Keyed.get? (name, level) s.decided).getD ((s.leastLevel name).rank ≤ level.rank)

/-- The session after a logger has been asked to log a message of a level, and whether the message
is written. -/
def log (s : LogSession) (name : Text) (level : Level) : LogSession × Bool :=
  let s := { s with loggers := Keyed.insertNew s.loggers name }
  let through := s.letsThrough name level
  ({ s with decided := Keyed.put (name, level) through s.decided }, through && s.covers name)

end LogSession
end StyleVars
