import StyleVars.Extract.Run
import StyleVars.Service.Framework

/-!
# The service

The service answers requests over HTTP: whether it is up, and the variables of a style sheet that is
given by its path or as a text.
-/

namespace StyleVars.Service

variable [ColorNames]

/-- Extracts what is requested. -/
def runRequest (site : Site) (registry : Registry) (compiler : Compiler) (request : Request) :
    Recorded (Compiled × Data) := do
  match request.path, request.data with
  | none, none => throw .emptyRequest
  | some path, none =>
    if !site.disk.isFile site.place (.ofText path) then throw (.missingEntry path)
  | _, _ => pure ()
  let job := { SheetJob.default with
    file := request.path, data := request.data, includePaths := request.includePaths }
  render site registry compiler .none job (request.plugins.map PluginSpec.ofData)

namespace Framework

variable (framework : Framework)

/-- The response to a failure; failures that are not the fault of the request have no document. -/
def failureResponse (e : Failure) : Response :=
  match e.family with
  | .missingFile => framework.refuse 404 e.message
  | .extraction => framework.refuse 422 e.message
  | .compilation | .value => framework.refuse 400 e.message
  | .settings | .other => ⟨500, none⟩

/-- The response to an extraction. One that cannot be written is refused like a wrong value. -/
def extracted (css : Text) (vars : Data) : Response :=
  match framework.answer css vars with
  | .ok response => response
  | .error reason => framework.refuse 400 reason

/-- The response to a request for extraction, given its body. -/
def answerRequest (site : Site) (registry : Registry) (compiler : Compiler) (body : List Nat) :
    Response :=
  match framework.readRequest body with
  | .error response => response
  | .ok request =>
    match (runRequest site registry compiler request).outcome with
    | .ok (result, vars) => framework.extracted result.css vars
    | .error e => framework.failureResponse e

/-- The response to a request. -/
def respond (site : Site) (registry : Registry) (compiler : Compiler) (method path : Text)
    (body : List Nat) : Response :=
  match framework.route method path with
  | .error response => response
  | .ok .health => ⟨200, some (.ofFields [("status".toText, .text "ok".toText)])⟩
  | .ok .extract => framework.answerRequest site registry compiler body

end Framework

end StyleVars.Service
