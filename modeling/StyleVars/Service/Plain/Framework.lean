import StyleVars.Service.Plain.Bodies

/-!
# A plain framework

A path that is not known is refused, unless it has slashes at its end and is known without them.
Beside the endpoints of the service the framework has pages of its own: a description of the
service for other programs, and manuals for readers, which are no documents.
-/

namespace StyleVars.Service.Plain

/-- What is under a path. -/
inductive Route
  | endpoint (endpoint : Endpoint)
  | description
  | manual

namespace Route

/-- The paths of the manuals. -/
def manualPaths : List Text :=
  ["/docs".toText, "/docs/oauth2-redirect".toText, "/redoc".toText]

/-- The route of a path, after which a line may end. -/
def ofPath? (path : Text) : Option Route :=
  let name := (Text.dropEnd? ['\n'] path).getD path
  match Endpoint.all.find? (·.path = name) with
  | some e => some (endpoint e)
  | none =>
    if name = "/openapi.json".toText then some description
    else if name ∈ manualPaths then some manual
    else none

/-- The methods that a route is asked by. -/
def methods : Route → List Text
  | endpoint e => [e.method]
  | description | manual => ["GET".toText, "HEAD".toText]

end Route

/-- The response to a path without a route. One that has a route but for slashes at its end is
redirected there. -/
def strayResponse (path : Text) : Response :=
  let name := Text.trimRight (· = '/') path
  if name ≠ path ∧ (Route.ofPath? name).isSome then ⟨307, none⟩
  else refusal 404 (.text "Not Found".toText)

/-- The framework with a given description of the service. -/
def framework (description : Data) : Framework where
  route method path :=
    match Route.ofPath? path with
    | none => .error (strayResponse path)
    | some route =>
      if route.methods.contains method then
        match route with
        | .endpoint e => .ok e
        | .description => .error ⟨200, some description⟩
        | .manual => .error ⟨200, none⟩
      else .error (refusal 405 (.text "Method Not Allowed".toText))
  readRequest := readRequest
  refuse status detail := refusal status (.text detail)
  answer := answer

end StyleVars.Service.Plain
