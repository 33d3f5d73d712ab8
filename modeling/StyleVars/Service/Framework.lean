import StyleVars.Data.Basic

/-!
# The framework of the service

The service runs in a framework that speaks HTTP. The service has endpoints, and says what each of
them answers; which path leads to which endpoint, which bodies are requests, and how an answer is
encoded, are matters of the framework.
-/

namespace StyleVars.Service

/-- A status and a document. Some responses have none. -/
structure Response where
  status : Nat
  body : Option Data

/-- What to extract. -/
structure Request where
  path : Option Text
  data : Option Text
  includePaths : List Text
  plugins : List Data

/-- What the service offers: to tell whether it is up, and to extract variables. -/
inductive Endpoint
  | health
  | extract

namespace Endpoint

/-- All endpoints. -/
def all : List Endpoint := [health, extract]

/-- The method that an endpoint is asked by. -/
def method : Endpoint → Text
  | health => "GET".toText
  | extract => "POST".toText

/-- The path of an endpoint. -/
def path : Endpoint → Text
  | health => "/health".toText
  | extract => "/extract".toText

end Endpoint

/-- What a framework does for the service. -/
structure Framework where
  /-- The endpoint that is asked by a method under a path, or the response when there is none. -/
  route (method path : Text) : Except Response Endpoint
  /-- The request that a body makes, or the response to a body that makes none. -/
  readRequest (body : List Nat) : Except Response Request
  /-- The response that tells what is wrong. -/
  refuse (status : Nat) (detail : Text) : Response
  /-- The response that gives a compiled text and variables, or why these cannot be written. -/
  answer (css : Text) (vars : Data) : Except Text Response

end StyleVars.Service
