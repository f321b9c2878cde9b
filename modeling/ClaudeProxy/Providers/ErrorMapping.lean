import ClaudeProxy.Providers.HeuristicToolParser

namespace ClaudeProxy.Providers

open Kit

inductive ExceptionClass where
  | openaiAuthentication
  | openaiRateLimit
  | openaiBadRequest
  | openaiInternalServer
  | openaiApi (statusCode : Option Int)
  | httpStatus (statusCode : Int)
  | readTimeout
  | connectTimeout
  | timeout
  | authentication
  | rateLimit
  | invalidRequest
  | overloaded
  | api (statusCode : Int)
  | provider
  | other
deriving DecidableEq

structure PyException where
  cls : ExceptionClass
  /-- `str(e)` -/
  text : Str
deriving DecidableEq

/-- `readTimeout` is the configured time out as `:g` prints it. -/
def getUserFacingErrorMessage (e : PyException) (readTimeout : Option Str) : Str :=
  let timedOut (text : String) : Str := match readTimeout with
    | some seconds => "Provider request timed out after ".toList ++ seconds ++ "s.".toList
    | none => text.toList
  let message := strip e.text
  if message ≠ [] then message
  else match e.cls with
    | .readTimeout => timedOut "Provider request timed out."
    | .connectTimeout => "Could not connect to provider.".toList
    | .timeout => timedOut "Request timed out."
    | .rateLimit | .openaiRateLimit => "Provider rate limit reached. Please retry shortly.".toList
    | .authentication | .openaiAuthentication => "Provider authentication failed. Check API key.".toList
    | .invalidRequest | .openaiBadRequest => "Invalid request sent to provider.".toList
    | .overloaded => "Provider is currently overloaded. Please retry.".toList
    | .api statusCode =>
      if statusCode = 502 ∨ statusCode = 503 ∨ statusCode = 504 then
        "Provider is temporarily unavailable. Please retry.".toList
      else "Provider API request failed.".toList
    | .provider => "Provider request failed.".toList
    | .openaiInternalServer | .openaiApi _ | .httpStatus _ | .other =>
      "Provider request failed unexpectedly.".toList

def appendRequestId (message : Str) (requestId : Option Str) : Str :=
  let base := if strip message = [] then "Provider request failed unexpectedly.".toList else strip message
  match requestId with
  | none | some [] => base
  | some id => base ++ " (request_id=".toList ++ id ++ ")".toList

def lower (s : Str) : Str := s.map Char.toLower

/-- Apart from blocking the rate limiter after a 429. -/
def mapError (e : PyException) : PyException :=
  let message := getUserFacingErrorMessage e none
  match e.cls with
  | .openaiAuthentication => ⟨.authentication, message⟩
  | .openaiRateLimit => ⟨.rateLimit, message⟩
  | .openaiBadRequest => ⟨.invalidRequest, message⟩
  | .openaiInternalServer =>
    if (find "overloaded".toList (lower e.text)).isSome ∨ (find "capacity".toList (lower e.text)).isSome then
      ⟨.overloaded, message⟩
    else ⟨.api 500, message⟩
  | .openaiApi statusCode => ⟨.api (statusCode.getD 500), message⟩
  | .httpStatus status =>
    if status = 401 ∨ status = 403 then ⟨.authentication, message⟩
    else if status = 429 then ⟨.rateLimit, message⟩
    else if status = 400 then ⟨.invalidRequest, message⟩
    else if status = 502 ∨ status = 503 ∨ status = 504 then ⟨.overloaded, message⟩
    else ⟨.api status, message⟩
  | _ => e

end ClaudeProxy.Providers
