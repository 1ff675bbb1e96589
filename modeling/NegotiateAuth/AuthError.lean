import NegotiateAuth.Base64
import NegotiateAuth.Http

/-! # Errors

What a provider of security contexts reports, and the causes for which an exchange is given up. A
provider's error keeps its category, message and source; its category alone decides which kind a
caller tells it by.
-/

namespace NegotiateAuth

/-! ## Failures of a provider -/

inductive Failure where
  | defectiveCredential
  | credentialsExpired
  | noCredential
  | defectiveToken
  | duplicateToken
  | oldToken
  | badMechanism
  | badName
  | other (code : UInt32)
deriving DecidableEq, Repr

namespace Failure

def text : Failure → String
  | defectiveCredential => "defective credential"
  | credentialsExpired => "credentials expired"
  | noCredential => "no credential available"
  | defectiveToken => "defective token"
  | duplicateToken => "duplicate token"
  | oldToken => "old token"
  | badMechanism => "unsupported mechanism"
  | badName => "bad service name"
  | other code => "provider failure 0x" ++ Text.hexWord code.toNat

def debugText : Failure → String
  | defectiveCredential => "DefectiveCredential"
  | credentialsExpired => "CredentialsExpired"
  | noCredential => "NoCredential"
  | defectiveToken => "DefectiveToken"
  | duplicateToken => "DuplicateToken"
  | oldToken => "OldToken"
  | badMechanism => "BadMechanism"
  | badName => "BadName"
  | other code => s!"Other({code.toNat})"

/-- The routine error of a GSS major status, in its bits 16 to 23. -/
def routineError (major : UInt32) : Nat :=
  major.toNat / 65536 % 256

/-- The category of a GSS major status; supplementary bits count if there is no routine error. -/
def ofMajorStatus (major : UInt32) : Failure :=
  match routineError major with
  | 1 => badMechanism
  | 2 => badName
  | 3 => badName
  | 7 => noCredential
  | 9 => defectiveToken
  | 10 => defectiveCredential
  | 11 => credentialsExpired
  | 0 =>
      if major.toNat.testBit 1 then duplicateToken
      else if major.toNat.testBit 2 then oldToken
      else other major
  | _ => other major

end Failure

structure ProviderError where
  failure : Failure
  message : String
  source : Option String
deriving DecidableEq, Repr

namespace ProviderError

def text (error : ProviderError) : String :=
  if error.message.isEmpty then error.failure.text
  else s!"{error.message} ({error.failure.text})"

def debugText (error : ProviderError) : String :=
  Text.record "ProviderError"
    ([("failure", error.failure.debugText), ("message", Text.quote error.message)] ++
      (error.source.map fun source => ("source", Text.quote source)).toList)

end ProviderError

/-! ## Causes and kinds -/

inductive ErrorKind where
  | malformedChallenge
  | notInitiated
  | failed
  | invalidCredentials
  | protocol
  | routeUnavailable
  | request
deriving DecidableEq, Repr

namespace ErrorKind

def name : ErrorKind → String
  | malformedChallenge => "MalformedChallenge"
  | notInitiated => "NotInitiated"
  | failed => "Failed"
  | invalidCredentials => "InvalidCredentials"
  | protocol => "Protocol"
  | routeUnavailable => "RouteUnavailable"
  | request => "Request"

def text : ErrorKind → String
  | malformedChallenge => "malformed Negotiate challenge"
  | notInitiated => "Negotiate authentication has not been initiated"
  | failed => "Negotiate authentication has failed"
  | invalidCredentials => "invalid credentials"
  | protocol => "Negotiate protocol error"
  | routeUnavailable => "connection route is not available"
  | request => "error sending request"

/-- Credential problems and token problems are told apart from all other failures. -/
def ofFailure : Failure → ErrorKind
  | .defectiveCredential => invalidCredentials
  | .credentialsExpired => invalidCredentials
  | .noCredential => invalidCredentials
  | .defectiveToken => protocol
  | .duplicateToken => protocol
  | .oldToken => protocol
  | .badMechanism => failed
  | .badName => failed
  | .other _ => failed

end ErrorKind

inductive AuthError where
  | malformedChallenge (cause : Base64.DecodeError)
  | notInitiated
  | alreadyFailed
  | refused (cause : ProviderError)
  | unwritable (cause : Http.Fault)
  | routeUnavailable
  | request (cause : String)
deriving DecidableEq, Repr

namespace AuthError

def kind : AuthError → ErrorKind
  | malformedChallenge _ => .malformedChallenge
  | notInitiated => .notInitiated
  | alreadyFailed => .failed
  | refused cause => .ofFailure cause.failure
  | unwritable _ => .failed
  | routeUnavailable => .routeUnavailable
  | request _ => .request

def source? : AuthError → Option String
  | malformedChallenge cause => some cause.message
  | refused cause => some cause.text
  | unwritable cause => some cause.message
  | request cause => some cause
  | notInitiated => none
  | alreadyFailed => none
  | routeUnavailable => none

def sourceDebug? : AuthError → Option String
  | malformedChallenge cause => some cause.debugText
  | refused cause => some cause.debugText
  | unwritable _ => some "InvalidHeaderValue"
  | request cause => some (Text.quote cause)
  | notInitiated => none
  | alreadyFailed => none
  | routeUnavailable => none

def message (error : AuthError) : String :=
  error.kind.text ++ error.source?.elim "" (": " ++ ·)

def debugText (error : AuthError) : String :=
  Text.record "http_negotiate::Error"
    (("kind", error.kind.name) :: (error.sourceDebug?.map fun source => ("source", source)).toList)

end AuthError

end NegotiateAuth
