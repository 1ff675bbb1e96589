import NegotiateAuth.Challenge

/-! # Configuration

The settings of a session, fixed for its lifetime, with the mechanism of its security context, and
the credentials of a request. Only a delegated credential handle reaches the provider, which
otherwise takes its own default.
-/

namespace NegotiateAuth

/-! ## Mechanisms -/

inductive Mechanism where
  | spnego
  | kerberos
deriving DecidableEq, Repr, Inhabited

namespace Mechanism

def name : Mechanism → String
  | spnego => "SPNEGO"
  | kerberos => "Kerberos"

def debugText : Mechanism → String
  | spnego => "Spnego"
  | kerberos => "Kerberos"

def arcs : Mechanism → List Nat
  | spnego => [1, 3, 6, 1, 5, 5, 2]
  | kerberos => [1, 2, 840, 113554, 1, 2, 2]

def oid (mechanism : Mechanism) : String :=
  ".".intercalate (mechanism.arcs.map toString)

/-- The object identifier in DER, without tag and length. -/
def der : Mechanism → List UInt8
  | spnego => [0x2b, 0x06, 0x01, 0x05, 0x05, 0x02]
  | kerberos => [0x2a, 0x86, 0x48, 0x86, 0xf7, 0x12, 0x01, 0x02, 0x02]

end Mechanism

/-! ## Settings -/

structure Config where
  stripPort : Bool
  useCanonicalHostname : Bool
  /-- Authenticate against the proxy and not against the target. -/
  proxy : Bool
  mechanism : Mechanism
deriving DecidableEq, Repr

namespace Config

def target : Config :=
  { stripPort := true, useCanonicalHostname := true, proxy := false, mechanism := .spnego }

def viaProxy : Config :=
  { target with proxy := true }

def peer (config : Config) : Peer :=
  if config.proxy then .proxy else .target

theorem answerField_peer (config : Config) : config.peer.answerField =
    if config.proxy then .proxyAuthorization else .authorization := by
  cases hproxy : config.proxy <;> simp [peer, Peer.answerField, hproxy]

theorem challengeField_peer (config : Config) : config.peer.challengeField =
    if config.proxy then .proxyAuthenticate else .wwwAuthenticate := by
  cases hproxy : config.proxy <;> simp [peer, Peer.challengeField, hproxy]

/-- The demand for authentication is told by its code. -/
theorem challengeStatus_peer_iff (config : Config) (status : Http.Status) :
    status = config.peer.challengeStatus ↔ status.code = if config.proxy then 407 else 401 := by
  obtain ⟨code, digits⟩ := status
  cases hproxy : config.proxy <;>
    simp [peer, Peer.challengeStatus, Http.Status.unauthorized,
      Http.Status.proxyAuthenticationRequired, hproxy]

def debugText (config : Config) : String :=
  Text.record "NegotiateConfig"
    [("strip_port", Text.boolText config.stripPort),
      ("use_canonical_hostname", Text.boolText config.useCanonicalHostname),
      ("proxy", Text.boolText config.proxy),
      ("mechanism", config.mechanism.debugText)]

end Config

/-! ## Credentials -/

inductive Credentials (κ : Type) where
  | currentUser
  | delegated (handle : κ)
  | explicit (username password : String)
deriving DecidableEq, Repr

namespace Credentials

variable {κ : Type}

def handle? : Credentials κ → Option κ
  | delegated handle => some handle
  | currentUser => none
  | explicit _ _ => none

/-- The diagnostic text, given that of a handle; it never holds the password. -/
def debugText (handleText : κ → String) : Credentials κ → String
  | currentUser => "CurrentUser"
  | delegated handle => s!"Delegated({handleText handle})"
  | explicit username _ =>
      Text.record "Explicit"
        [("username", Text.quote username), ("password", Text.quote "[redacted]")]

end Credentials

end NegotiateAuth
