import NegotiateAuth.Host
import NegotiateAuth.Session.Environment

/-! # Names of services

The name of the service that a security context is created for: the service type, the host
authenticated against, canonical if the configuration wants it so, and the port unless it is left
out. Canonical names are found by two look-ups, of the addresses of a host name and of the name of
the first of them.
-/

namespace NegotiateAuth

/-! ## The service -/

namespace ServiceName

variable {σ κ χ : Type}

def serviceType : String :=
  "HTTP"

/-- A name that is the text of its address says that the address has no name. -/
def isBareAddress (canonical : Canonical) : Bool :=
  canonical.address.toText == canonical.name

def canonicalName (env : Environment σ κ χ) (host : String) :
    Action σ (Event κ χ) String := do
  match ← env.lookUp host with
  | .ok canonical =>
      if isBareAddress canonical then return host
      else do
        .emit (.trace s!"canonical name of {host} is {canonical.name}")
        return canonical.name
  | .error cause =>
      .emit (.debug s!"canonicalization of {host} failed, keeping it: {cause}")
      return host

def hostName (env : Environment σ κ χ) (config : Config) (host : String) :
    Action σ (Event κ χ) String :=
  if config.useCanonicalHostname then canonicalName env host else return host

def format (stripPort : Bool) (name : String) (port : UInt16) : String :=
  if stripPort then s!"{serviceType}@{name}" else s!"{serviceType}@{name}:{port.toNat}"

def ofHost (env : Environment σ κ χ) (config : Config) (host : Host) :
    Action σ (Event κ χ) String := do
  let name ← hostName env config host.name
  return format config.stripPort name host.port

end ServiceName

/-! ## The look-ups -/

structure Resolver where
  addresses : String → Except String (List IpAddress)
  nameOf : IpAddress → Except String String

namespace Resolver

/-- A name with a null character is refused before it is looked up. -/
def canonicalize (resolver : Resolver) (host : String) : Except String Canonical := do
  if '\x00' ∈ host.toList then .error "data provided contains a nul byte"
  else
    match ← resolver.addresses host with
    | [] => .error s!"unknown host: {host}"
    | address :: _ => return ⟨address, ← resolver.nameOf address⟩

def notKnown : String :=
  "failed to lookup address information: Name or service not known"

def ofTable (table : List (IpAddress × String)) : Resolver where
  addresses host :=
    match (table.filter (·.2.toLower == host.toLower)).map (·.1) with
    | [] => .error notKnown
    | found => .ok found
  nameOf address :=
    match table.find? (·.1 == address) with
    | some entry => .ok entry.2
    | none => .error notKnown

def loopback : Resolver :=
  ofTable [(.v4 ⟨127, 0, 0, 1⟩, "localhost")]

end Resolver

end NegotiateAuth
