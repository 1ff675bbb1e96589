import NegotiateAuth.Address
import NegotiateAuth.AuthError
import NegotiateAuth.Config

/-! # The environment of a session

A computation reads and changes the world outside and leaves a trace of events. A session is given
its capabilities as such computations: a provider of security contexts, a look-up of canonical host
names, and a transport for requests. Every use of one and every log record is an event.
-/

namespace NegotiateAuth

/-! ## Actions -/

structure Outcome (σ ε α : Type) where
  result : α
  world : σ
  events : List ε

def Action (σ ε α : Type) : Type :=
  σ → Outcome σ ε α

namespace Action

variable {σ ε α β : Type}

def pure (a : α) : Action σ ε α := fun world =>
  ⟨a, world, []⟩

def bind (x : Action σ ε α) (f : α → Action σ ε β) : Action σ ε β := fun world =>
  let first := x world
  let second := f first.result first.world
  ⟨second.result, second.world, first.events ++ second.events⟩

instance : Monad (Action σ ε) where
  pure := Action.pure
  bind := Action.bind

def emit (event : ε) : Action σ ε Unit := fun world =>
  ⟨(), world, [event]⟩

def emitAll (events : List ε) : Action σ ε Unit := fun world =>
  ⟨(), world, events⟩

def ask (question : σ → α × σ) : Action σ ε α := fun world =>
  let answer := question world
  ⟨answer.1, answer.2, []⟩

theorem pure_apply (a : α) (world : σ) :
    (Pure.pure a : Action σ ε α) world = ⟨a, world, []⟩ :=
  rfl

theorem bind_apply (x : Action σ ε α) (f : α → Action σ ε β) (world : σ) :
    (x >>= f) world =
      ⟨(f (x world).result (x world).world).result, (f (x world).result (x world).world).world,
        (x world).events ++ (f (x world).result (x world).world).events⟩ :=
  rfl

instance : LawfulMonad (Action σ ε) :=
  LawfulMonad.mk' (Action σ ε)
    (by intro α x; funext world; simp [Functor.map, Action.bind, Action.pure])
    (by intro α β a f; funext world; simp [Bind.bind, Pure.pure, Action.bind, Action.pure])
    (by intro α β γ x f g; funext world; simp [Bind.bind, Action.bind, List.append_assoc])

theorem emit_apply (event : ε) (world : σ) :
    (emit event : Action σ ε Unit) world = ⟨(), world, [event]⟩ :=
  rfl

theorem emitAll_apply (events : List ε) (world : σ) :
    (emitAll events : Action σ ε Unit) world = ⟨(), world, events⟩ :=
  rfl

theorem ask_apply (question : σ → α × σ) (world : σ) :
    (ask question : Action σ ε α) world = ⟨(question world).1, (question world).2, []⟩ :=
  rfl

end Action

/-! ## Capabilities -/

structure Canonical where
  address : IpAddress
  name : String
deriving DecidableEq, Repr

inductive Level where
  | debug
  | trace
deriving DecidableEq, Repr

inductive Event (κ χ : Type) where
  | created (service : String) (mechanism : Mechanism) (credential : Option κ)
  | advanced (context : χ) (input : List UInt8)
  | lookedUp (host : String)
  | logged (level : Level) (text : String)
  | sent (request : Http.Request)
deriving DecidableEq, Repr

/-- The capabilities of a session, over credential handles `κ` and contexts `χ`. -/
structure Environment (σ κ χ : Type) where
  createContext : String → Mechanism → Option κ → σ → Except ProviderError χ × σ
  advance : χ → List UInt8 → σ → Except ProviderError (List UInt8) × σ
  canonicalize : String → σ → Except String Canonical × σ

/-- Sends a request and gives the response, or the text of the error that stopped it. -/
abbrev Transport (σ : Type) : Type :=
  Http.Request → σ → Except String Http.Response × σ

section

variable {σ κ χ : Type}

def Event.debug (text : String) : Event κ χ :=
  .logged .debug text

def Event.trace (text : String) : Event κ χ :=
  .logged .trace text

namespace Environment

variable (env : Environment σ κ χ)

def create (service : String) (mechanism : Mechanism) (credential : Option κ) :
    Action σ (Event κ χ) (Except ProviderError χ) := do
  .emit (.created service mechanism credential)
  .ask (env.createContext service mechanism credential)

def feed (context : χ) (input : List UInt8) :
    Action σ (Event κ χ) (Except ProviderError (List UInt8)) := do
  .emit (.advanced context input)
  .ask (env.advance context input)

def lookUp (host : String) : Action σ (Event κ χ) (Except String Canonical) := do
  .emit (.lookedUp host)
  .ask (env.canonicalize host)

end Environment

def Transport.send (transport : Transport σ) (request : Http.Request) :
    Action σ (Event κ χ) (Except String Http.Response) := do
  .emit (.sent request)
  .ask (transport request)

end

end NegotiateAuth
