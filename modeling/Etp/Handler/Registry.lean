import Etp.Handler.Basic
import Etp.Role

/-!
# Registries

A registry gives each protocol at most one handler.
-/

namespace Etp

/-- Why a handler cannot be registered. -/
inductive RegistryError where
  | duplicate (protocol : Protocol)
  deriving DecidableEq

/-- The report of a handler that cannot be registered. -/
def RegistryError.message : RegistryError → String
  | duplicate p => "protocol " ++ p.text ++ " was already registered"

/-- The handlers of the protocols that an endpoint serves. -/
structure Registry (σ : Type) where
  handler : Protocol → Option (Handler σ)

namespace Registry

variable {σ : Type}

/-- The registry without handlers. -/
def empty : Registry σ := ⟨fun _ => none⟩

/-- Whether a protocol has a handler. -/
def contains (r : Registry σ) (p : Protocol) : Bool := (r.handler p).isSome

/-- Gives a protocol its handler; it must not have one yet. -/
def register (r : Registry σ) (p : Protocol) (h : Handler σ) :
    Except RegistryError (Registry σ) :=
  if r.contains p then .error (.duplicate p)
  else .ok ⟨fun q => if q = p then some h else r.handler q⟩

/-- A registry of handlers whose state is a part of a larger one. -/
def within {τ : Type} (get : τ → σ) (set : σ → τ → τ) (r : Registry σ) : Registry τ :=
  ⟨fun p => (r.handler p).map (Handler.within get set)⟩

/-- The handler of the protocol with a number. -/
def find? (r : Registry σ) (protocol : Int32) : Option (Handler σ) :=
  (Protocol.ofId? protocol).bind r.handler

/-- The protocols that have handlers, in the order of their numbers. -/
def protocols (r : Registry σ) : List Protocol := Protocol.all.filter r.contains

/-- The names of the protocols that have handlers. -/
def text (r : Registry σ) : String :=
  "\x7b" ++ ", ".intercalate (r.protocols.map Protocol.name) ++ "\x7d"

/-- The version of the protocols: 1.2.0.0. -/
def version : Schema.version.Val := ((1 : Int32), (2 : Int32), (0 : Int32), (0 : Int32), ())

/-- The record by which an endpoint of a role offers a protocol. -/
def offer (role : Role) (p : Protocol) : Schema.supportedProtocol.Val :=
  (p.id, version, role.name, KeyMap.empty, ())

/-- What an endpoint of a role offers; the core protocol goes without saying. -/
def supportedProtocols (r : Registry σ) (role : Role) : List Schema.supportedProtocol.Val :=
  (r.protocols.filter (· ≠ .core)).map (offer role)

end Registry

end Etp
