import Etp.Fault
import Etp.Handler.Routes
import Etp.Peer

/-!
# Handlers

A handler answers the messages of one protocol.  It is a function of the message, of what the
session knows about the peer and of the state that the handlers share; it may change the latter two.
A `Service` has a method for each row of the routing table of a protocol, or leaves the row unsupported;
`Service.handler` finds the method for a body.
-/

namespace Etp

/-- What a handler yields one after the other: a reply, deliberately none, or a fault. -/
abbrev Item := Except Fault (Option Message)

/-- What a handler answers. -/
inductive Response where
  /-- One reply. -/
  | single (reply : Message)
  /-- Several replies; an absent one stands for nothing to be sent. -/
  | several (replies : List (Option Message))
  /-- Replies and faults in a sequence. -/
  | stream (items : List Item)
  /-- No reply. -/
  | empty

namespace Response

/-- The reply with a body. -/
def reply (body : Body) : Response := single (Message.ofBody body)

/-- What the response yields one after the other. -/
def items : Response → List Item
  | single reply => [.ok (some reply)]
  | several replies => replies.map .ok
  | stream items => items
  | empty => []

end Response

/-- What comes of handling a message. -/
structure Handled (σ : Type) where
  answer : Except Fault Response
  peer : Peer
  world : σ

/-- Answers messages; `σ` is the state that the handlers share. -/
abbrev Handler (σ : Type) := Body → Header → Peer → σ → Handled σ

/-- A handler whose state is a part of a larger one. -/
def Handler.within {σ τ : Type} (get : τ → σ) (set : σ → τ → τ) (h : Handler σ) : Handler τ :=
  fun body header peer world =>
    let handled := h body header peer (get world)
    ⟨handled.answer, handled.peer, set handled.world world⟩

/-- Answers the bodies of one kind. -/
abbrev Method (σ : Type) (k : Kind) := k.shape.Val → Header → Peer → σ → Handled σ

/-- A method, or none, for each row of the routing table of a protocol. -/
abbrev Service (σ : Type) (p : Protocol) := (r : Route) → r ∈ p.routes → Option (Method σ r.kind)

namespace Service

variable {σ : Type} {p : Protocol}

/-- The service that supports nothing. -/
def none : Service σ p := fun _ _ => .none

/-- The method of a row; where there is none, the one that says so. -/
def method (s : Service σ p) (r : Route) (hr : r ∈ p.routes) : Method σ r.kind :=
  (s r hr).getD (fun _ _ peer world => ⟨.error .notSupported, peer, world⟩)

/-- Hands a body to the method of the first of some rows that is for its kind. -/
def handlerBy (s : Service σ p) : (rows : List Route) → rows ⊆ p.routes → Handler σ
  | [], _ => fun _ _ peer world => ⟨.error .invalidMessageType, peer, world⟩
  | r :: rows, hrows => fun body header peer world =>
    match body.valueAs? r.kind with
    | some value => s.method r (hrows List.mem_cons_self) value header peer world
    | .none => handlerBy s rows (List.subset_of_cons_subset hrows) body header peer world

/-- Hands a body of the protocol to its method. -/
def handler (s : Service σ p) : Handler σ := s.handlerBy p.routes (List.Subset.refl _)

end Service

end Etp
