import Etp.Handler.Basic
import Mathlib.Data.List.Nodup

/-!
# Bodies find their methods

The routing tables of all protocols together list every kind of bodies, each under the protocol to which it
belongs, and no two rows of a table name the same method.  So a body of the protocol reaches exactly one
method, and every other body none (`handler_routed`).  Which methods are called is seen by a service that
notes the calls.
-/

namespace Etp

/-! ## Tables -/

/-- A table lists bodies of its own protocol only. -/
theorem Route.protocol_eq {p : Protocol} {r : Route} (h : r ∈ p.routes) : r.kind.protocol = p := by
  have hall : ∀ p ∈ Protocol.all, ∀ r ∈ p.routes, r.kind.protocol = p := by decide +kernel
  exact hall p p.mem_all r h

/-- Every kind of bodies stands in the table of its protocol. -/
theorem Kind.exists_route (k : Kind) : ∃ r ∈ k.protocol.routes, r.kind = k := by
  have hall : ∀ k ∈ Kind.all, ∃ r ∈ k.protocol.routes, r.kind = k := by decide +kernel
  exact hall k k.mem_all

namespace Protocol

theorem nodup_kinds (p : Protocol) : (p.routes.map Route.kind).Nodup := by
  have hall : ∀ p ∈ all, (p.routes.map Route.kind).Nodup := by decide +kernel
  exact hall p p.mem_all

theorem nodup_methods (p : Protocol) : (p.routes.map Route.method).Nodup := by
  have hall : ∀ p ∈ all, (p.routes.map Route.method).Nodup := by decide +kernel
  exact hall p p.mem_all

end Protocol

namespace Service

variable {σ : Type} {p : Protocol}

/-! ## Rows -/

/-- A body is handed to the method of the row for its kind. -/
theorem handlerBy_of_mem (s : Service σ p) {rows : List Route} (hrows : rows ⊆ p.routes)
    (hkinds : (rows.map Route.kind).Nodup) {r : Route} (hr : r ∈ rows) (value : r.kind.shape.Val)
    (header : Header) (peer : Peer) (world : σ) :
    s.handlerBy rows hrows ⟨r.kind, value⟩ header peer world =
      s.method r (hrows hr) value header peer world := by
  induction rows with
  | nil => cases hr
  | cons q rows ih =>
    obtain ⟨hq, hrest⟩ := List.nodup_cons.1 hkinds
    rcases List.mem_cons.1 hr with rfl | hlater
    · simp only [handlerBy, Body.valueAs?_kind (⟨r.kind, value⟩ : Body)]
    · have hother : r.kind ≠ q.kind := by
        intro hkind
        exact hq (hkind ▸ List.mem_map_of_mem hlater)
      have hvalue : Body.valueAs? ⟨r.kind, value⟩ q.kind = .none := dif_neg hother
      simp only [handlerBy, hvalue]
      exact ih (List.subset_of_cons_subset hrows) hrest hlater

/-- A body for whose kind there is no row is refused. -/
theorem handlerBy_of_not_mem (s : Service σ p) {rows : List Route} (hrows : rows ⊆ p.routes) {body : Body}
    (hbody : ∀ r ∈ rows, r.kind ≠ body.kind) (header : Header) (peer : Peer) (world : σ) :
    s.handlerBy rows hrows body header peer world = ⟨.error .invalidMessageType, peer, world⟩ := by
  induction rows with
  | nil => rfl
  | cons q rows ih =>
    obtain ⟨hq, hrest⟩ := List.forall_mem_cons.1 hbody
    have hvalue : body.valueAs? q.kind = .none := dif_neg (Ne.symm hq)
    simp only [handlerBy, hvalue]
    exact ih (List.subset_of_cons_subset hrows) hrest

/-- What becomes of a body of the protocol. -/
theorem handler_of_mem (s : Service σ p) {r : Route} (hr : r ∈ p.routes) (value : r.kind.shape.Val)
    (header : Header) (peer : Peer) (world : σ) :
    s.handler ⟨r.kind, value⟩ header peer world = s.method r hr value header peer world :=
  s.handlerBy_of_mem _ p.nodup_kinds hr value header peer world

/-- What becomes of a body of another protocol. -/
theorem handler_of_ne (s : Service σ p) {body : Body} (hbody : body.kind.protocol ≠ p) (header : Header)
    (peer : Peer) (world : σ) :
    s.handler body header peer world = ⟨.error .invalidMessageType, peer, world⟩ := by
  apply handlerBy_of_not_mem
  intro r hr hkind
  exact hbody (hkind ▸ Route.protocol_eq hr)

/-! ## Calls of methods -/

/-- A call of a method, with what it is given. -/
structure Invocation where
  method : String
  body : Body
  header : Header
  peer : Peer

/-- The service that answers like `s` and notes every call of a method, also of one that is not
supported. -/
def noting (s : Service σ p) : Service (σ × List Invocation) p := fun r hr =>
  some (fun value header peer (world, noted) =>
    let handled := s.method r hr value header peer world
    ⟨handled.answer, handled.peer,
      handled.world, noted ++ [⟨r.method, ⟨r.kind, value⟩, header, peer⟩]⟩)

/-- A body of the protocol is handed to the method of its row, with its header and the peer as they are.
This is the only call, and no other kind of bodies has the same method.  Without any method such a body is
not supported.  A body of another protocol is refused; no method is called, and the peer stays as it is. -/
theorem handler_routed (s : Service σ p) (body : Body) (header : Header) (peer : Peer) (world : σ)
    (noted : List Invocation) :
    let handled := s.handler body header peer world
    let watched := s.noting.handler body header peer (world, noted)
    if body.protocolId = p.id then
      ∃ r, ∃ hr : r ∈ p.routes, ∃ value, body = ⟨r.kind, value⟩ ∧
        handled = s.method r hr value header peer world ∧
        watched = ⟨handled.answer, handled.peer,
          handled.world, noted ++ [⟨r.method, body, header, peer⟩]⟩ ∧
        (∀ q ∈ p.routes, q.kind = body.kind ∨ q.method = r.method → q = r) ∧
        (none : Service σ p).handler body header peer world = ⟨.error .notSupported, peer, world⟩
    else
      handled = ⟨.error .invalidMessageType, peer, world⟩ ∧
        watched = ⟨.error .invalidMessageType, peer, world, noted⟩ := by
  intro handled watched
  split
  case isTrue hprotocol =>
    have hown : body.kind.protocol = p := Protocol.id_injective hprotocol
    obtain ⟨r, hr, hkind⟩ := body.kind.exists_route
    obtain ⟨kind, value⟩ := body
    subst hkind
    rw [hown] at hr
    have hhandled : handled = s.method r hr value header peer world :=
      s.handler_of_mem hr value header peer world
    refine ⟨r, hr, value, rfl, hhandled, ?_, ?_, ?_⟩
    · rw [hhandled]
      exact s.noting.handler_of_mem hr value header peer (world, noted)
    · rintro q hq (hkind | hmethod)
      · exact List.inj_on_of_nodup_map p.nodup_kinds hq hr hkind
      · exact List.inj_on_of_nodup_map p.nodup_methods hq hr hmethod
    · exact none.handler_of_mem hr value header peer world
  case isFalse hprotocol =>
    have hforeign : body.kind.protocol ≠ p := fun hown => hprotocol (congrArg Protocol.id hown)
    exact ⟨s.handler_of_ne hforeign header peer world,
      s.noting.handler_of_ne hforeign header peer (world, noted)⟩

end Service

end Etp
