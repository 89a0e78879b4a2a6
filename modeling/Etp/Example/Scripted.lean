import Etp.Handler.Registry

/-!
# Scripted handlers

A scripted handler notes every call and answers as its script says: by the entry for the method, by
the entry for all methods, or not at all.
-/

namespace Etp.Example

/-- A call of a method. -/
structure Call where
  method : String
  header : Header
  body : Body

/-- What a script does for a method: it changes what is known about the peer, then answers. -/
structure Entry where
  authenticated : Option Bool := none
  login : Option String := none
  capabilities : Option Capabilities := none
  answer : Except Fault Response

/-- The peer after an entry. -/
def Entry.change (e : Entry) (peer : Peer) : Peer :=
  { peer with
    authenticated := e.authenticated.getD peer.authenticated
    login := e.login.getD peer.login
    capabilities := e.capabilities.getD peer.capabilities }

/-- Entries for methods. -/
abbrev Script := List (String × Entry)

/-- The entry for a method. -/
def Script.entry? (s : Script) (method : String) : Option Entry :=
  (s.lookup method).or (s.lookup "*")

/-- Notes a call of a method and answers it. -/
def Script.handler (s : Script) (method : String) : Handler (List Call) :=
  fun body header peer calls =>
    let calls := calls ++ [⟨method, header, body⟩]
    match s.entry? method with
    | none => ⟨.error .notSupported, peer, calls⟩
    | some entry => ⟨entry.answer, entry.change peer, calls⟩

/-- The service whose methods follow a script. -/
def Script.service (s : Script) (p : Protocol) : Service (List Call) p := fun r _ =>
  some (fun value header peer calls => s.handler r.method ⟨r.kind, value⟩ header peer calls)

end Etp.Example
