import Etp.Session.Process

/-!
# Frames of a session

What a session sends is encoded under the limit in force with the peer; what it receives is decoded
first.
-/

namespace Etp.Session

variable {σ : Type}

/-- The frames of a message under the limit in force, each with its event. -/
def encode (s : Session) (m : Message) : List Bytes × List Event × Session :=
  let (frames, fresh) := m.frames s.peer.capabilities.maxFrameSize s.fresh
  (frames, frames.map (fun _ => .outbound), { s with fresh := fresh })

/-- The frames of several messages, one message after the other. -/
def encodeAll : List Message → Session → List Bytes × List Event × Session
  | [], s => ([], [], s)
  | m :: ms, s =>
    let (frames, events, s) := s.encode m
    let (others, later, s) := encodeAll ms s
    (frames ++ others, events ++ later, s)

/-- Processes one frame and encodes the replies. -/
def handleFrame (registry : Registry σ) (now : Nat) (s : Session) (world : σ) (frame : Bytes) :
    Turn σ (Except ConnectionError (List Bytes)) :=
  let input := match Message.decode frame with
    | .ok m => m
    | .error _ => none
  let turn := handleMessage registry now s world input
  match turn.result with
  | .error e => { turn with result := .error e }
  | .ok replies =>
    let (frames, events, s) := encodeAll replies turn.session
    ⟨s, turn.world, turn.events ++ events, .ok frames⟩

/-- The frames of a message that the application sends, and of a report that follows it.  The
message gets a fresh identifier and is marked as final; every frame, also one of the report, is
paired with that identifier. -/
def prepare (s : Session) (message report : Option Message) :
    List (Int64 × Bytes) × List Event × Session :=
  let (id, s) := s.drawId
  let (frames, events, s) :=
    encodeAll ((message.map (fun m => (m.withId id).addFlags .final)).toList ++ report.toList) s
  (frames.map (id, ·), events, s)

/-- Drops the exchanges that are older than the time in force, if there is one, and counts them. -/
def sweep (s : Session) (now : Nat) : Nat × List Event × Session :=
  match s.peer.capabilities.multipartTimeout with
  | none => (0, [], s)
  | some seconds =>
    let expired := s.assemblies.expired now (seconds * 1000)
    (expired.length, [.expired expired.length],
      { s with
        assemblies := s.assemblies.current now (seconds * 1000)
        deferred := s.deferred.filter (fun d => !expired.contains d.1) })

end Etp.Session
