import Etp.Session.Outbound

/-!
# Driving a session

Frames are taken from a source and the replies to each are written to a sink before the next one is
taken.  Old exchanges are dropped before every frame, by the time at which the frame arrives.
-/

namespace Etp.Session

variable {σ : Type}

/-- What a source delivers: a frame, or the reason why none could be read. -/
structure Arrival where
  /-- The time in milliseconds. -/
  time : Nat
  frame : Except String Bytes

/-- A sink that takes only so many frames, or any number, and those written to it. -/
structure Sink where
  room : Option Nat
  written : List Bytes := []

/-- The reason that a full sink gives. -/
def Sink.full : String := "sink full"

/-- Writes frames until the sink is full; the second part tells whether all were taken. -/
def Sink.write (sink : Sink) (frames : List Bytes) : Sink × Bool :=
  match sink.room with
  | none => ({ sink with written := sink.written ++ frames }, true)
  | some room =>
    (⟨some (room - frames.length), sink.written ++ frames.take room⟩, frames.length ≤ room)

/-- Processes frames until the source ends or fails, the sink is full, or the session fails. -/
def pump (registry : Registry σ) :
    List Arrival → Session → σ → Sink → Turn σ (Except ConnectionError Unit) × Sink
  | [], s, world, sink => (⟨s, world, [], .ok ()⟩, sink)
  | ⟨_, .error reason⟩ :: _, s, world, sink =>
    (⟨s, world, [], .error (.transport reason)⟩, sink)
  | ⟨now, .ok frame⟩ :: input, s, world, sink =>
    let (_, swept, s) := s.sweep now
    let turn := handleFrame registry now s world frame
    match turn.result with
    | .error e => ({ turn with events := swept ++ turn.events, result := .error e }, sink)
    | .ok frames =>
      let (sink, taken) := sink.write frames
      if taken then
        let (last, sink) := pump registry input turn.session turn.world sink
        ({ last with events := swept ++ turn.events ++ last.events }, sink)
      else
        ({ turn with
            events := swept ++ turn.events
            result := .error (.transport Sink.full) }, sink)

/-- Drives a session; once shutdown is requested no frame is taken any more. -/
def run (registry : Registry σ) (shutdown : Bool) (input : List Arrival) (s : Session) (world : σ)
    (sink : Sink) : Turn σ (Except ConnectionError Unit) × Sink :=
  pump registry (if shutdown then [] else input) s world sink

end Etp.Session
