import Etp.Message.Basic

/-!
# Events and counters

What happens in a session that an observer can count.  A counter is a name, mostly with a label,
and an event adds to one counter or to none.
-/

namespace Etp

/-- What happens in a session. -/
inductive Event where
  /-- A message came in, or was made whole from its parts. -/
  | inbound
  /-- A frame went out. -/
  | outbound
  /-- A fault was reported under a code. -/
  | faultReply (code : Int32)
  /-- The parts of an exchange became one message. -/
  | reassembled
  /-- So many exchanges were dropped for their age. -/
  | expired (count : Nat)
  /-- A handler was given a message. -/
  | handled (header : Header) (body : Body)
  deriving DecidableEq

/-- A counter of events. -/
inductive Counter where
  | inbound
  | outbound
  | faultReplies (code : Int32)
  | reassembled
  | expired
  deriving DecidableEq

namespace Counter

/-- The name of a counter. -/
def name : Counter → String
  | inbound => "etpproto_messages_processed_total"
  | outbound => "etpproto_messages_processed_total"
  | faultReplies _ => "etpproto_error_replies_total"
  | reassembled => "etpproto_multipart_reassembled_total"
  | expired => "etpproto_multipart_expired_total"

/-- The label that tells apart the counters of one name, and its value. -/
def label : Counter → Option (String × String)
  | inbound => some ("direction", "inbound")
  | outbound => some ("direction", "outbound")
  | faultReplies code => some ("code", toString code.toInt)
  | reassembled => none
  | expired => none

/-- The name of a counter with its label in braces. -/
def text (c : Counter) : String :=
  let label := match c.label with
    | some (name, value) => name ++ "=" ++ value
    | none => ""
  c.name ++ "\x7b" ++ label ++ "\x7d"

end Counter

/-- The counter to which an event adds, and how much. -/
def Event.counted : Event → Option (Counter × Nat)
  | inbound => some (.inbound, 1)
  | outbound => some (.outbound, 1)
  | faultReply code => some (.faultReplies code, 1)
  | reassembled => some (.reassembled, 1)
  | expired count => some (.expired, count)
  | handled _ _ => none

/-- What some events add to a counter. -/
def Counter.total (c : Counter) (events : List Event) : Nat :=
  (events.filterMap Event.counted).foldl (fun n e => if e.1 = c then n + e.2 else n) 0

/-- The counters that some events touch, each once. -/
def touched (events : List Event) : List Counter :=
  ((events.filterMap Event.counted).map (·.1)).eraseDups

end Etp
