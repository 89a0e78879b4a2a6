import Etp.Proofs.Session.Failure
import Etp.Proofs.Session.Handshake
import Etp.Proofs.Session.Reports
import Mathlib.Algebra.Ring.Nat

/-!
# What the counters count

The counters of a session agree with what goes in and out of it, and with what its calls return.  Each step
on the way of an input makes its events beside its replies, and `Booked` says that the two belong together;
`marks` leaves the events that are no reports, of which there are the same for every handler.  A call is
described by its `Traffic`, and `Agrees` compares the counters with the traffic of a run (`counters_agree`).
-/

namespace Etp

/-! ## Counters -/

/-- What an event adds to a counter. -/
def Event.adds (c : Counter) (e : Event) : Nat :=
  match e.counted with
  | some (counter, count) => if counter = c then count else 0
  | none => 0

namespace Counter

theorem total_eq_sum (c : Counter) (events : List Event) :
    c.total events = (events.map (Event.adds c)).sum := by
  suffices h : ∀ start, (events.filterMap Event.counted).foldl
      (fun n e => if e.1 = c then n + e.2 else n) start = start + (events.map (Event.adds c)).sum by
    simpa [total] using h 0
  induction events with
  | nil => exact fun start => rfl
  | cons e events ih =>
    intro start
    rw [List.map_cons, List.sum_cons, Event.adds, List.filterMap_cons]
    cases e.counted with
    | none => simp [ih]
    | some counted =>
      simp only [List.foldl_cons, ih]
      split
      · omega
      · omega

@[simp] theorem total_nil (c : Counter) : c.total [] = 0 := rfl

@[simp] theorem total_cons (c : Counter) (e : Event) (events : List Event) :
    c.total (e :: events) = e.adds c + c.total events := by
  simp [total_eq_sum]

@[simp] theorem total_append (c : Counter) (events later : List Event) :
    c.total (events ++ later) = c.total events + c.total later := by
  simp [total_eq_sum]

@[simp] theorem total_replicate (c : Counter) (count : Nat) (e : Event) :
    c.total (List.replicate count e) = count * e.adds c := by
  simp [total_eq_sum]

end Counter

namespace Registry

variable {σ : Type}

/-- No handler answers with a report of its own; a fault that it answers with is reported by the session. -/
def NeverReports (registry : Registry σ) : Prop :=
  ∀ p handler, registry.handler p = some handler →
    ∀ body header peer world response, (handler body header peer world).answer = .ok response →
      ∀ reply, .ok (some reply) ∈ response.items → reply.body.kind ≠ .protocolException

end Registry

theorem Message.reportedCode?_of_kind {m : Message} (h : m.body.kind ≠ .protocolException) :
    m.reportedCode? = none := by
  unfold reportedCode?
  split
  case h_1 heq => exact absurd (congrArg Body.kind heq) h
  case h_2 => rfl

namespace Session

variable {σ : Type}

/-- A counter of reports has the number of the faults with its code. -/
theorem total_faultReplies (code : Int32) (events : List Event) :
    (Counter.faultReplies code).total events = (faultCodes events).count code := by
  induction events with
  | nil => rfl
  | cons e events ih =>
    rw [Counter.total_cons, ih]
    cases e with
    | faultReply other =>
      show (if Counter.faultReplies other = .faultReplies code then 1 else 0) + _ =
        (other :: faultCodes events).count code
      simp [List.count_cons, Nat.add_comm]
    | _ => exact Nat.zero_add _

/-! ## The events of an input -/

/-- Whether an event is neither a report nor the call of a handler. -/
def isMark : Event → Bool
  | .faultReply _ => false
  | .handled _ _ => false
  | _ => true

/-- The events that are neither reports nor calls of handlers. -/
def marks (events : List Event) : List Event := events.filter isMark

@[simp] theorem marks_append (events later : List Event) :
    marks (events ++ later) = marks events ++ marks later := List.filter_append ..

@[simp] theorem marks_inbound (events : List Event) :
    marks (.inbound :: events) = .inbound :: marks events := rfl

@[simp] theorem marks_reassembled (events : List Event) :
    marks (.reassembled :: events) = .reassembled :: marks events := rfl

/-- Reports and calls do not show in the other counters. -/
theorem total_marks {c : Counter} (hreports : ∀ code, Event.adds c (.faultReply code) = 0)
    (events : List Event) : c.total (marks events) = c.total events := by
  induction events with
  | nil => rfl
  | cons e events ih =>
    cases e with
    | faultReply code =>
      rw [Counter.total_cons, hreports, Nat.zero_add]
      exact ih
    | handled header body =>
      rw [Counter.total_cons]
      exact ih.trans (Nat.zero_add _).symm
    | _ =>
      rw [marks, List.filter_cons_of_pos rfl, Counter.total_cons, Counter.total_cons]
      exact congrArg _ ih

/-- The codes that are reported in some replies. -/
def reportedCodes (replies : List (Option Message)) : List Int32 :=
  replies.filterMap (fun reply => reply.bind Message.reportedCode?)

@[simp] theorem reportedCodes_append (replies later : List (Option Message)) :
    reportedCodes (replies ++ later) = reportedCodes replies ++ reportedCodes later :=
  List.filterMap_append

/-- The marks of a turn are the given ones.  Handlers that do not report leave the reports to the session,
and then its replies have one for each fault, in the same order. -/
structure Booked (registry : Registry σ) (turn : Turn σ Replies) (marked : List Event) : Prop where
  marks_eq : marks turn.events = marked
  faultCodes_eq : registry.NeverReports →
    faultCodes turn.events = reportedCodes (turn.result.toOption.getD [])

theorem booked_reportOnly (registry : Registry σ) (s : Session) (world : σ) (fault : Fault)
    (correlationId : Int64) : Booked registry (s.reportOnly world fault correlationId) [] :=
  ⟨rfl, fun _ => rfl⟩

theorem marks_answer (request : Header) (items : List Item) (s : Session) :
    marks (answer request items s).2.1 = [] := by
  induction items generalizing s with
  | nil => rfl
  | cons item items ih =>
    match item with
    | .ok (some reply) => exact ih s.drawId.2
    | .ok none => exact ih s
    | .error fault => rfl

/-- If no reply of a handler is a report, the only one is that of the fault which ends the answer. -/
theorem faultCodes_answer (request : Header) {items : List Item} (s : Session)
    (hitems : ∀ reply, .ok (some reply) ∈ items → reply.body.kind ≠ .protocolException) :
    faultCodes (answer request items s).2.1 = reportedCodes (answer request items s).1 := by
  induction items generalizing s with
  | nil => rfl
  | cons item items ih =>
    have hrest := fun reply hreply => hitems reply (List.mem_cons_of_mem item hreply)
    match item with
    | .ok (some reply) =>
      have hnone : (finish request reply s.drawId.1).reportedCode? = none := by
        apply Message.reportedCode?_of_kind
        rw [body_finish]
        exact hitems reply List.mem_cons_self
      simp only [answer, reportedCodes, List.filterMap_cons, Option.bind_some, hnone]
      exact ih s.drawId.2 hrest
    | .ok none => exact ih s hrest
    | .error fault => rfl

theorem booked_dispatch (registry : Registry σ) (s : Session) (world : σ) (m : Message) :
    Booked registry (dispatch registry s world m) [] := by
  unfold dispatch
  split
  case h_1 => exact booked_reportOnly registry s world _ _
  case h_2 handler hhandler =>
    obtain ⟨p, -, hregistered⟩ := Option.bind_eq_some_iff.1 hhandler
    simp only
    split
    case h_1 fault hanswer => exact ⟨rfl, fun _ => rfl⟩
    case h_2 response hanswer =>
      refine ⟨marks_answer m.header response.items _, fun hreports => ?_⟩
      exact faultCodes_answer m.header _
        (hreports p handler hregistered m.body m.header s.peer world response hanswer)

/-- An acknowledgement is no report. -/
theorem reportedCodes_acknowledge (s : Session) (m : Message) :
    reportedCodes (s.acknowledge m).1 = [] := by
  unfold acknowledge
  split
  · rfl
  · rfl

/-- A message that comes in is counted, and the acknowledgement before the replies changes nothing. -/
theorem Booked.onward {registry : Registry σ} {turn : Turn σ Replies} {marked : List Event}
    (h : Booked registry turn marked) (s : Session) (m : Message) :
    Booked registry { turn with
      events := .inbound :: turn.events
      result := turn.result.map ((s.acknowledge m).1 ++ ·) } (.inbound :: marked) := by
  refine ⟨congrArg _ h.marks_eq, fun hreports => (h.faultCodes_eq hreports).trans ?_⟩
  cases hresult : turn.result with
  | error e => rfl
  | ok replies =>
    show reportedCodes replies = reportedCodes ((s.acknowledge m).1 ++ replies)
    rw [reportedCodes_append, reportedCodes_acknowledge, List.nil_append]

theorem booked_receive_refused (registry : Registry σ) (onward : Session → σ → Message → Turn σ Replies)
    {s : Session} (world : σ) {m : Message} {fault : Fault} (hgate : s.gate m = some fault) :
    Booked registry (receive onward s world m) [.inbound] := by
  rw [receive_refused onward world hgate]
  exact ⟨rfl, fun _ => rfl⟩

/-- A message that is not collected is one that came in. -/
theorem booked_receive_dispatch (registry : Registry σ) (s : Session) (world : σ) (m : Message) :
    Booked registry (receive (dispatch registry) s world m) [.inbound] := by
  cases hgate : s.gate m with
  | some fault => exact booked_receive_refused registry _ world hgate
  | none =>
    by_cases hcloses : s.connected = true ∧ m.body.kind = .closeSession
    · rw [receive_closing _ world hgate hcloses.1 hcloses.2]
      exact ⟨rfl, fun _ => (reportedCodes_acknowledge s m).symm⟩
    · rw [receive_passing _ world hgate hcloses]
      exact (booked_dispatch registry _ world m).onward s m

/-! ## Exchanges -/

/-- The reports for absent replies are held back, one for each fault, and the other replies are kept. -/
theorem deferAbsent_booked (id : Int64) (replies : List (Option Message)) (s : Session) :
    marks (deferAbsent id replies s).2.1 = [] ∧
      reportedCodes (deferAbsent id replies s).1 = reportedCodes replies ∧
      ∃ reports : List Message,
        (deferAbsent id replies s).2.2.deferred = s.deferred ++ reports.map (id, ·) ∧
        faultCodes (deferAbsent id replies s).2.1 = reportedCodes (reports.map some) := by
  induction replies generalizing s with
  | nil => exact ⟨rfl, rfl, [], (List.append_nil _).symm, rfl⟩
  | cons reply replies ih =>
    cases reply with
    | some reply =>
      obtain ⟨hmarks, hkept, hreports⟩ := ih s
      refine ⟨hmarks, ?_, hreports⟩
      simp only [deferAbsent, reportedCodes, List.filterMap_cons] at hkept ⊢
      rw [hkept]
    | none =>
      let reported := s.report .invalidMessage 0
      obtain ⟨hmarks, hkept, reports, hdeferred, hcodes⟩ := ih (reported.2.defer id reported.1)
      refine ⟨hmarks, hkept, reported.1 :: reports, ?_, congrArg (List.cons _) hcodes⟩
      simp only [deferAbsent]
      rw [hdeferred]
      simp only [defer, List.append_assoc, List.map_cons, List.singleton_append]
      rfl

/-- An exchange that is completed makes a message that comes in once more, unless it has no referencer. -/
theorem booked_complete (registry : Registry σ) {s : Session} (world : σ) (id : Int64)
    (hs : s.deferred = []) :
    Booked registry (complete registry s world id)
      (if (Message.reassemble (s.assemblies.parts id)).isSome then [.reassembled, .inbound] else []) := by
  cases hparts : Message.reassemble (s.assemblies.parts id) with
  | none =>
    simp only [complete, hparts]
    exact ⟨rfl, fun _ => rfl⟩
  | some m =>
    simp only [complete, hparts]
    have hturn : Booked registry _ _ :=
      booked_receive_dispatch registry { s with assemblies := s.assemblies.erase id } world (whole m)
    obtain ⟨replies, hreplies⟩ :=
      receive_answered registry { s with assemblies := s.assemblies.erase id } world (whole m)
    have hdeferred := deferred_receive_dispatch registry
      (s := { s with assemblies := s.assemblies.erase id }) world (whole m) hs
    generalize receive (dispatch registry) { s with assemblies := s.assemblies.erase id } world (whole m) =
      turn at *
    obtain ⟨hmarks, hkept, reports, hheld, hcodes⟩ := deferAbsent_booked id replies turn.session
    rw [hdeferred, List.nil_append] at hheld
    have hown := deferredFor_eq hheld
    simp only [hreplies]
    constructor
    · simp [hturn.marks_eq, hmarks]
    · intro hreports
      have hfaults := hturn.faultCodes_eq hreports
      rw [hreplies] at hfaults
      simp only [List.cons_append, faultCodes_reassembled, faultCodes_append, hfaults, hcodes, hown,
        Except.toOption, Option.getD_some, reportedCodes_append, hkept]

/-- The final part of an exchange that the session completes: among its parts there is a referencer. -/
structure MakesWhole (s : Session) (p : Message) : Prop where
  takes : s.Takes p
  isFinal : p.isFinal = true
  referencer : ∃ q ∈ s.assemblies.parts p.exchangeId ++ [p], q.isReferencer = true

instance (s : Session) (p : Message) : Decidable (s.MakesWhole p) :=
  decidable_of_iff (s.Takes p ∧ p.isFinal = true ∧
      ∃ q ∈ s.assemblies.parts p.exchangeId ++ [p], q.isReferencer = true)
    ⟨fun ⟨htakes, hfinal, hreferencer⟩ => ⟨htakes, hfinal, hreferencer⟩,
      fun h => ⟨h.takes, h.isFinal, h.referencer⟩⟩

theorem isSome_reassemble (parts : List Message) :
    (Message.reassemble parts).isSome = true ↔ ∃ q ∈ parts, q.isReferencer = true := by
  rw [Option.isSome_iff_ne_none, ne_eq, Message.reassemble_eq_none_iff]
  simp

/-- The marks of an input: it comes in, and what it makes whole comes in after it. -/
def marksOf (s : Session) : Option Message → List Event
  | none => []
  | some p => .inbound :: if s.MakesWhole p then [.reassembled, .inbound] else []

theorem booked_taking (registry : Registry σ) (now : Nat) {s : Session} (world : σ) {p : Message}
    (htakes : s.Takes p) (hs : s.deferred = []) :
    Booked registry (receive (route registry now) s world p) (s.marksOf (some p)) := by
  rw [receive_collecting registry now world htakes.admits htakes.collected
    (admitted_of_room htakes.admitted)]
  obtain ⟨fresh, hacknowledged⟩ := s.acknowledge_advances p
  refine Booked.onward ?_ s p
  rw [hacknowledged]
  by_cases hfinal : p.isFinal = true
  · rw [if_pos hfinal]
    have hcomplete := booked_complete registry
      (s := { s with fresh := fresh, assemblies := s.assemblies.push p.exchangeId p now }) world
      p.exchangeId hs
    have hwhole : s.MakesWhole p ↔
        (Message.reassemble (s.assemblies.parts p.exchangeId ++ [p])).isSome = true := by
      rw [isSome_reassemble]
      exact ⟨fun h => h.referencer, fun h => ⟨htakes, hfinal, h⟩⟩
    simp only [Assemblies.parts_push, ← hwhole] at hcomplete
    exact hcomplete
  · rw [if_neg hfinal, if_neg (fun h => hfinal h.isFinal)]
    exact ⟨rfl, fun _ => rfl⟩

theorem booked_not_taking (registry : Registry σ) (now : Nat) {s : Session} (world : σ) {p : Message}
    (h : ¬ s.Takes p) :
    Booked registry (receive (route registry now) s world p) (s.marksOf (some p)) := by
  rw [marksOf, if_neg (fun hwhole => h hwhole.takes)]
  rcases not_takes_cases h with ⟨fault, hgate⟩ | ⟨hgate, hcollected, hnew, hfull⟩ | hcollected
  · exact booked_receive_refused registry _ world hgate
  · obtain ⟨fresh, hacknowledged⟩ := s.acknowledge_advances p
    rw [receive_of_admits _ world (admits_of_gate hgate (not_core_of_isCollected hcollected))]
    refine Booked.onward ?_ s p
    rw [hacknowledged, route_full registry now (s := { s with fresh := fresh }) world hcollected hnew
      hfull]
    exact booked_reportOnly registry _ world .limitExceeded p.exchangeId
  · rw [receive_not_collected registry now s world hcollected]
    exact booked_receive_dispatch registry s world p

theorem booked_process (registry : Registry σ) (now : Nat) {s : Session} (world : σ)
    (input : Option Message) (hs : s.deferred = []) :
    Booked registry (process registry now s world input) (s.marksOf input) := by
  match input with
  | none => exact booked_reportOnly registry s world .invalidMessage 0
  | some p =>
    by_cases htakes : s.Takes p
    · exact booked_taking registry now world htakes hs
    · exact booked_not_taking registry now world htakes

theorem marks_handleMessage (registry : Registry σ) (now : Nat) {s : Session} (world : σ)
    (input : Option Message) (hs : s.deferred = []) :
    marks (handleMessage registry now s world input).events = s.marksOf input :=
  (booked_process registry now world input hs).marks_eq

/-- The replies to an input report exactly the faults that are counted. -/
theorem faultCodes_handleMessage {registry : Registry σ} (hreports : registry.NeverReports) (now : Nat)
    {s : Session} (world : σ) (input : Option Message) (hs : s.deferred = []) :
    let turn := handleMessage registry now s world input
    faultCodes turn.events = (turn.result.toOption.getD []).filterMap Message.reportedCode? := by
  refine ((booked_process registry now world input hs).faultCodes_eq hreports).trans ?_
  simp only [handleMessage]
  cases (process registry now s world input).result with
  | error e => rfl
  | ok replies =>
    simp only [Except.map, Except.toOption, Option.getD_some, List.filterMap_filterMap]
    rfl

/-! ## Calls and their traffic -/

/-- What is done with a session from outside. -/
inductive Call where
  /-- An input is handled. -/
  | handle (input : Option Message)
  /-- A frame is read and handled, and the replies are encoded. -/
  | receive (frame : Bytes)
  /-- A message is encoded. -/
  | encode (m : Message)
  /-- A request is encoded, and a report behind it. -/
  | prepare (request report : Option Message)
  /-- Exchanges that are too old are dropped. -/
  | sweep
  /-- What is known about the peer is changed. -/
  | inform (peer : Peer)

/-- What goes in and out with a call. -/
structure Traffic where
  /-- The messages that came in. -/
  inputs : List Message := []
  /-- Those of them that completed an exchange with a referencer. -/
  completions : List Message := []
  /-- The replies that were returned, or were encoded. -/
  replies : List Message := []
  /-- The frames that were returned. -/
  frames : List Bytes := []
  /-- The number of exchanges that were dropped. -/
  dropped : Nat := 0

/-- The traffic of an input, which the session answers with a result. -/
def traffic (s : Session) (input : Option Message) (result : Except ConnectionError (List Message)) :
    Traffic where
  inputs := input.toList
  completions := input.toList.filter (s.MakesWhole ·)
  replies := result.toOption.getD []

/-- Carries out a call.  A call that fails returns nothing. -/
def act (registry : Registry σ) (now : Nat) (s : Session) (world : σ) : Call → Turn σ Traffic
  | .handle input =>
    let turn := handleMessage registry now s world input
    { turn with result := s.traffic input turn.result }
  | .receive frame =>
    let turn := handleFrame registry now s world frame
    let answered := handleMessage registry now s world (incoming frame)
    { turn with
      result := { s.traffic (incoming frame) answered.result with
        frames := turn.result.toOption.getD [] } }
  | .encode m =>
    let (frames, events, t) := s.encode m
    ⟨t, world, events, { frames := frames }⟩
  | .prepare request report =>
    let (frames, events, t) := s.prepare request report
    ⟨t, world, events, { frames := frames.map (·.2) }⟩
  | .sweep =>
    let (dropped, events, t) := s.sweep now
    ⟨t, world, events, { dropped := dropped }⟩
  | .inform peer => ⟨{ s with peer := peer }, world, [], {}⟩

/-- What events count agrees with the traffic of the calls in which they happened. -/
structure Agrees (registry : Registry σ) (events : List Event) (seen : List Traffic) : Prop where
  /-- Every frame that is returned is counted. -/
  outbound : Counter.outbound.total events = (seen.flatMap Traffic.frames).length
  /-- Every message that comes in is counted, and every message that is made whole. -/
  inbound : Counter.inbound.total events =
    (seen.flatMap Traffic.inputs).length + Counter.reassembled.total events
  reassembled : Counter.reassembled.total events = (seen.flatMap Traffic.completions).length
  expired : Counter.expired.total events = (seen.map Traffic.dropped).sum
  /-- Every report that is returned is counted under its code, and nothing else. -/
  faultReplies : registry.NeverReports → ∀ code, (Counter.faultReplies code).total events =
    (seen.flatMap Traffic.replies).countP (fun reply => reply.reportedCode? == some code)

namespace Agrees

variable {registry : Registry σ} {events later : List Event} {seen others : List Traffic}

theorem nil (registry : Registry σ) : Agrees registry [] [] :=
  ⟨rfl, rfl, rfl, rfl, fun _ _ => rfl⟩

theorem append (h : Agrees registry events seen) (h' : Agrees registry later others) :
    Agrees registry (events ++ later) (seen ++ others) where
  outbound := by simp [h.outbound, h'.outbound]
  inbound := by
    simp only [Counter.total_append, List.flatMap_append, List.length_append, h.inbound, h'.inbound]
    omega
  reassembled := by simp [h.reassembled, h'.reassembled]
  expired := by simp [h.expired, h'.expired]
  faultReplies hreports code := by
    simp [h.faultReplies hreports code, h'.faultReplies hreports code]

/-- Frames that are returned for a call add nothing but themselves. -/
theorem framed {t : Traffic} (h : Agrees registry events [{ t with frames := [] }]) {frames : List Bytes}
    (h' : Agrees registry later [{ frames := frames }]) :
    Agrees registry (events ++ later) [{ t with frames := frames }] := by
  have hboth := h.append h'
  constructor
  · simpa using hboth.outbound
  · simpa using hboth.inbound
  · simpa using hboth.reassembled
  · simpa using hboth.expired
  · intro hreports code
    simpa using hboth.faultReplies hreports code

end Agrees

/-! ## One call -/

theorem agrees_silent (registry : Registry σ) : Agrees registry [] [{}] :=
  ⟨rfl, rfl, rfl, rfl, fun _ _ => rfl⟩

/-- What the marks of an input add to the counters. -/
theorem total_marksOf (s : Session) (input : Option Message) :
    Counter.inbound.total (s.marksOf input) =
        input.toList.length + (input.toList.filter (s.MakesWhole ·)).length ∧
      Counter.reassembled.total (s.marksOf input) = (input.toList.filter (s.MakesWhole ·)).length ∧
      Counter.outbound.total (s.marksOf input) = 0 ∧ Counter.expired.total (s.marksOf input) = 0 := by
  cases input with
  | none => exact ⟨rfl, rfl, rfl, rfl⟩
  | some p =>
    by_cases hwhole : s.MakesWhole p
    · rw [marksOf, if_pos hwhole, Option.toList_some, List.filter_cons_of_pos (by simpa using hwhole)]
      exact ⟨rfl, rfl, rfl, rfl⟩
    · rw [marksOf, if_neg hwhole, Option.toList_some, List.filter_cons_of_neg (by simpa using hwhole)]
      exact ⟨rfl, rfl, rfl, rfl⟩

theorem agrees_handleMessage (registry : Registry σ) (now : Nat) {s : Session} (world : σ)
    (input : Option Message) (hs : s.deferred = []) :
    let turn := handleMessage registry now s world input
    Agrees registry turn.events [s.traffic input turn.result] := by
  intro turn
  have hmarks := marks_handleMessage registry now world input hs
  -- Each counter but those of reports is read off the marks.
  have htotal : ∀ c, (∀ code, Event.adds c (.faultReply code) = 0) →
      c.total turn.events = c.total (s.marksOf input) := by
    intro c hc
    rw [← hmarks]
    exact (total_marks hc _).symm
  have hinbound := htotal .inbound (fun _ => rfl)
  have hreassembled := htotal .reassembled (fun _ => rfl)
  obtain ⟨hin, hwhole, hout, hdropped⟩ := s.total_marksOf input
  rw [hin] at hinbound
  rw [hwhole] at hreassembled
  constructor
  · exact (htotal .outbound (fun _ => rfl)).trans hout
  · rw [hinbound, hreassembled, List.flatMap_singleton]
    rfl
  · rw [hreassembled, List.flatMap_singleton]
    rfl
  · exact (htotal .expired (fun _ => rfl)).trans hdropped
  · intro hreports code
    rw [total_faultReplies, faultCodes_handleMessage hreports now world input hs, List.count_filterMap,
      List.flatMap_singleton]
    rfl

theorem agrees_sent (registry : Registry σ) (frames : List Bytes) :
    Agrees registry (List.replicate frames.length .outbound) [{ frames := frames }] := by
  have hnone : ∀ c, Event.adds c .outbound = 0 →
      c.total (List.replicate frames.length .outbound) = 0 := by
    intro c hc
    rw [Counter.total_replicate, hc, Nat.mul_zero]
  have hreassembled := hnone .reassembled rfl
  constructor
  · rw [Counter.total_replicate, List.flatMap_singleton]
    exact Nat.mul_one _
  · rw [hnone .inbound rfl, hreassembled]
    rfl
  · exact hreassembled
  · exact hnone .expired rfl
  · exact fun _ code => hnone (.faultReplies code) rfl

/-- For every frame there is an event. -/
theorem events_encodeAll (ms : List Message) (s : Session) :
    (encodeAll ms s).2.1 = List.replicate (encodeAll ms s).1.length .outbound := by
  induction ms generalizing s with
  | nil => rfl
  | cons m ms ih =>
    simp only [encodeAll, encode, ih, List.length_append, List.replicate_add, List.map_const']

theorem agrees_encodeAll (registry : Registry σ) (ms : List Message) (s : Session) :
    Agrees registry (encodeAll ms s).2.1 [{ frames := (encodeAll ms s).1 }] := by
  rw [events_encodeAll]
  exact agrees_sent registry _

theorem agrees_handleFrame (registry : Registry σ) (now : Nat) {s : Session} (world : σ) (frame : Bytes)
    (hs : s.deferred = []) :
    let turn := handleFrame registry now s world frame
    let answered := handleMessage registry now s world (incoming frame)
    Agrees registry turn.events
      [{ s.traffic (incoming frame) answered.result with frames := turn.result.toOption.getD [] }] := by
  have hanswered := agrees_handleMessage registry now world (incoming frame) hs
  rw [handleFrame_eq]
  generalize handleMessage registry now s world (incoming frame) = answered at *
  simp only [Turn.encoded]
  cases hresult : answered.result with
  | error e =>
    simp only [hresult] at hanswered
    exact hanswered
  | ok replies =>
    simp only [hresult] at hanswered
    exact hanswered.framed (agrees_encodeAll registry replies answered.session)

theorem agrees_sweep (registry : Registry σ) (s : Session) (now : Nat) :
    Agrees registry (s.sweep now).2.1 [{ dropped := (s.sweep now).1 }] := by
  unfold sweep
  split
  · exact agrees_silent registry
  · refine ⟨rfl, rfl, rfl, ?_, fun _ _ => rfl⟩
    simp [Event.adds, Event.counted]

/-- What one call counts agrees with its traffic. -/
theorem agrees_act (registry : Registry σ) (now : Nat) {s : Session} (world : σ) (call : Call)
    (hs : s.deferred = []) :
    Agrees registry (act registry now s world call).events [(act registry now s world call).result] := by
  cases call with
  | handle input => exact agrees_handleMessage registry now world input hs
  | receive frame => exact agrees_handleFrame registry now world frame hs
  | encode m =>
    have hsent := agrees_encodeAll registry [m] s
    simpa [act, encodeAll] using hsent
  | prepare request report =>
    have hsent := agrees_encodeAll registry
      ((request.map (fun m => (m.withId s.drawId.1).addFlags .final)).toList ++ report.toList) s.drawId.2
    simpa [act, prepare, Function.comp_def] using hsent
  | sweep => exact agrees_sweep registry s now
  | inform peer => exact agrees_silent registry

theorem Reachable.acted {s : Session} (hs : s.Reachable) (registry : Registry σ) (now : Nat) (world : σ)
    (call : Call) : (act registry now s world call).session.Reachable := by
  cases call with
  | handle input => exact hs.handled registry now world input
  | receive frame => exact hs.answered registry now world frame
  | encode m => exact hs.encoded [m]
  | prepare request report => exact hs.drawn.encoded _
  | sweep => exact hs.swept now
  | inform peer => exact hs.informed peer

/-! ## Runs -/

/-- Whatever is done with a session, its counters agree with what came in and with what was returned. -/
theorem counters_agree (registry : Registry σ) (calls : List (Nat × Call)) {s : Session} (world : σ)
    (hs : s.Reachable) :
    let run := feed (act registry) calls s world
    Agrees registry run.events run.result := by
  induction calls generalizing s world with
  | nil => exact .nil registry
  | cons call calls ih =>
    obtain ⟨now, call⟩ := call
    have hfirst := agrees_act registry now world call hs.deferred_eq
    have hrest := ih (act registry now s world call).world (hs.acted registry now world call)
    exact hfirst.append hrest

/-- A server that drops exchanges after a minute. -/
def busyStart : Session :=
  Session.start
    (Settings.default.withCapability Capability.multipartMessageTimeoutPeriod.name (.long 60)) 1
    Message.countingFresh.blobs

/-- The session is opened, a frame cannot be read, one exchange is completed and one is not, and a request
is sent. -/
def busyCalls : List (Nat × Call) :=
  let parts := keyedParts 4 "a" (Message.countingFresh.blobs.nth 1) [1, 2] true
  let opening := Message.request ⟨.requestSession, Shape.default _⟩
  [(0, .receive opening.encode), (5, .receive [255]), (10, .handle (some parts.1)),
    (20, .handle (some parts.2)),
    (30, .handle (some (keyedParts 6 "b" (Message.countingFresh.blobs.nth 2) [3] true).1)),
    (40, .prepare (some opening) none), (60031, .sweep)]

theorem countingRegistry_neverReports : countingRegistry.NeverReports := by
  intro p handler hhandler body header peer world response hanswer reply hreply
  obtain rfl : countingHandler = handler := by
    simp only [countingRegistry] at hhandler
    split at hhandler
    · exact Option.some.inj hhandler
    · cases hhandler
  cases hanswer
  cases List.mem_singleton.1 hreply
  exact Kind.noConfusion

/-- Four messages come in and one is made of them; the request and two reports go out.  One of these says
that a frame could not be read. -/
theorem counters_agree_busyCalls :
    let run := feed (act countingRegistry) busyCalls busyStart 0
    busyStart.Reachable ∧ countingRegistry.NeverReports ∧ Agrees countingRegistry run.events run.result ∧
      Counter.inbound.total run.events = 5 ∧ Counter.outbound.total run.events = 3 ∧
      Counter.reassembled.total run.events = 1 ∧ Counter.expired.total run.events = 1 ∧
      (Counter.faultReplies Fault.invalidMessage.code).total run.events = 1 := by
  intro run
  have hs : busyStart.Reachable := .start _ _ _
  have hagrees := counters_agree countingRegistry busyCalls 0 hs
  have hreassembled : Counter.reassembled.total run.events = 1 :=
    hagrees.reassembled.trans (by decide +kernel)
  refine ⟨hs, countingRegistry_neverReports, hagrees, ?_, ?_, hreassembled, ?_, ?_⟩
  · exact hagrees.inbound.trans (by rw [hreassembled]; decide +kernel)
  · exact hagrees.outbound.trans (by decide +kernel)
  · exact hagrees.expired.trans (by decide +kernel)
  · exact (hagrees.faultReplies countingRegistry_neverReports _).trans (by decide +kernel)

end Session

end Etp
