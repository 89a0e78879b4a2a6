import Etp.Proofs.Session.Rejection

/-!
# Answers to ordinary messages

A message that passes the gates, does not close the session and is no part to be collected is acknowledged
if it asks for it, and then given to a handler.  What is sent is described without the session: `answers`
says what comes of the result of a handler, and `numbered` gives each message the next identifier.
`Issues` relates the two to what a session does; it holds of each step on the way of the message and of
several steps after each other (`answered_in_order`).
-/

namespace Etp.Session

variable {σ : Type}

/-! ## What is to be sent -/

/-- The messages with the identifiers that follow one another from `next` on. -/
def numbered (next : Int) (ms : List Message) : List Message :=
  ms.mapIdx (fun i m => m.withId (Int64.ofInt (next + IdCounter.step * i)))

/-- An acknowledgement of the message with an identifier; it is not marked as final. -/
def acknowledgement (messageId : Int64) : Message where
  header :=
    { protocol := Protocol.core.id
      number := Kind.acknowledge.number
      correlationId := messageId
      messageId := 0
      flags := .none }
  body := ⟨.acknowledge, ()⟩

/-- The acknowledgement of a message that asks for one and is none itself. -/
def acknowledgements (m : Message) : List Message :=
  if m.wantsAcknowledge = true ∧ m.body.kind ≠ .acknowledge then [acknowledgement m.header.messageId]
  else []

/-- A reply to the message with an identifier, unless it names another one itself, that is marked as
final. -/
def addressed (messageId : Int64) (reply : Message) : Message :=
  { reply with
    header :=
      { reply.header with
        correlationId :=
          if reply.header.correlationId = 0 then messageId else reply.header.correlationId
        flags := reply.header.flags.union .final } }

/-- The replies that a handler yields before the first fault. -/
def repliesBefore (items : List Item) : List Message :=
  (items.takeWhile Except.isOk).filterMap (fun item => item.toOption.join)

/-- The first fault that a handler yields. -/
def firstFault (items : List Item) : Option Fault :=
  items.findSome? (fun
    | .error fault => some fault
    | .ok _ => none)

/-- What is sent for the items that a handler yields. -/
def answersTo (messageId : Int64) (items : List Item) : List Message :=
  (repliesBefore items).map (addressed messageId) ++
    (firstFault items).toList.map (fun fault => finalReport fault 0 messageId)

/-- What is sent for the result of a handler. -/
def answers (messageId : Int64) : Except Fault Response → List Message
  | .error fault => [finalReport fault 0 messageId]
  | .ok response => answersTo messageId response.items

theorem numbered_singleton (next : Int) (m : Message) :
    numbered next [m] = [m.withId (Int64.ofInt next)] := by
  simp [numbered]

/-- Messages that follow others are numbered from the identifier after theirs. -/
theorem numbered_append (next : Int) (ms later : List Message) :
    numbered next (ms ++ later) =
      numbered next ms ++ numbered (next + IdCounter.step * ms.length) later := by
  have hshift (i : Nat) : next + IdCounter.step * ((i + ms.length : Nat) : Int) =
      next + IdCounter.step * ms.length + IdCounter.step * i := by
    rw [Int.natCast_add, Int.mul_add, Int.add_comm (IdCounter.step * (i : Int)), Int.add_assoc]
  simp only [numbered, List.mapIdx_append, hshift]

theorem answersTo_reply (messageId : Int64) (reply : Message) (items : List Item) :
    answersTo messageId (.ok (some reply) :: items) =
      addressed messageId reply :: answersTo messageId items := rfl

theorem answersTo_absent (messageId : Int64) (items : List Item) :
    answersTo messageId (.ok none :: items) = answersTo messageId items := rfl

theorem answersTo_fault (messageId : Int64) (fault : Fault) (items : List Item) :
    answersTo messageId (.error fault :: items) = [finalReport fault 0 messageId] := rfl

/-! ## What a session sends -/

/-- The session after it has drawn so many identifiers. -/
def advancedBy (s : Session) (count : Nat) : Session :=
  { s with fresh := { s.fresh with ids := ⟨s.fresh.ids.next + IdCounter.step * count⟩ } }

theorem advancedBy_zero (s : Session) : s.advancedBy 0 = s := by
  simp [advancedBy]

theorem advancedBy_one (s : Session) : s.advancedBy 1 = s.advanced := by
  simp [advancedBy, advanced]

theorem advancedBy_advancedBy (s : Session) (count later : Nat) :
    (s.advancedBy count).advancedBy later = s.advancedBy (count + later) := by
  simp [advancedBy, Int.mul_add, Int.add_assoc]

theorem openBy_advancedBy (s : Session) (count : Nat) (body : Body) :
    (s.advancedBy count).openBy body = (s.openBy body).advancedBy count := by
  have hoffers : (s.advancedBy count).offers body = s.offers body := rfl
  unfold openBy
  rw [hoffers]
  split
  · rfl
  · rfl

/-- From `s` to `t` the messages `ms` are given identifiers, one after the other, and are the replies that are
sent. -/
def Issues (s : Session) (ms : List Message) (replies : List (Option Message)) (t : Session) : Prop :=
  replies.filterMap (fun reply => reply) = numbered s.fresh.ids.next ms ∧ t = s.advancedBy ms.length

namespace Issues

variable {s t u : Session} {ms ms' : List Message} {replies replies' : List (Option Message)}

theorem silent (s : Session) : s.Issues [] [] s := ⟨rfl, s.advancedBy_zero.symm⟩

theorem absent (h : s.Issues ms replies t) : s.Issues ms (none :: replies) t := h

theorem single (s : Session) (m : Message) : s.Issues [m] [some (m.withId s.nextId)] s.advanced := by
  constructor
  · rw [numbered_singleton]
    rfl
  · exact s.advancedBy_one.symm

theorem append (h : s.Issues ms replies t) (h' : t.Issues ms' replies' u) :
    s.Issues (ms ++ ms') (replies ++ replies') u := by
  obtain ⟨hreplies, rfl⟩ := h
  obtain ⟨hreplies', rfl⟩ := h'
  constructor
  · rw [List.filterMap_append, hreplies, hreplies', numbered_append]
    rfl
  · rw [advancedBy_advancedBy, List.length_append]

/-- Messages get the same identifiers in any session that draws them from the same counter. -/
theorem of_fresh_eq (h : s.Issues ms replies t) (hfresh : u.fresh = s.fresh) :
    u.Issues ms replies (u.advancedBy ms.length) := by
  refine ⟨?_, rfl⟩
  rw [hfresh]
  exact h.1

end Issues

theorem report_issues (s : Session) (fault : Fault) (correlationId : Int64) :
    s.Issues [finalReport fault 0 correlationId] [some (s.report fault correlationId).1]
      (s.report fault correlationId).2 := by
  rw [report_eq]
  exact .single s (finalReport fault 0 correlationId)

theorem acknowledge_issues (s : Session) (m : Message) :
    s.Issues (acknowledgements m) (s.acknowledge m).1 (s.acknowledge m).2 := by
  unfold acknowledge acknowledgements
  by_cases hwants : m.wantsAcknowledge = true ∧ m.body.kind ≠ .acknowledge
  · rw [if_pos hwants, if_pos (by simpa using hwants)]
    exact .single s (acknowledgement m.header.messageId)
  · rw [if_neg hwants, if_neg (by simpa using hwants)]
    exact .silent s

theorem finish_eq (request : Header) (reply : Message) (id : Int64) :
    finish request reply id = (addressed request.messageId reply).withId id := by
  unfold finish addressed
  by_cases hcorrelated : reply.header.correlationId = 0
  · simp only [Message.withId, hcorrelated, if_true]
    rfl
  · simp only [Message.withId, hcorrelated, if_false]
    rfl

/-- What a handler yields is sent item by item, up to the first fault. -/
theorem answer_issues (request : Header) (items : List Item) (s : Session) :
    s.Issues (answersTo request.messageId items) (answer request items s).1
      (answer request items s).2.2 := by
  -- By the recursion of `answer`, which a fault ends; every reply draws, so the session varies.
  induction items generalizing s with
  | nil => exact .silent s
  | cons item items ih =>
    match item with
    | .ok (some reply) =>
      have hfirst := Issues.single s (addressed request.messageId reply)
      rw [← finish_eq] at hfirst
      rw [answersTo_reply]
      exact hfirst.append (ih s.advanced)
    | .ok none =>
      rw [answersTo_absent]
      exact (ih s).absent
    | .error fault =>
      rw [answersTo_fault]
      exact s.report_issues fault request.messageId

/-! ## The way of a message -/

/-- The message is neither turned away nor closes the session, and is no part to be collected. -/
structure Ordinary (s : Session) (m : Message) : Prop where
  passes : ∀ fault, ¬ s.Rejects (some m) fault
  stays : ¬ (s.connected = true ∧ m.body.kind = .closeSession)
  entire : ¬ (m.isMultipart = true ∧ (m.isChunk = true ∨ m.isReferencer = true))

namespace Ordinary

variable {s : Session} {m : Message}

theorem gate_eq (h : s.Ordinary m) : s.gate m = none := by
  apply Option.eq_none_iff_forall_ne_some.2
  intro fault hgate
  exact h.passes fault (rejects_iff.2 hgate)

theorem isCollected_eq (h : s.Ordinary m) : isCollected m = false := by
  apply Bool.eq_false_iff.2
  intro hcollected
  rw [isCollected, Bool.and_eq_true, Bool.or_eq_true] at hcollected
  exact h.entire hcollected

/-- In an open session only the body and the flags matter. -/
theorem of_open (hopen : s.Open) (hclose : m.body.kind ≠ .closeSession)
    (hmultipart : m.isMultipart = false) : s.Ordinary m where
  passes := by
    intro fault hrejects
    rw [rejects_iff, hopen.gate_eq] at hrejects
    cases hrejects
  stays := fun h => hclose h.2
  entire := by
    rw [hmultipart]
    exact fun h => Bool.false_ne_true h.1

end Ordinary

theorem dispatch_unregistered_issues {registry : Registry σ} (s : Session) (world : σ) {m : Message}
    (hhandler : registry.find? m.header.protocol = none) :
    ∃ replies, (dispatch registry s world m).result = .ok replies ∧
      s.Issues [finalReport (.unsupportedProtocol m.header.protocol) 0 m.header.messageId] replies
        (dispatch registry s world m).session ∧
      (dispatch registry s world m).world = world := by
  simp only [dispatch, hhandler]
  exact ⟨_, rfl, s.report_issues _ _, rfl⟩

theorem dispatch_handled_issues {registry : Registry σ} {handler : Handler σ} (s : Session) (world : σ)
    {m : Message} (hhandler : registry.find? m.header.protocol = some handler) :
    let handled := handler m.body m.header s.peer world
    ∃ replies, (dispatch registry s world m).result = .ok replies ∧
      { s with peer := handled.peer }.Issues (answers m.header.messageId handled.answer) replies
        (dispatch registry s world m).session ∧
      (dispatch registry s world m).world = handled.world := by
  intro handled
  let informed := { s with peer := handled.peer }
  simp only [dispatch, hhandler]
  split
  case h_1 fault hanswer =>
    have hfault : handled.answer = .error fault := hanswer
    rw [hfault]
    exact ⟨_, rfl, report_issues informed fault m.header.messageId, rfl⟩
  case h_2 response hanswer =>
    have hresponse : handled.answer = .ok response := hanswer
    rw [hresponse]
    exact ⟨_, rfl, answer_issues m.header response.items informed, rfl⟩

/-- An ordinary message is acknowledged before it is dispatched. -/
theorem handleMessage_issues {registry : Registry σ} (now : Nat) {s : Session} {world : σ}
    {m : Message} (h : s.Ordinary m) {peer : Peer} {ms : List Message}
    {replies : List (Option Message)} {dispatched : Turn σ Replies}
    (hdispatch : dispatch registry ((s.openBy m.body).advancedBy (acknowledgements m).length) world m =
      dispatched)
    (hresult : dispatched.result = .ok replies)
    (hissues : { (s.openBy m.body).advancedBy (acknowledgements m).length with peer := peer }.Issues ms
      replies dispatched.session) :
    let turn := handleMessage registry now s world (some m)
    let sent := acknowledgements m ++ ms
    turn.result = .ok (numbered s.fresh.ids.next sent) ∧
      turn.session = { s.openBy m.body with peer := peer }.advancedBy sent.length ∧
      turn.world = dispatched.world ∧ calls turn.events = calls dispatched.events := by
  intro turn sent
  obtain ⟨-, hsession⟩ := s.acknowledge_issues m
  have hturn : turn = Turn.present
      ⟨dispatched.session, dispatched.world, .inbound :: dispatched.events,
        .ok ((s.acknowledge m).1 ++ replies)⟩ := by
    simp only [turn, handleMessage_eq, receive_not_collected registry now s world h.isCollected_eq,
      receive_passing _ world h.gate_eq h.stays, hsession, openBy_advancedBy, hdispatch, hresult]
    rfl
  -- The acknowledgement is given before the session is opened and the handler called; neither draws.
  have hfresh : ({ s.openBy m.body with peer := peer } : Session).fresh = s.fresh := fresh_openBy s m.body
  obtain ⟨hsent, hend⟩ := ((s.acknowledge_issues m).of_fresh_eq hfresh).append hissues
  rw [hfresh] at hsent
  rw [hturn]
  exact ⟨congrArg Except.ok hsent, hend, rfl, rfl⟩

/-- The replies to an ordinary message, in their order, have the next identifiers: an acknowledgement if it is
wanted, and then the report that there is no handler, or what comes of the result of the handler.  The
handler is called once; the session draws the identifiers of the replies and keeps what the handler has
written. -/
theorem answered_in_order (registry : Registry σ) (now : Nat) {s : Session} (world : σ) {m : Message}
    (h : s.Ordinary m) :
    let turn := handleMessage registry now s world (some m)
    let opened := s.openBy m.body
    let next := s.fresh.ids.next
    (registry.find? m.header.protocol = none →
      let fault := Fault.unsupportedProtocol m.header.protocol
      let sent := acknowledgements m ++ [finalReport fault 0 m.header.messageId]
      turn.result = .ok (numbered next sent) ∧ turn.session = opened.advancedBy sent.length ∧
        turn.world = world ∧ calls turn.events = []) ∧
    ∀ handler, registry.find? m.header.protocol = some handler →
      let handled := handler m.body m.header opened.peer world
      let sent := acknowledgements m ++ answers m.header.messageId handled.answer
      turn.result = .ok (numbered next sent) ∧
        turn.session = { opened with peer := handled.peer }.advancedBy sent.length ∧
        turn.world = handled.world ∧ calls turn.events = [(m.header, m.body)] := by
  intro turn opened next
  let acknowledged := opened.advancedBy (acknowledgements m).length
  constructor
  · intro hhandler fault sent
    obtain ⟨replies, hresult, hissues, hworld⟩ :=
      dispatch_unregistered_issues acknowledged world hhandler
    have hcalls := (dispatch_unregistered acknowledged world hhandler).calls_eq
    have hturn := handleMessage_issues now h rfl hresult hissues
    rw [hworld, hcalls] at hturn
    exact hturn
  · intro handler hhandler handled sent
    obtain ⟨replies, hresult, hissues, hworld⟩ := dispatch_handled_issues acknowledged world hhandler
    have hcalls := (dispatch_handled acknowledged world hhandler).calls_eq
    have hturn := handleMessage_issues now h rfl hresult hissues
    rw [hworld, hcalls] at hturn
    exact hturn

/-- A request to store nothing, which asks for an acknowledgement. -/
def storingAcknowledged : Message := (Message.request (Message.storing [])).addFlags .acknowledge

/-- A handler yields a reply, none and a fault: after the acknowledgement the reply and the report of the
fault are sent.  A message for which there is no handler is answered by a report alone. -/
theorem answered_in_order_failing :
    openedSession.Ordinary storingAcknowledged ∧
    (let turn := handleMessage failingRegistry 0 openedSession 0 (some storingAcknowledged)
    turn.result = .ok (numbered 3 [acknowledgement 4,
        addressed 4 (Message.ofBody ⟨.putDataObjectsResponse, KeyMap.empty, ()⟩),
        finalReport .notSupported 0 4]) ∧
      calls turn.events = [(storingAcknowledged.header, storingAcknowledged.body)]) ∧
    openedSession.Ordinary (Message.request ⟨.ping, Shape.default _⟩) ∧
    (let turn := handleMessage failingRegistry 0 openedSession 0
      (some (Message.request ⟨.ping, Shape.default _⟩))
    turn.result = .ok (numbered 3 [finalReport (.unsupportedProtocol 0) 0 4]) ∧
      calls turn.events = []) := by
  have hstoring : openedSession.Ordinary storingAcknowledged :=
    .of_open openedSession_isOpen (by decide) (by decide)
  have hping : openedSession.Ordinary (Message.request ⟨.ping, Shape.default _⟩) :=
    .of_open openedSession_isOpen (by decide) (by decide)
  have hnext : openedSession.fresh.ids.next = 3 := by decide +kernel
  obtain ⟨-, hhandled⟩ := answered_in_order failingRegistry 0 0 hstoring
  obtain ⟨hunhandled, -⟩ := answered_in_order failingRegistry 0 0 hping
  obtain ⟨hreplies, -, -, hcalls⟩ := hhandled failingHandler rfl
  obtain ⟨hreport, -, -, hsilent⟩ := hunhandled rfl
  rw [hnext] at hreplies hreport
  exact ⟨hstoring, ⟨hreplies, hcalls⟩, hping, hreport, hsilent⟩

end Etp.Session
