import Etp.Proofs.Message.Identifiers
import Etp.Proofs.Session.Interleaving

/-!
# Replies are numbered

Every reply has its identifier from the counter of the session, and the replies to an input are returned
in the order in which their identifiers were taken: first the acknowledgement, then what comes of the
message, and at the end the reports held back for an exchange.  `Numbered` says so of a turn, and every
step on the way of an input has its lemma.  If nothing is held back from before, no identifier is left
out; so the replies of a session are numbered without a gap.
-/

namespace Etp.Session

variable {σ : Type}

/-- From `s` to `t` the identifiers `ids` were drawn, one after the other. -/
def Draws (s : Session) (ids : List Int64) (t : Session) : Prop := s.fresh.ids.Draws ids t.fresh.ids

namespace Draws

variable {s t u : Session} {ids ids' : List Int64}

theorem refl (s : Session) : s.Draws [] s := IdCounter.Draws.refl _

theorem append (h : s.Draws ids t) (h' : t.Draws ids' u) : s.Draws (ids ++ ids') u :=
  IdCounter.Draws.append h h'

end Draws

/-- The identifiers of the replies that are sent. -/
def replyIds (replies : List (Option Message)) : List Int64 :=
  (replies.filterMap (fun reply => reply)).map (·.header.messageId)

@[simp] theorem replyIds_none (replies : List (Option Message)) :
    replyIds (none :: replies) = replyIds replies := rfl

@[simp] theorem replyIds_some (reply : Message) (replies : List (Option Message)) :
    replyIds (some reply :: replies) = reply.header.messageId :: replyIds replies := rfl

@[simp] theorem replyIds_append (replies later : List (Option Message)) :
    replyIds (replies ++ later) = replyIds replies ++ replyIds later := by
  simp [replyIds]

@[simp] theorem replyIds_map_some (ms : List Message) :
    replyIds (ms.map some) = ms.map (·.header.messageId) := by
  simp [replyIds, List.filterMap_map]

/-- The identifiers of the replies are those that were drawn, in this order.  If the session fails, they
were drawn in vain. -/
def Numbered (s : Session) (turn : Turn σ Replies) : Prop :=
  ∃ ids, s.Draws ids turn.session ∧ ∀ replies, turn.result = .ok replies → replyIds replies = ids

theorem Numbered.of_ok {s : Session} {turn : Turn σ Replies} {replies : List (Option Message)}
    (hresult : turn.result = .ok replies) (hdraws : s.Draws (replyIds replies) turn.session) :
    Numbered s turn := by
  refine ⟨_, hdraws, ?_⟩
  intro others hothers
  rw [hresult] at hothers
  cases hothers
  rfl

/-! ## Replies to one message -/

theorem report_draws (s : Session) (fault : Fault) (correlationId : Int64) :
    s.Draws [(s.report fault correlationId).1.header.messageId] (s.report fault correlationId).2 :=
  IdCounter.Draws.draw s.fresh.ids

theorem reportOnly_numbered (s : Session) (world : σ) (fault : Fault) (correlationId : Int64) :
    Numbered s (s.reportOnly world fault correlationId) :=
  .of_ok rfl (s.report_draws fault correlationId)

theorem acknowledge_draws (s : Session) (m : Message) :
    s.Draws (replyIds (s.acknowledge m).1) (s.acknowledge m).2 := by
  unfold acknowledge
  split
  · exact IdCounter.Draws.draw s.fresh.ids
  · exact .refl s

theorem messageId_finish (request : Header) (reply : Message) (id : Int64) :
    (finish request reply id).header.messageId = id := by
  unfold finish
  simp only
  split
  · rfl
  · rfl

theorem answer_draws (request : Header) (items : List Item) (s : Session) :
    s.Draws (replyIds (answer request items s).1) (answer request items s).2.2 := by
  induction items generalizing s with
  | nil => exact .refl s
  | cons item items ih =>
    match item with
    | .ok (some reply) =>
      have hfirst : s.Draws [s.drawId.1] s.drawId.2 := IdCounter.Draws.draw s.fresh.ids
      have hrest := hfirst.append (ih s.drawId.2)
      simp only [answer, replyIds_some, messageId_finish]
      exact hrest
    | .ok none => exact ih s
    | .error fault => exact s.report_draws fault request.messageId

theorem dispatch_numbered (registry : Registry σ) (s : Session) (world : σ) (m : Message) :
    Numbered s (dispatch registry s world m) := by
  unfold dispatch
  split
  case h_1 => exact s.reportOnly_numbered world _ _
  case h_2 handler _ =>
    let informed := { s with peer := (handler m.body m.header s.peer world).peer }
    simp only
    split
    case h_1 fault _ => exact .of_ok rfl (report_draws informed fault m.header.messageId)
    case h_2 response _ => exact .of_ok rfl (answer_draws m.header response.items informed)

theorem fresh_openBy (s : Session) (body : Body) : (s.openBy body).fresh = s.fresh := by
  unfold openBy
  split
  · rfl
  · rfl

/-- A message is acknowledged before all else. -/
theorem receive_numbered {onward : Session → σ → Message → Turn σ Replies} {s : Session} (world : σ)
    (m : Message)
    (honward : ∀ t, t.deferred = s.deferred → Numbered t (onward t world m)) :
    Numbered s (receive onward s world m) := by
  unfold receive
  split
  · exact s.reportOnly_numbered world _ _
  · have hacknowledged := s.acknowledge_draws m
    have hdeferred : (s.acknowledge m).2.deferred = s.deferred := by
      obtain ⟨fresh, hadvances⟩ := s.acknowledge_advances m
      rw [hadvances]
    simp only
    split
    · exact .of_ok rfl hacknowledged
    · have hopened : ((s.acknowledge m).2.openBy m.body).deferred = s.deferred := by
        rw [← hdeferred]
        unfold openBy
        split
        · rfl
        · rfl
      obtain ⟨ids, hdraws, hids⟩ := honward _ hopened
      rw [Draws, fresh_openBy] at hdraws
      refine ⟨_, hacknowledged.append hdraws, ?_⟩
      intro replies hreplies
      obtain ⟨others, hothers, rfl⟩ : ∃ others,
          (onward ((s.acknowledge m).2.openBy m.body) world m).result = .ok others ∧
            (s.acknowledge m).1 ++ others = replies := by
        cases hresult : (onward ((s.acknowledge m).2.openBy m.body) world m).result with
        | error e =>
          rw [hresult] at hreplies
          cases hreplies
        | ok others =>
          rw [hresult] at hreplies
          cases hreplies
          exact ⟨others, rfl, rfl⟩
      rw [replyIds_append, hids others hothers]

/-! ## Exchanges -/

/-- The reports for absent replies take the next identifiers and are held back in their order. -/
theorem deferAbsent_draws (id : Int64) (replies : List (Option Message)) (s : Session) :
    ∃ reports : List Message,
      s.Draws (reports.map (·.header.messageId)) (deferAbsent id replies s).2.2 ∧
      (deferAbsent id replies s).2.2.deferred = s.deferred ++ reports.map (id, ·) ∧
      replyIds (deferAbsent id replies s).1 = replyIds replies := by
  induction replies generalizing s with
  | nil => exact ⟨[], .refl s, by simp [deferAbsent], rfl⟩
  | cons reply replies ih =>
    cases reply with
    | some reply =>
      obtain ⟨reports, hdraws, hdeferred, hids⟩ := ih s
      refine ⟨reports, hdraws, hdeferred, ?_⟩
      simp only [deferAbsent, replyIds_some, hids]
    | none =>
      let reported := s.report .invalidMessage 0
      obtain ⟨reports, hdraws, hdeferred, hids⟩ := ih (reported.2.defer id reported.1)
      refine ⟨reported.1 :: reports, ?_, ?_, hids⟩
      · exact (s.report_draws .invalidMessage 0).append hdraws
      · simp only [deferAbsent]
        rw [hdeferred]
        simp only [defer, List.append_assoc, List.map_cons, List.singleton_append]
        rfl

/-- The reports that were held back follow the replies to the whole message. -/
theorem complete_numbered (registry : Registry σ) {s : Session} (world : σ) (id : Int64)
    (hs : s.deferred = []) : Numbered s (complete registry s world id) := by
  unfold complete
  simp only
  split
  · exact ⟨[], .refl s, by simp⟩
  · rename_i m _
    let turn := receive (dispatch registry) { s with assemblies := s.assemblies.erase id } world (whole m)
    have hturn : Numbered s turn :=
      receive_numbered (s := { s with assemblies := s.assemblies.erase id }) world (whole m)
        (fun t _ => dispatch_numbered registry t world (whole m))
    have hdeferred : turn.session.deferred = [] := deferred_receive_dispatch registry world (whole m) hs
    obtain ⟨ids, hdraws, hids⟩ := hturn
    split
    · exact ⟨ids, hdraws, by simp⟩
    · rename_i replies hreplies
      obtain ⟨reports, hreports, hheld, hkept⟩ := deferAbsent_draws id replies turn.session
      rw [hdeferred, List.nil_append] at hheld
      have hown := deferredFor_eq hheld
      refine .of_ok rfl ?_
      rw [replyIds_append, replyIds_map_some, hkept, hids replies hreplies, hown]
      exact hdraws.append hreports

theorem route_numbered (registry : Registry σ) (now : Nat) {s : Session} (world : σ) (m : Message)
    (hs : s.deferred = []) : Numbered s (route registry now s world m) := by
  unfold route
  split
  · unfold collect
    simp only
    split
    · exact s.reportOnly_numbered world _ _
    · split
      · exact complete_numbered registry
          (s := { s with assemblies := s.assemblies.push m.exchangeId m now }) world m.exchangeId hs
      · exact .of_ok rfl (.refl s)
  · exact dispatch_numbered registry s world m

/-! ## Inputs -/

theorem process_numbered (registry : Registry σ) (now : Nat) {s : Session} (world : σ)
    (input : Option Message) (hs : s.deferred = []) :
    Numbered s (process registry now s world input) := by
  cases input with
  | none => exact s.reportOnly_numbered world _ _
  | some m =>
    exact receive_numbered world m
      (fun t ht => route_numbered registry now world m (ht.trans hs))

/-- An input draws the identifiers of the replies to it, and no others unless the session fails. -/
theorem handleMessage_draws (registry : Registry σ) (now : Nat) {s : Session} (world : σ)
    (input : Option Message) (hs : s.deferred = []) :
    ∃ ids, s.Draws ids (handleMessage registry now s world input).session ∧
      ∀ replies, (handleMessage registry now s world input).result = .ok replies →
        replies.map (·.header.messageId) = ids := by
  obtain ⟨ids, hdraws, hids⟩ := process_numbered registry now world input hs
  refine ⟨ids, hdraws, ?_⟩
  intro replies hreplies
  simp only [handleMessage] at hreplies
  cases hresult : (process registry now s world input).result with
  | error e =>
    rw [hresult] at hreplies
    cases hreplies
  | ok all =>
    rw [hresult] at hreplies
    cases hreplies
    exact hids all hresult

/-- The replies of a run have the identifiers that were drawn in it, in this order. -/
theorem feed_draws (registry : Registry σ) {inputs : List (Nat × Option Message)} {s : Session}
    {world : σ} {replies : List Message} (hs : Reachable s)
    (hresult : joined (feed (handleMessage registry) inputs s world).result = .ok replies) :
    s.Draws (replies.map (·.header.messageId))
      (feed (handleMessage registry) inputs s world).session := by
  induction inputs generalizing s world replies with
  | nil =>
    cases hresult
    exact .refl s
  | cons input inputs ih =>
    obtain ⟨now, input⟩ := input
    obtain ⟨ids, hdraws, hids⟩ := handleMessage_draws registry now world input hs.deferred_eq
    simp only [feed] at hresult ⊢
    cases hfirst : (handleMessage registry now s world input).result with
    | error e =>
      rw [hfirst] at hresult
      cases hresult
    | ok first =>
      rw [hfirst] at hresult
      simp only [joined] at hresult
      cases hrest : joined (feed (handleMessage registry) inputs
          (handleMessage registry now s world input).session
          (handleMessage registry now s world input).world).result with
      | error e =>
        rw [hrest] at hresult
        cases hresult
      | ok rest =>
        rw [hrest] at hresult
        cases hresult
        rw [List.map_append, hids first hfirst]
        exact hdraws.append (ih (hs.handled registry now world input) hrest)

/-! ## Frames -/

/-- The frames that were sent from `s` to `t` have readable headers, and each of their identifiers was
drawn on the way or is one of `own`; none is put to use twice. -/
def Sends (own : List Int64) (s : Session) (frames : List Bytes) (t : Session) : Prop :=
  ∃ ids, frames.map Message.frameId? = ids.map some ∧ s.fresh.ids.Supplies own ids t.fresh.ids

namespace Sends

variable {s t u : Session} {own own' : List Int64} {frames frames' : List Bytes}

theorem silent (own : List Int64) (s : Session) : Sends own s [] s :=
  ⟨[], rfl, [], .refl s.fresh.ids, List.nil_subperm⟩

theorem append (h : Sends own s frames t) (h' : Sends own' t frames' u) :
    Sends (own ++ own') s (frames ++ frames') u := by
  obtain ⟨ids, hframes, hsupplies⟩ := h
  obtain ⟨ids', hframes', hsupplies'⟩ := h'
  refine ⟨ids ++ ids', ?_, hsupplies.append hsupplies'⟩
  rw [List.map_append, List.map_append, hframes, hframes']

theorem after {ids : List Int64} (hdraws : s.Draws ids t) (h : Sends (own ++ ids) t frames u) :
    Sends own s frames u := by
  obtain ⟨used, hframes, hsupplies⟩ := h
  exact ⟨used, hframes, hsupplies.after hdraws⟩

theorem draws (h : Sends own s frames t) : ∃ ids, s.Draws ids t := by
  obtain ⟨_, _, ids, hdraws, _⟩ := h
  exact ⟨ids, hdraws⟩

end Sends

theorem encode_sends (s : Session) (m : Message) :
    Sends [m.header.messageId] s (s.encode m).1 (s.encode m).2.2 := by
  refine ⟨_, ?_, Message.parts_supplied s.peer.capabilities.maxFrameSize s.fresh m⟩
  simp only [encode, Message.frames, Message.partIds, List.map_map]
  exact List.map_congr_left (fun p _ => Message.frameId?_encode p.message)

/-- A message keeps its identifier for one of its frames. -/
theorem encodeAll_sends (ms : List Message) (s : Session) :
    Sends (ms.map (·.header.messageId)) s (encodeAll ms s).1 (encodeAll ms s).2.2 := by
  induction ms generalizing s with
  | nil => exact .silent [] s
  | cons m ms ih => exact (s.encode_sends m).append (ih _)

/-! ## Sessions from their start -/

/-- The first identifier of an endpoint. -/
def firstId : Role → Int
  | .server => 1
  | .client => 2

theorem next_start (settings : Settings) (peerNumber : Nat) (blobs : Uuid.Supply) :
    (Session.start settings peerNumber blobs).fresh.ids.next = firstId settings.role := by
  simp only [Session.start]
  cases settings.role with
  | client => rfl
  | server => rfl

/-- The counter of a session only goes up. -/
theorem Reachable.next_nonneg {s : Session} (h : Reachable s) : 0 ≤ s.fresh.ids.next := by
  induction h with
  | start settings peerNumber blobs =>
    rw [next_start]
    cases settings.role with
    | client => decide
    | server => decide
  | handled registry now world input hs ih =>
    obtain ⟨ids, hdraws, -⟩ := handleMessage_draws registry now world input hs.deferred_eq
    exact Int.le_trans ih hdraws.le_next
  | @encoded s ms _ ih =>
    obtain ⟨ids, hdraws⟩ := (encodeAll_sends ms s).draws
    exact Int.le_trans ih hdraws.le_next
  | @drawn s _ ih => exact Int.le_trans ih (IdCounter.Draws.draw s.fresh.ids).le_next
  | @swept s now _ ih =>
    unfold sweep
    split
    · exact ih
    · exact ih
  | informed _ _ ih => exact ih

/-- The replies to an input have the next identifiers of the counter, in their order, and nothing but
replies uses one up.  So the replies of a run are numbered from the first identifier of the endpoint on.
(An overdrawn counter stops the endpoint, and then there are no replies.) -/
theorem replies_gapless (registry : Registry σ) :
    (∀ s, Reachable s → ∀ now world input replies,
      let turn := handleMessage registry now s world input
      turn.result = .ok replies → turn.session.fresh.ids.isOverdrawn = false →
        replies.map (·.header.messageId.toInt) =
          (List.range replies.length).map (fun (i : Nat) => s.fresh.ids.next + 2 * i) ∧
        turn.session.fresh.ids.next = s.fresh.ids.next + 2 * replies.length) ∧
    (∀ settings peerNumber blobs world inputs replies,
      let run := feed (handleMessage registry) inputs (Session.start settings peerNumber blobs) world
      joined run.result = .ok replies → run.session.fresh.ids.isOverdrawn = false →
        replies.map (·.header.messageId.toInt) =
          (List.range replies.length).map (fun (i : Nat) => firstId settings.role + 2 * i)) := by
  constructor
  · intro s hs now world input replies turn hresult hlimit
    obtain ⟨ids, hdraws, hids⟩ := handleMessage_draws registry now world input hs.deferred_eq
    obtain rfl := hids replies hresult
    have hvalues := IdCounter.Draws.toInt_eq hdraws hs.next_nonneg hlimit
    have hnext := IdCounter.Draws.next_eq hdraws
    rw [List.map_map, List.length_map] at hvalues
    rw [List.length_map] at hnext
    exact ⟨hvalues, hnext⟩
  · intro settings peerNumber blobs world inputs replies run hresult hlimit
    have hs := Reachable.start settings peerNumber blobs
    have hdraws := feed_draws registry hs hresult
    have hvalues := IdCounter.Draws.toInt_eq hdraws hs.next_nonneg hlimit
    rw [List.map_map, List.length_map, next_start] at hvalues
    exact hvalues

/-- A handler that sends one reply, leaves one out and then fails. -/
def failingHandler : Handler Nat := fun _ _ peer count =>
  ⟨.ok (.stream [.ok (some (Message.ofBody ⟨.putDataObjectsResponse, KeyMap.empty, ()⟩)), .ok none,
    .error .notSupported]), peer, count + 1⟩

/-- A registry whose only handler is the failing one. -/
def failingRegistry : Registry Nat where
  handler p := if p = .store then some failingHandler else none

/-- A client opens a session, wants this acknowledged, and then sends two exchanges that cross. -/
def openingThenCrossing : List (Nat × Option Message) :=
  (0, some ((Message.request ⟨.requestSession, Shape.default _⟩).addFlags .acknowledge)) :: crossing

/-- Acknowledgement, fault reports, replies and the reports held back, in one sequence. -/
theorem replies_gapless_crossing :
    (let turn := handleMessage failingRegistry 0 openedSession 0
        (some ((Message.request (Message.storing [])).addFlags .acknowledge))
      ∃ replies, turn.result = .ok replies ∧ replies.length = 3 ∧
        replies.map (·.header.messageId.toInt) =
          (List.range replies.length).map (fun (i : Nat) => openedSession.fresh.ids.next + 2 * i) ∧
        turn.session.fresh.ids.next = openedSession.fresh.ids.next + 2 * replies.length) ∧
    (let run := feed (handleMessage failingRegistry) openingThenCrossing
        (Session.start Settings.default 1 Message.countingFresh.blobs) 0
      ∃ replies, joined run.result = .ok replies ∧ replies.length = 11 ∧
        replies.map (·.header.messageId.toInt) =
          (List.range replies.length).map (fun (i : Nat) => 1 + 2 * (i : Int))) := by
  have hgapless := replies_gapless failingRegistry
  constructor
  · intro turn
    have hlength : turn.result.map List.length = .ok 3 := by decide +kernel
    cases hresult : turn.result with
    | error e =>
      rw [hresult] at hlength
      cases hlength
    | ok replies =>
      rw [hresult] at hlength
      refine ⟨replies, rfl, Except.ok.inj hlength, ?_⟩
      exact hgapless.1 openedSession reachable_openedSession 0 0 _ replies hresult (by decide +kernel)
  · intro run
    have hlength : (joined run.result).map List.length = .ok 11 := by decide +kernel
    cases hresult : joined run.result with
    | error e =>
      rw [hresult] at hlength
      cases hlength
    | ok replies =>
      rw [hresult] at hlength
      refine ⟨replies, rfl, Except.ok.inj hlength, ?_⟩
      exact hgapless.2 Settings.default 1 Message.countingFresh.blobs 0 openingThenCrossing replies
        hresult (by decide +kernel)

end Etp.Session
