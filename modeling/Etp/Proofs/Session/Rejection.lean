import Etp.Proofs.Session.Authorization
import Etp.Proofs.Session.Reports

/-!
# Inputs that are turned away

An input that cannot be read, lacks authorization or comes too early is answered by one final report that
is correlated to nothing.  `Rejects` says which inputs these are and in which order the checks are made.
Whatever else such an input asks for, the session only draws the identifier of the report
(`rejected_leaves_intact`).  On the wire this holds where the report fits the limit for frames; where it
does not, a second report with an identifier of its own is sent in its place (`displaced_report`).
-/

namespace Etp.Session

variable {σ : Type}

/-! ## Reports -/

/-- The final report of a fault. -/
def finalReport (fault : Fault) (id correlationId : Int64) : Message where
  header :=
    { protocol := Protocol.core.id
      number := Kind.protocolException.number
      correlationId := correlationId
      messageId := id
      flags := .final }
  body := ⟨.protocolException, some (fault.message, fault.code, ()), KeyMap.empty, ()⟩

/-- The identifier that the session draws next. -/
def nextId (s : Session) : Int64 := Int64.ofInt s.fresh.ids.next

/-- The session after it has drawn one identifier. -/
def advanced (s : Session) : Session :=
  { s with fresh := { s.fresh with ids := ⟨s.fresh.ids.next + IdCounter.step⟩ } }

theorem setFinal_toMessage (fault : Fault) (id correlationId : Int64) :
    (fault.toMessage id correlationId).setFinal true = finalReport fault id correlationId := by
  have hflags : Flags.none.put .final true = .final := by decide
  rw [finalReport, ← hflags]
  rfl

theorem report_eq (s : Session) (fault : Fault) (correlationId : Int64) :
    s.report fault correlationId = (finalReport fault s.nextId correlationId, s.advanced) := by
  rw [← setFinal_toMessage]
  rfl

theorem reportOnly_eq (s : Session) (world : σ) (fault : Fault) (correlationId : Int64) :
    s.reportOnly world fault correlationId =
      ⟨s.advanced, world, [.faultReply fault.code],
        .ok [some (finalReport fault s.nextId correlationId)]⟩ := by
  rw [reportOnly, report_eq]

theorem isReport_finalReport (fault : Fault) (id correlationId : Int64) :
    (finalReport fault id correlationId).IsReport fault.code :=
  ⟨fault, id, correlationId, rfl, (setFinal_toMessage fault id correlationId).symm⟩

@[simp] theorem reportedCode?_finalReport (fault : Fault) (id correlationId : Int64) :
    (finalReport fault id correlationId).reportedCode? = some fault.code := rfl

/-! ## Inputs -/

/-- The peer has to authorize itself before it may send the message. -/
def Unauthorized (s : Session) (m : Message) : Prop :=
  s.authRequired = true ∧ s.peer.authenticated = false ∧
    m.body.kind ≠ .authorize ∧ m.body.kind ≠ .authorizeResponse

instance (s : Session) (m : Message) : Decidable (s.Unauthorized m) :=
  inferInstanceAs (Decidable (_ ∧ _ ∧ _ ∧ _))

/-- The inputs that are turned away, each with the fault that is reported.  A session only looks for
authorization in what can be read, and only for a connection where no authorization is missing. -/
inductive Rejects (s : Session) : Option Message → Fault → Prop where
  | unreadable : Rejects s none .invalidMessage
  | unauthorized {m : Message} (h : s.Unauthorized m) : Rejects s (some m) .authorizationRequired
  | unconnected {m : Message} (h : ¬ s.Unauthorized m) (hprotocol : m.header.protocol ≠ Protocol.core.id)
      (hconnected : s.connected = false) : Rejects s (some m) .invalidState

/-- No input is turned away for its size. -/
theorem Rejects.code_ne {s : Session} {input : Option Message} {fault : Fault}
    (h : s.Rejects input fault) : fault.code ≠ Fault.maxSizeExceeded.code := by
  cases h with
  | unreadable => decide
  | unauthorized => decide
  | unconnected => decide

theorem isAuthorization_eq_false {k : Kind} :
    isAuthorization k = false ↔ k ≠ .authorize ∧ k ≠ .authorizeResponse := by
  unfold isAuthorization
  split
  · simp
  · simp
  · rename_i hauthorize hresponse
    exact iff_of_true rfl ⟨hauthorize, hresponse⟩

theorem unauthorized_iff {s : Session} {m : Message} :
    s.Unauthorized m ↔
      (s.authRequired && !s.peer.authenticated && !isAuthorization m.body.kind) = true := by
  rw [Unauthorized, ← isAuthorization_eq_false]
  simp [and_assoc]

/-- What the gates turn away. -/
theorem rejects_iff {s : Session} {m : Message} {fault : Fault} :
    s.Rejects (some m) fault ↔ s.gate m = some fault := by
  -- The second check is only made where no authorization is missing.
  unfold gate
  by_cases hunauthorized : s.Unauthorized m
  · rw [if_pos (unauthorized_iff.1 hunauthorized)]
    constructor
    · rintro (_ | _ | ⟨h, -, -⟩)
      · rfl
      · exact absurd hunauthorized h
    · intro h
      cases h
      exact .unauthorized hunauthorized
  · rw [if_neg (fun h => hunauthorized (unauthorized_iff.2 h))]
    constructor
    · rintro (_ | h | ⟨-, hprotocol, hconnected⟩)
      · exact absurd h hunauthorized
      · simp [hprotocol, hconnected]
    · intro h
      split at h
      case isTrue hgate =>
        cases h
        obtain ⟨hprotocol, hconnected⟩ := Bool.and_eq_true_iff.1 hgate
        exact .unconnected hunauthorized (of_decide_eq_true hprotocol) (by simpa using hconnected)
      case isFalse => cases h

/-- A frame that cannot be decoded, or whose header announces a negative protocol. -/
def Unreadable (frame : Bytes) : Prop :=
  (∃ e, Message.decode frame = .error e) ∨
    ∃ header payload, Header.read.run frame = .ok (header, payload) ∧ header.protocol < 0

theorem decode_eq_ok_none_iff {frame : Bytes} :
    Message.decode frame = .ok none ↔
      ∃ header payload, Header.read.run frame = .ok (header, payload) ∧ header.protocol < 0 := by
  unfold Message.decode
  split
  case h_1 cause hheader => simp [hheader]
  case h_2 header payload hheader =>
    by_cases hprotocol : header.protocol < 0
    · rw [if_pos hprotocol]
      exact iff_of_true rfl ⟨header, payload, hheader, hprotocol⟩
    · rw [if_neg hprotocol]
      apply iff_of_false
      · split
        · simp
        · split
          · simp
          · simp
      · rintro ⟨other, rest, hother, hnegative⟩
        rw [hheader] at hother
        cases hother
        exact hprotocol hnegative

/-- Exactly these frames are taken for nothing. -/
theorem unreadable_iff {frame : Bytes} : Unreadable frame ↔ incoming frame = none := by
  rw [Unreadable, ← decode_eq_ok_none_iff, incoming]
  cases Message.decode frame with
  | error e => simp [Except.toOption]
  | ok m => simp [Except.toOption]

/-! ## What the session does -/

/-- An input that is turned away draws the identifier of the report, and does nothing else. -/
theorem handleMessage_rejected (registry : Registry σ) (now : Nat) (world : σ) {s : Session}
    {input : Option Message} {fault : Fault} (h : s.Rejects input fault) :
    handleMessage registry now s world input =
      ⟨s.advanced, world, input.toList.map (fun _ => .inbound) ++ [.faultReply fault.code],
        .ok [finalReport fault s.nextId 0]⟩ := by
  cases input with
  | none =>
    cases h
    rw [handleMessage, process, reportOnly_eq]
    rfl
  | some m =>
    rw [handleMessage_eq, receive_refused _ world (rejects_iff.1 h), reportOnly_eq]
    rfl

/-- A report is sent as itself if it fits, and otherwise one that it was too large is sent instead. -/
theorem encodeAll_finalReport (fault : Fault) (id correlationId : Int64) (s : Session) :
    let report := finalReport fault id correlationId
    let fits := report.fits s.peer.capabilities.maxFrameSize
    let sent := if fits then report else finalReport .maxSizeExceeded s.nextId correlationId
    encodeAll [report] s = ([sent.encode], [.outbound], if fits then s else s.advanced) := by
  intro report fits sent
  have hplural : report.isPlural = false := (isReport_finalReport fault id correlationId).isPlural_eq
  simp only [encodeAll, encode, Message.frames]
  by_cases hfits : fits = true
  · have hsent : sent = report := if_pos hfits
    rw [hsent, if_pos hfits, Message.parts_of_fits hfits]
    rfl
  · have hsent : sent = finalReport .maxSizeExceeded s.nextId correlationId := if_neg hfits
    have hlarge : ¬ report.fits s.peer.capabilities.maxFrameSize = true := hfits
    rw [hsent, if_neg hfits, Message.parts.eq_def]
    simp only [hlarge, hplural, Bool.false_eq_true, Bool.not_false, if_false, if_true, Message.refusal,
      setFinal_toMessage]
    rfl

/-- A frame that is turned away is answered by one frame.  If the report does not fit, a second identifier
is drawn for what is sent in its place. -/
theorem handleFrame_rejected (registry : Registry σ) (now : Nat) (world : σ) {s : Session}
    {frame : Bytes} {fault : Fault} (h : s.Rejects (incoming frame) fault) :
    let report := finalReport fault s.nextId 0
    let fits := report.fits s.peer.capabilities.maxFrameSize
    let sent := if fits then report else finalReport .maxSizeExceeded s.advanced.nextId 0
    handleFrame registry now s world frame =
      ⟨if fits then s.advanced else s.advanced.advanced, world,
        (incoming frame).toList.map (fun _ => .inbound) ++ [.faultReply fault.code] ++ [.outbound],
        .ok [sent.encode]⟩ := by
  intro report fits sent
  have hsent : encodeAll [report] s.advanced =
      ([sent.encode], [.outbound], if fits then s.advanced else s.advanced.advanced) :=
    encodeAll_finalReport fault s.nextId 0 s.advanced
  rw [handleFrame_eq, handleMessage_rejected registry now world h]
  simp only [Turn.encoded]
  rw [hsent]

theorem calls_rejected (input : Option Message) (fault : Fault) :
    calls (input.toList.map (fun _ => .inbound) ++ [.faultReply fault.code]) = [] := by
  rw [calls_append, calls_map_inbound]
  rfl

/-- An input that cannot be read, lacks authorization or comes too early leaves the session as it was, but
for the identifier of the report that is the only reply to it: no handler is called, nothing is
acknowledged, opened, closed or collected.  Frames that cannot be read are such inputs.  On the wire the
report is sent like any other reply: exactly if it fits, the fault is reported under the only identifier
that is drawn. -/
theorem rejected_leaves_intact (registry : Registry σ) (now : Nat) (s : Session) (world : σ) :
    (Fault.invalidMessage.code = 19 ∧ Fault.authorizationRequired.code = 27 ∧
      Fault.invalidState.code = 8) ∧
    (∀ input fault, s.Rejects input fault →
      let turn := handleMessage registry now s world input
      turn.result = .ok [finalReport fault s.nextId 0] ∧ turn.session = s.advanced ∧
        turn.world = world ∧ calls turn.events = []) ∧
    (∀ frame, Unreadable frame → s.Rejects (incoming frame) .invalidMessage) ∧
    ∀ frame fault, s.Rejects (incoming frame) fault →
      let turn := handleFrame registry now s world frame
      let report := finalReport fault s.nextId 0
      let fits := report.fits s.peer.capabilities.maxFrameSize
      let sent := if fits then report else finalReport .maxSizeExceeded s.advanced.nextId 0
      turn.result = .ok [sent.encode] ∧
        turn.session = (if fits then s.advanced else s.advanced.advanced) ∧
        (fits = true ↔ sent.reportedCode? = some fault.code ∧ turn.session = s.advanced) ∧
        turn.world = world ∧ calls turn.events = [] := by
  refine ⟨⟨rfl, rfl, rfl⟩, ?_, ?_, ?_⟩
  · intro input fault h turn
    have hturn : turn = _ := handleMessage_rejected registry now world h
    rw [hturn]
    exact ⟨rfl, rfl, rfl, calls_rejected input fault⟩
  · intro frame hframe
    rw [unreadable_iff.1 hframe]
    exact .unreadable
  · intro frame fault h turn report fits sent
    have hturn : turn = ⟨if fits then s.advanced else s.advanced.advanced, world, _, .ok [sent.encode]⟩ :=
      handleFrame_rejected registry now world h
    rw [hturn]
    refine ⟨rfl, rfl, ?_, rfl, ?_⟩
    · constructor
      · intro hfits
        have hreport : sent = report := if_pos hfits
        rw [hreport]
        exact ⟨rfl, if_pos hfits⟩
      · rintro ⟨hcode, -⟩
        -- A replacement reports the size, for which nothing is turned away.
        by_contra hlarge
        have hreplaced : sent = finalReport .maxSizeExceeded s.advanced.nextId 0 := if_neg hlarge
        rw [hreplaced, reportedCode?_finalReport] at hcode
        exact h.code_ne (Option.some.inj hcode).symm
    · rw [calls_append, calls_rejected]
      rfl

/-- A handler that authenticates a peer with every message but a ping, which revokes it. -/
def revokingHandler : Handler Unit := fun body _ peer world =>
  ⟨.ok .empty, { peer with authenticated := body.kind ≠ .ping }, world⟩

/-- A registry whose only handler is the revoking one. -/
def revokingRegistry : Registry Unit where
  handler p := if p = .core then some revokingHandler else none

/-- A session that is connected while its peer is not authenticated any more. -/
def revokedSession : Session :=
  (feed (handleMessage revokingRegistry)
    (authorizing ++ [(20, some (Message.request ⟨.ping, Shape.default _⟩))])
    (Session.start guardedSettings 1 Message.countingFresh.blobs) ()).session

/-- A message that wants to be acknowledged and would close the session. -/
def closingAcknowledged : Message :=
  (Message.request ⟨.closeSession, Shape.default _⟩).addFlags .acknowledge

/-- Messages are turned away while authorization is revoked and while the session is not opened, and a frame
in which there is no header. -/
theorem rejected_leaves_intact_revoked :
    let unopened := Session.start Settings.default 1 Message.countingFresh.blobs
    let early := (Message.request (Message.storing [])).addFlags .acknowledge
    let revoked := handleMessage revokingRegistry 30 revokedSession () (some closingAcknowledged)
    let unread := handleFrame revokingRegistry 30 revokedSession () [255]
    (revokedSession.connected = true ∧
      revokedSession.Rejects (some closingAcknowledged) .authorizationRequired ∧
      revoked.result = .ok [finalReport .authorizationRequired 1 0] ∧
      revoked.session = revokedSession.advanced) ∧
    (unopened.Rejects (some early) .invalidState ∧
      (handleMessage countingRegistry 0 unopened 0 (some early)).result =
        .ok [finalReport .invalidState 1 0]) ∧
    Unreadable [255] ∧ revokedSession.Rejects (incoming [255]) .invalidMessage ∧
      unread.session = revokedSession.advanced ∧ calls unread.events = [] := by
  intro unopened early revoked unread
  obtain ⟨-, hmessages, hunreadable, hframes⟩ :=
    rejected_leaves_intact revokingRegistry 30 revokedSession ()
  obtain ⟨-, hearly, -⟩ := rejected_leaves_intact countingRegistry 0 unopened 0
  have hrevoked : revokedSession.Rejects (some closingAcknowledged) .authorizationRequired :=
    .unauthorized (by decide +kernel)
  have hearly' : unopened.Rejects (some early) .invalidState :=
    .unconnected (by decide +kernel) (by decide +kernel) rfl
  have hunread : Unreadable [255] := unreadable_iff.2 (by decide +kernel)
  have hframe := hunreadable [255] hunread
  obtain ⟨hreply, hintact, -⟩ := hmessages _ _ hrevoked
  obtain ⟨-, hsession, -, -, hcalls⟩ := hframes _ _ hframe
  have hfits : (finalReport .invalidMessage revokedSession.nextId 0).fits
      revokedSession.peer.capabilities.maxFrameSize = true := by decide +kernel
  rw [if_pos hfits] at hsession
  have hid : revokedSession.nextId = 1 := by decide +kernel
  rw [hid] at hreply
  exact ⟨⟨by decide +kernel, hrevoked, hreply, hintact⟩, ⟨hearly', (hearly _ _ hearly').1⟩, hunread,
    hframe, hsession, hcalls⟩

/-- A frame that cannot be read, on a session that sends next to nothing at once: its report is not sent,
and a second identifier is drawn for what is. -/
theorem displaced_report :
    let turn := handleFrame countingRegistry 0 tightServer 0 [255]
    tightServer.Reachable ∧ Unreadable [255] ∧ tightServer.Rejects (incoming [255]) .invalidMessage ∧
      (∃ frames, turn.result = .ok frames ∧
        frames.map (fun f => (incoming f).bind Message.reportedCode?) = [some 17]) ∧
      tightServer.fresh.ids.next = 1 ∧ turn.session.fresh.ids.next = 5 := by
  intro turn
  have hunread : incoming [255] = none := by decide +kernel
  refine ⟨.start _ _ _, unreadable_iff.2 hunread, hunread ▸ .unreadable, ?_, rfl, by decide +kernel⟩
  exact ⟨turn.result.toOption.getD [], rfl, by decide +kernel⟩

end Etp.Session
