import Etp.Proofs.Session.Ascending
import Mathlib.Data.List.Forall2

/-!
# Reports on the wire

Every fault that a session reports for an input is among the replies, and in the order in which the faults
were reported (`Told`; each step on the way of an input has its lemma).  The replies are then encoded under
the limit for frames, and reports like all others: one that does not fit is replaced by the report that a
message was too large.  `reports_sent` says what is sent for each fault, and when it reports this fault.
-/

namespace Etp

open List (SublistForall₂)

theorem sublistForall₂_append {α β : Type} {R : α → β → Prop} {as cs : List α} {bs ds : List β}
    (h : SublistForall₂ R as bs) (h' : SublistForall₂ R cs ds) :
    SublistForall₂ R (as ++ cs) (bs ++ ds) := by
  induction h with
  | @nil bs =>
    induction bs with
    | nil => exact h'
    | cons b bs ih => exact .cons_right ih
  | cons hab _ ih => exact .cons hab ih
  | cons_right _ ih => exact .cons_right ih

namespace Message

/-! ## Reports -/

/-- The message is the final report of a fault with a code. -/
def IsReport (code : Int32) (m : Message) : Prop :=
  ∃ fault : Fault, ∃ id correlationId,
    fault.code = code ∧ m = (fault.toMessage id correlationId).setFinal true

/-- The code that a message reports, if it is a report. -/
def reportedCode? (m : Message) : Option Int32 :=
  match m.body with
  | ⟨.protocolException, some (_, code, _), _⟩ => some code
  | _ => none

theorem IsReport.reportedCode?_eq {code : Int32} {m : Message} (h : m.IsReport code) :
    m.reportedCode? = some code := by
  obtain ⟨fault, id, correlationId, rfl, rfl⟩ := h
  rfl

theorem IsReport.isPlural_eq {code : Int32} {m : Message} (h : m.IsReport code) :
    m.isPlural = false := by
  have hkind : Kind.protocolException.isPlural = false := by decide
  obtain ⟨fault, id, correlationId, -, rfl⟩ := h
  exact hkind

/-- What is sent for a message of a single part: itself if it fits, and otherwise a report that it was too
large. -/
def SentAs (limit : Option Nat) (m sent : Message) : Prop :=
  if m.fits limit then sent = m
  else ∃ id, sent = (Fault.maxSizeExceeded.toMessage id m.header.correlationId).setFinal true

theorem parts_of_not_plural (limit : Option Nat) {m : Message} (hplural : m.isPlural = false)
    (fresh : Fresh) :
    ∃ sent, SentAs limit m sent ∧ (m.parts limit fresh).1.map Part.message = [sent] := by
  unfold SentAs
  cases hfits : m.fits limit with
  | true =>
    refine ⟨m, rfl, ?_⟩
    rw [parts_of_fits hfits]
    rfl
  | false =>
    refine ⟨_, ⟨fresh.drawId.1, rfl⟩, ?_⟩
    rw [parts.eq_def]
    simp only [hfits, hplural, Bool.false_eq_true, Bool.not_false, if_false, if_true]
    rfl

/-- A report that is replaced reports its own code only if it has the code of the replacement. -/
theorem SentAs.reportedCode?_eq_iff {limit : Option Nat} {code : Int32} {report sent : Message}
    (h : SentAs limit report sent) (hreport : report.IsReport code) :
    sent.reportedCode? = some code ↔
      report.fits limit = true ∨ code = Fault.maxSizeExceeded.code := by
  unfold SentAs at h
  cases hfits : report.fits limit with
  | true =>
    rw [if_pos hfits] at h
    rw [h, hreport.reportedCode?_eq]
    simp
  | false =>
    rw [if_neg (by simp [hfits])] at h
    obtain ⟨id, rfl⟩ := h
    have hcode : reportedCode? ((Fault.maxSizeExceeded.toMessage id
        report.header.correlationId).setFinal true) = some Fault.maxSizeExceeded.code := rfl
    rw [hcode, Option.some.injEq]
    simp [eq_comm]

/-- If the reply is the report of a fault, then what is sent for it is a single frame; it reports this
fault if the reply fits, or if the replacement has the same code. -/
def SentFor (limit : Option Nat) (reply : Message) (frames : List Bytes) : Prop :=
  ∀ code, reply.IsReport code → ∃ sent, SentAs limit reply sent ∧ frames = [sent.encode] ∧
    (sent.reportedCode? = some code ↔ reply.fits limit = true ∨ code = Fault.maxSizeExceeded.code)

theorem frames_sentFor (limit : Option Nat) (reply : Message) (fresh : Fresh) :
    SentFor limit reply ((reply.parts limit fresh).1.map (fun p => p.message.encode)) := by
  intro code hreport
  obtain ⟨sent, hsent, hparts⟩ := parts_of_not_plural limit hreport.isPlural_eq fresh
  refine ⟨sent, hsent, ?_, hsent.reportedCode?_eq_iff hreport⟩
  rw [← List.map_singleton, ← hparts, List.map_map]
  rfl

/-- The frames of several messages are those of each of them, in the same order. -/
theorem partsAll_sentFor (limit : Option Nat) (replies : List Message) (fresh : Fresh) :
    ∃ sent : List (List Bytes),
      sent.flatten = (partsAll limit replies fresh).1.map (fun p => p.message.encode) ∧
      List.Forall₂ (SentFor limit) replies sent := by
  induction replies generalizing fresh with
  | nil => exact ⟨[], rfl, .nil⟩
  | cons reply replies ih =>
    obtain ⟨sent, hsent, hrest⟩ := ih (reply.parts limit fresh).2
    refine ⟨(reply.parts limit fresh).1.map (fun p => p.message.encode) :: sent, ?_, ?_⟩
    · rw [List.flatten_cons, hsent, ← List.map_append]
      rfl
    · exact .cons (frames_sentFor limit reply fresh) hrest

end Message

namespace Session

variable {σ : Type}

/-! ## Faults among the replies -/

/-- The codes of the faults that were reported. -/
def faultCodes (events : List Event) : List Int32 :=
  events.filterMap (fun
    | .faultReply code => some code
    | _ => none)

@[simp] theorem faultCodes_append (events later : List Event) :
    faultCodes (events ++ later) = faultCodes events ++ faultCodes later := List.filterMap_append

@[simp] theorem faultCodes_reassembled (events : List Event) :
    faultCodes (.reassembled :: events) = faultCodes events := rfl

theorem faultCodes_encodeAll (ms : List Message) (s : Session) :
    faultCodes (encodeAll ms s).2.1 = [] := by
  apply List.filterMap_eq_nil_iff.2
  intro e he
  rw [eq_outbound_of_mem_encodeAll he]

/-- Among the replies there is a report for each code, in the same order. -/
def Reported (codes : List Int32) (replies : List (Option Message)) : Prop :=
  SublistForall₂ Message.IsReport codes (replies.filterMap (fun reply => reply))

theorem Reported.behind {codes : List Int32} {replies : List (Option Message)}
    (h : Reported codes replies) (earlier : List (Option Message)) :
    Reported codes (earlier ++ replies) := by
  unfold Reported
  rw [List.filterMap_append]
  exact sublistForall₂_append .nil h

/-- The faults that a turn reports are among its replies; a session that fails reports none. -/
def Told (turn : Turn σ Replies) : Prop :=
  Reported (faultCodes turn.events) (turn.result.toOption.getD [])

theorem isReport_report (s : Session) (fault : Fault) (correlationId : Int64) :
    (s.report fault correlationId).1.IsReport fault.code :=
  ⟨fault, _, correlationId, rfl, rfl⟩

theorem told_reportOnly (s : Session) (world : σ) (fault : Fault) (correlationId : Int64) :
    Told (s.reportOnly world fault correlationId) :=
  .cons (s.isReport_report fault correlationId) .nil

theorem reported_answer (request : Header) (items : List Item) (s : Session) :
    Reported (faultCodes (answer request items s).2.1) (answer request items s).1 := by
  induction items generalizing s with
  | nil => exact .nil
  | cons item items ih =>
    match item with
    | .ok (some reply) => exact .cons_right (ih s.drawId.2)
    | .ok none => exact ih s
    | .error fault => exact .cons (s.isReport_report fault request.messageId) .nil

theorem told_dispatch (registry : Registry σ) (s : Session) (world : σ) (m : Message) :
    Told (dispatch registry s world m) := by
  unfold dispatch
  split
  case h_1 => exact told_reportOnly s world _ _
  case h_2 handler _ =>
    let informed := { s with peer := (handler m.body m.header s.peer world).peer }
    simp only
    split
    case h_1 fault _ => exact told_reportOnly informed world fault m.header.messageId
    case h_2 response _ => exact reported_answer m.header response.items informed

theorem told_receive {onward : Session → σ → Message → Turn σ Replies} (s : Session) (world : σ)
    (m : Message) (honward : ∀ t, Told (onward t world m)) : Told (receive onward s world m) := by
  unfold receive
  split
  · exact told_reportOnly s world _ 0
  · simp only
    split
    · exact .nil
    · have htold := honward ((s.acknowledge m).2.openBy m.body)
      unfold Told at htold ⊢
      cases hresult : (onward ((s.acknowledge m).2.openBy m.body) world m).result with
      | error e =>
        rw [hresult] at htold
        exact htold
      | ok replies =>
        rw [hresult] at htold
        exact htold.behind (s.acknowledge m).1

/-- The reports for absent replies are held back in their order, and no reply is lost. -/
theorem deferAbsent_reported (id : Int64) (replies : List (Option Message)) (s : Session) :
    ∃ reports : List Message,
      (deferAbsent id replies s).2.2.deferred = s.deferred ++ reports.map (id, ·) ∧
      SublistForall₂ Message.IsReport (faultCodes (deferAbsent id replies s).2.1) reports ∧
      (deferAbsent id replies s).1.filterMap (fun reply => reply) =
        replies.filterMap (fun reply => reply) := by
  induction replies generalizing s with
  | nil => exact ⟨[], by simp [deferAbsent], .nil, rfl⟩
  | cons reply replies ih =>
    cases reply with
    | some reply =>
      obtain ⟨reports, hdeferred, hreports, hkept⟩ := ih s
      exact ⟨reports, hdeferred, hreports, congrArg (List.cons reply) hkept⟩
    | none =>
      let reported := s.report .invalidMessage 0
      obtain ⟨reports, hdeferred, hreports, hkept⟩ := ih (reported.2.defer id reported.1)
      refine ⟨reported.1 :: reports, ?_, .cons (s.isReport_report .invalidMessage 0) hreports, hkept⟩
      simp only [deferAbsent]
      rw [hdeferred]
      simp only [defer, List.append_assoc, List.map_cons, List.singleton_append]
      rfl

/-- The reports for absent replies follow the replies. -/
theorem Reported.deferAbsent {codes : List Int32} {replies : List (Option Message)}
    (h : Reported codes replies) (id : Int64) (s : Session) :
    let held := Session.deferAbsent id replies s
    Reported (codes ++ faultCodes held.2.1) (held.1 ++ (held.2.2.deferredFor id).map some) := by
  intro held
  obtain ⟨reports, hdeferred, hreports, hkept⟩ := deferAbsent_reported id replies s
  -- What was held back before comes first; it belongs to faults of earlier inputs.
  have hown : held.2.2.deferredFor id = s.deferredFor id ++ reports := by
    rw [deferredFor, hdeferred]
    simp [deferredFor, List.filter_map, Function.comp_def]
  unfold Reported
  rw [hown, List.filterMap_append, hkept, List.filterMap_map]
  apply sublistForall₂_append h
  simp only [Function.comp_def, List.filterMap_some]
  exact sublistForall₂_append .nil hreports

theorem told_complete (registry : Registry σ) (s : Session) (world : σ) (id : Int64) :
    Told (complete registry s world id) := by
  unfold complete
  simp only
  split
  · exact .nil
  · rename_i m _
    have hturn := told_receive { s with assemblies := s.assemblies.erase id } world (whole m)
      (fun t => told_dispatch registry t world (whole m))
    unfold Told at hturn
    split
    · rename_i e he
      rw [he] at hturn
      exact hturn
    · rename_i replies hreplies
      rw [hreplies] at hturn
      unfold Told
      simp only [List.cons_append, faultCodes_reassembled, faultCodes_append]
      exact hturn.deferAbsent id _

theorem told_route (registry : Registry σ) (now : Nat) (s : Session) (world : σ) (m : Message) :
    Told (route registry now s world m) := by
  unfold route
  split
  · unfold collect
    simp only
    split
    · exact told_reportOnly s world .limitExceeded _
    · split
      · exact told_complete registry _ world m.exchangeId
      · exact .nil
  · exact told_dispatch registry s world m

theorem told_process (registry : Registry σ) (now : Nat) (s : Session) (world : σ)
    (input : Option Message) : Told (process registry now s world input) := by
  cases input with
  | none => exact told_reportOnly s world .invalidMessage 0
  | some m => exact told_receive s world m (fun t => told_route registry now t world m)

/-- Among the replies to an input there is a report for each fault that was reported. -/
theorem told_handleMessage (registry : Registry σ) (now : Nat) (s : Session) (world : σ)
    (input : Option Message) :
    let turn := handleMessage registry now s world input
    SublistForall₂ Message.IsReport (faultCodes turn.events) (turn.result.toOption.getD []) := by
  have htold := told_process registry now s world input
  unfold Told Reported at htold
  simp only [handleMessage]
  cases hresult : (process registry now s world input).result with
  | error e =>
    rw [hresult] at htold
    exact htold
  | ok replies =>
    rw [hresult] at htold
    exact htold

/-! ## Faults among the frames -/

/-- Among the replies to a frame there is a report for each fault that the session reports, in the same
order; a session that fails has reported none.  The frames that it returns are those of its replies, one
reply after the other, and a reply that is a report is sent as one frame.  This is the report itself if it
fits the limit in force, or a report with its code if the fault is that a message was too large.
Otherwise it is a report of the latter in its place. -/
theorem reports_sent (registry : Registry σ) (now : Nat) (s : Session) (world : σ) (frame : Bytes) :
    let replies := (handleMessage registry now s world (incoming frame)).result.toOption.getD []
    let turn := handleFrame registry now s world frame
    let limit := turn.session.peer.capabilities.maxFrameSize
    SublistForall₂ Message.IsReport (faultCodes turn.events) replies ∧
      ∃ sent : List (List Bytes), sent.flatten = turn.result.toOption.getD [] ∧
        List.Forall₂ (Message.SentFor limit) replies sent := by
  have htold := told_handleMessage registry now s world (incoming frame)
  rw [handleFrame_eq]
  generalize handleMessage registry now s world (incoming frame) = answered at *
  unfold Turn.encoded
  cases hresult : answered.result with
  | error e =>
    simp only [hresult] at htold
    exact ⟨htold, [], rfl, .nil⟩
  | ok replies =>
    obtain ⟨hframes, hsession⟩ := encodeAll_eq replies answered.session
    simp only [hresult] at htold
    simp only [hsession, hframes, faultCodes_append, faultCodes_encodeAll, List.append_nil]
    exact ⟨htold, Message.partsAll_sentFor _ replies answered.session.fresh⟩

/-- A server whose frames hold next to nothing. -/
def tightServer : Session :=
  Session.start (Settings.default.withCapability Capability.maxWebSocketMessagePayloadSize.name (.long 25))
    1 Message.countingFresh.blobs

/-- A frame that cannot be read is reported as such, but what is sent is that a message was too large. -/
theorem replaced_report :
    let turn := handleFrame countingRegistry 0 tightServer 0 [255]
    tightServer.Reachable ∧ faultCodes turn.events = [Fault.invalidMessage.code] ∧
      ∃ frames, turn.result = .ok frames ∧
        frames.map (fun f => (incoming f).bind Message.reportedCode?) =
          [some Fault.maxSizeExceeded.code] := by
  intro turn
  refine ⟨.start _ _ _, by decide +kernel, turn.result.toOption.getD [], ?_, by decide +kernel⟩
  rfl

end Session

end Etp
