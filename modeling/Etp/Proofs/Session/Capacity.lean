import Etp.Proofs.Session.Delivery
import Etp.Proofs.Session.Failure
import Etp.Proofs.Session.Numbering

/-!
# How many exchanges are under way

A session puts together at most so many exchanges at a time.  The limit is the one in force when an input
arrives: what the input does to the peer counts for the next one.  Exchanges that are under way are not
given up when the limit is lowered, so there may be more of them than the limit allows, but no new one
begins as long as this is so (`assemblies_capped`).
-/

namespace Etp

namespace Assemblies

theorem size_filter_le (as : Assemblies) (keep : Assembly → Bool) : (as.filter keep).size ≤ as.size :=
  List.length_filter_le keep as.toList

/-- Only a part of an exchange without an assembly makes one more. -/
theorem size_push (as : Assemblies) (id : Int64) (part : Message) (now : Nat) :
    (as.push id part now).size = if as.contains id then as.size else as.size + 1 := by
  cases hcontains : as.contains id with
  | true => simp [size, toList_push_of_contains hcontains]
  | false => simp [size, toList_push_of_not_contains hcontains]

end Assemblies

namespace Session

variable {σ : Type}

/-- The number of exchanges that the session may put together at a time. -/
def capacity (s : Session) : Nat := s.peer.capabilities.maxConcurrentMultipart

/-! ## The number of assemblies -/

theorem size_heldAfter_le (now : Nat) (s : Session) (input : Option Message) :
    (s.heldAfter now input).size ≤ max s.assemblies.size s.capacity := by
  match input with
  | none => exact Nat.le_max_left _ _
  | some p =>
    simp only [heldAfter]
    by_cases htakes : s.Takes p
    · rw [if_pos htakes]
      cases p.isFinal with
      | true => exact Nat.le_trans (s.assemblies.size_filter_le _) (Nat.le_max_left _ _)
      | false =>
        rw [if_neg Bool.false_ne_true, Assemblies.size_push]
        rcases htakes.admitted with hcontains | hroom
        · rw [if_pos hcontains]
          exact Nat.le_max_left _ _
        · have hroom : s.assemblies.size < s.capacity := hroom
          split
          · exact Nat.le_max_left _ _
          · omega
    · rw [if_neg htakes]
      exact Nat.le_max_left _ _

theorem size_handleMessage_le (registry : Registry σ) (now : Nat) (s : Session) (world : σ)
    (input : Option Message) :
    (handleMessage registry now s world input).session.assemblies.size ≤
      max s.assemblies.size s.capacity := by
  rw [assemblies_handleMessage]
  exact size_heldAfter_le now s input

/-- The highest of the limits in force at the inputs of a run. -/
def highestCapacity (registry : Registry σ) : List (Nat × Option Message) → Session → σ → Nat
  | [], _, _ => 0
  | (now, input) :: inputs, s, world =>
    let turn := handleMessage registry now s world input
    max s.capacity (highestCapacity registry inputs turn.session turn.world)

/-- A run exceeds the limits that are in force in it only if it begins with more. -/
theorem size_feed_le (registry : Registry σ) (inputs : List (Nat × Option Message)) (s : Session)
    (world : σ) :
    (feed (handleMessage registry) inputs s world).session.assemblies.size ≤
      max s.assemblies.size (highestCapacity registry inputs s world) := by
  induction inputs generalizing s world with
  | nil => exact Nat.le_max_left _ _
  | cons input inputs ih =>
    obtain ⟨now, input⟩ := input
    have hstep := size_handleMessage_le registry now s world input
    have hrun := ih (handleMessage registry now s world input).session
      (handleMessage registry now s world input).world
    simp only [feed, highestCapacity]
    omega

/-! ## The turn of a part -/

/-- The replies that acknowledge a message, if it asks for this. -/
def Acknowledges (p : Message) (replies : List Message) : Prop :=
  if p.wantsAcknowledge then
    ∃ id, replies = [((Message.ofBody ⟨.acknowledge, ()⟩).withId id).withCorrelation p.header.messageId]
  else replies = []

/-- A turn that ends with the given replies and assemblies.  The identifiers of the replies are drawn, no
handler is called, and nothing else changes. -/
structure Leaves (s : Session) (world : σ) (as : Assemblies) (replies : List Message)
    (turn : Turn σ (Except ConnectionError (List Message))) : Prop where
  session_eq : ∃ ids, s.fresh.ids.Draws (replies.map (·.header.messageId)) ids ∧
    turn.session = { s with fresh := { s.fresh with ids := ids }, assemblies := as }
  world_eq : turn.world = world
  calls_eq : calls turn.events = []
  result_eq : turn.result = .ok replies

theorem acknowledge_of_collected (s : Session) {p : Message} (h : isCollected p = true) :
    ∃ acks ids, Acknowledges p acks ∧ s.fresh.ids.Draws (acks.map (·.header.messageId)) ids ∧
      s.acknowledge p = (acks.map some, { s with fresh := { s.fresh with ids := ids } }) := by
  have hkind := not_acknowledge_of_isCollected h
  unfold acknowledge Acknowledges
  cases p.wantsAcknowledge with
  | false => exact ⟨[], s.fresh.ids, rfl, .refl _, rfl⟩
  | true =>
    rw [if_pos (by simpa using hkind)]
    exact ⟨_, _, ⟨s.fresh.drawId.1, rfl⟩, .draw s.fresh.ids, rfl⟩

/-- A part that is taken and is not the final one is held. -/
theorem leaves_of_takes (registry : Registry σ) (now : Nat) {s : Session} (world : σ) {p : Message}
    (htakes : s.Takes p) (hfinal : p.isFinal = false) :
    ∃ acks, Acknowledges p acks ∧
      Leaves s world (s.assemblies.push p.exchangeId p now) acks
        (handleMessage registry now s world (some p)) := by
  obtain ⟨acks, ids, hacks, hdraws, hacknowledged⟩ := s.acknowledge_of_collected htakes.collected
  refine ⟨acks, hacks, ?_⟩
  rw [handleMessage_taking registry now world htakes, hacknowledged]
  simp only [hfinal, Bool.false_eq_true, if_false, holding]
  refine ⟨⟨ids, hdraws, rfl⟩, rfl, rfl, ?_⟩
  simp [Turn.present, Except.map, List.filterMap_map]

/-- A part that finds no room is answered with the report of that, behind its acknowledgement. -/
theorem leaves_of_full (registry : Registry σ) (now : Nat) {s : Session} (world : σ) {p : Message}
    (hgate : s.gate p = none) (hcollected : isCollected p = true)
    (hnew : s.assemblies.contains p.exchangeId = false) (hfull : ¬ s.HasRoom) :
    ∃ acks id, Acknowledges p acks ∧
      Leaves s world s.assemblies
        (acks ++ [(Fault.limitExceeded.toMessage id p.exchangeId).setFinal true])
        (handleMessage registry now s world (some p)) := by
  obtain ⟨acks, ids, hacks, hdraws, hacknowledged⟩ := s.acknowledge_of_collected hcollected
  refine ⟨acks, ids.draw.1, hacks, ?_⟩
  rw [handleMessage_full registry now world hgate hcollected hnew hfull, hacknowledged]
  refine ⟨⟨ids.draw.2, ?_, rfl⟩, rfl, rfl, ?_⟩
  · rw [List.map_append]
    exact hdraws.append (.draw ids)
  · simp [Turn.present, Except.map, List.filterMap_map, reportOnly, report, drawId, Fresh.drawId]

/-- The turn of a final part: its exchange is over, and what is held of it and the part itself make a
message, which is received as if it had come whole.  Without a referencer the session fails. -/
def Concludes (registry : Registry σ) (s : Session) (world : σ) (p : Message)
    (turn : Turn σ (Except ConnectionError (List Message))) : Prop :=
  let rest := s.assemblies.erase p.exchangeId
  turn.session.assemblies = rest ∧
    match Message.reassemble (s.assemblies.parts p.exchangeId ++ [p]) with
    | none => turn.result = .error (.missingReferencer p.exchangeId) ∧ calls turn.events = []
    | some m => ∃ ids replies,
      let received := receive (dispatch registry)
        { s with fresh := { s.fresh with ids := ids }, assemblies := rest } world (whole m)
      turn.result = .ok replies ∧ turn.world = received.world ∧
        calls turn.events = calls received.events

theorem concludes_of_takes (registry : Registry σ) (now : Nat) {s : Session} (world : σ) {p : Message}
    (htakes : s.Takes p) (hfinal : p.isFinal = true) :
    Concludes registry s world p (handleMessage registry now s world (some p)) := by
  have hheld := assemblies_taking registry now world htakes
  rw [hfinal, if_pos rfl] at hheld
  refine ⟨hheld, ?_⟩
  obtain ⟨acks, ids, -, -, hacknowledged⟩ := s.acknowledge_of_collected htakes.collected
  have hpushed := s.assemblies.parts_push p.exchangeId p now
  rw [handleMessage_taking registry now world htakes, hacknowledged]
  simp only [hfinal, if_true, holding]
  cases hparts : Message.reassemble (s.assemblies.parts p.exchangeId ++ [p]) with
  | none =>
    simp only [complete, hpushed, hparts]
    exact ⟨rfl, rfl⟩
  | some m =>
    rw [← hpushed] at hparts
    obtain ⟨⟨replies, hresult⟩, hworld, hcalls⟩ := complete_received registry
      (s := { s with
        fresh := { s.fresh with ids := ids }, assemblies := s.assemblies.push p.exchangeId p now })
      world hparts
    rw [holding, Assemblies.erase_push] at hworld hcalls
    refine ⟨ids, (acks.map some ++ replies).filterMap (fun reply => reply), ?_, hworld, hcalls⟩
    simp only [Turn.present, hresult, Except.map]

/-! ## The limit -/

/-- After an input there are no more assemblies than before it, or than the limit in force at the time
allows.  A part of an exchange that is under way is taken, whatever the limit is: it is held, and the final
part concludes the exchange.  A part that would begin an exchange beyond the limit leaves everything as it
is; behind an acknowledgement, if it asks for one, it is answered with the final report that there are too
many exchanges. -/
theorem assemblies_capped (registry : Registry σ) (now : Nat) (s : Session) (world : σ)
    (input : Option Message) :
    let turn := handleMessage registry now s world input
    turn.session.assemblies.size ≤ max s.assemblies.size s.capacity ∧
      (∀ frame, incoming frame = input →
        (handleFrame registry now s world frame).session.assemblies = turn.session.assemblies) ∧
      ∀ p, input = some p → s.gate p = none → isCollected p = true →
        (s.assemblies.contains p.exchangeId = true →
          if p.isFinal then Concludes registry s world p turn
          else ∃ acks, Acknowledges p acks ∧
            Leaves s world (s.assemblies.push p.exchangeId p now) acks turn) ∧
        (s.assemblies.contains p.exchangeId = false → s.capacity ≤ s.assemblies.size →
          ∃ acks id, Acknowledges p acks ∧ Leaves s world s.assemblies
            (acks ++ [(Fault.limitExceeded.toMessage id p.exchangeId).setFinal true]) turn) := by
  intro turn
  refine ⟨size_handleMessage_le registry now s world input, ?_, ?_⟩
  · rintro frame rfl
    obtain ⟨⟨fresh, hsession⟩, -⟩ := handleFrame_advances registry now s world frame
    rw [hsession]
  · rintro p rfl hgate hcollected
    constructor
    · intro hcontains
      have htakes : s.Takes p := ⟨hgate, hcollected, .inl hcontains⟩
      split
      case isTrue hfinal => exact concludes_of_takes registry now world htakes hfinal
      case isFalse hfinal =>
        exact leaves_of_takes registry now world htakes (Bool.eq_false_iff.2 hfinal)
    · intro hnew hfull
      exact leaves_of_full registry now world hgate hcollected hnew (Nat.not_lt.2 hfull)

/-- There is one place, and it is taken.  The final part of the exchange that has it concludes this
exchange; the part of another one is turned away, behind the acknowledgement for which it asks. -/
theorem assemblies_capped_narrowSession :
    let own := (keyedParts 4 "a" (Message.countingFresh.blobs.nth 1) [1, 2] true).2
    let other := lateParts.1.addFlags .acknowledge
    narrowSession.Reachable ∧ narrowSession.capacity = 1 ∧ narrowSession.assemblies.size = 1 ∧
      Concludes countingRegistry narrowSession 0 own
        (handleMessage countingRegistry 20 narrowSession 0 (some own)) ∧
      ∃ ack id, Acknowledges other [ack] ∧
        Leaves narrowSession 0 narrowSession.assemblies
          [ack, (Fault.limitExceeded.toMessage id 6).setFinal true]
          (handleMessage countingRegistry 20 narrowSession 0 (some other)) := by
  intro own other
  have hreachable : narrowSession.Reachable :=
    .handled countingRegistry 10 0 _ (.handled countingRegistry 0 0 _ (.start _ 1 _))
  obtain ⟨-, -, hown⟩ := assemblies_capped countingRegistry 20 narrowSession 0 (some own)
  obtain ⟨-, -, hother⟩ := assemblies_capped countingRegistry 20 narrowSession 0 (some other)
  obtain ⟨hconcludes, -⟩ := hown own rfl (by decide +kernel) (by decide +kernel)
  obtain ⟨-, haway⟩ := hother other rfl (by decide +kernel) (by decide +kernel)
  have hconcludes := hconcludes (by decide +kernel)
  obtain ⟨acks, id, hacks, hleaves⟩ := haway (by decide +kernel) (by decide +kernel)
  refine ⟨hreachable, by decide +kernel, by decide +kernel, ?_, ?_⟩
  · rwa [if_pos (by decide +kernel)] at hconcludes
  · have hwants : other.wantsAcknowledge = true := by decide +kernel
    have hid : other.exchangeId = 6 := by decide +kernel
    obtain ⟨ackId, rfl⟩ : ∃ id, acks = [((Message.ofBody ⟨.acknowledge, ()⟩).withId
        id).withCorrelation other.header.messageId] := by
      rwa [Acknowledges, if_pos hwants] at hacks
    rw [hid] at hleaves
    exact ⟨_, id, hacks, hleaves⟩

end Session

end Etp
