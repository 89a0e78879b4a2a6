import Etp.Proofs.Session.Interleaving

/-!
# What a session holds of its exchanges

A session takes a part if the gates let it pass and its exchange has an assembly or finds room for one.
Nothing else changes the assemblies: `assemblies_handleMessage` says what every input makes of them, and
handlers have no part in it.  So what is held of an exchange after a run can be read off the parts that
were taken (`parts_feed`), and the final one puts together what was held and itself
(`handleMessage_completes`).
-/

namespace Etp

namespace Assemblies

theorem parts_of_not_contains {as : Assemblies} {id : Int64} (h : as.contains id = false) :
    as.parts id = [] := (Collecting.start h).parts_eq

@[simp] theorem parts_erase (as : Assemblies) (id : Int64) : (as.erase id).parts id = [] :=
  parts_of_not_contains (as.contains_erase id)

theorem contains_erase_of_ne (as : Assemblies) {id other : Int64} (h : id ≠ other) :
    (as.erase other).contains id = as.contains id := by
  rw [Bool.eq_iff_iff]
  simp only [contains, toList_erase, List.any_eq_true, List.mem_filter, beq_iff_eq]
  constructor
  · rintro ⟨a, ⟨ha, -⟩, hid⟩
    exact ⟨a, ha, hid⟩
  · rintro ⟨a, ha, hid⟩
    refine ⟨a, ⟨ha, ?_⟩, hid⟩
    simpa [hid] using h

theorem contains_push_of_ne (as : Assemblies) {id other : Int64} (h : id ≠ other) (part : Message)
    (now : Nat) : (as.push other part now).contains id = as.contains id := by
  cases hcontains : as.contains other with
  | true =>
    rw [contains, contains, toList_push_of_contains hcontains, List.any_map]
    simp [Function.comp_def]
  | false =>
    have hnew : (other == id) = false := by simpa using Ne.symm h
    simp [contains, toList_push_of_not_contains hcontains, hnew]

end Assemblies

namespace Session

variable {σ : Type}

/-! ## Parts that are taken -/

/-- The session puts the message to the parts of its exchange. -/
structure Takes (s : Session) (p : Message) : Prop where
  gate_eq : s.gate p = none
  collected : isCollected p = true
  admitted : s.assemblies.contains p.exchangeId = true ∨ s.HasRoom

instance (s : Session) : Decidable s.HasRoom := Nat.decLt _ _

instance (s : Session) (p : Message) : Decidable (s.Takes p) :=
  decidable_of_iff (s.gate p = none ∧ isCollected p = true ∧
    (s.assemblies.contains p.exchangeId = true ∨ s.HasRoom))
    ⟨fun h => ⟨h.1, h.2.1, h.2.2⟩, fun h => ⟨h.gate_eq, h.collected, h.admitted⟩⟩

/-- The assemblies after an input: a part that is taken is held, and the final one ends its assembly. -/
def heldAfter (now : Nat) (s : Session) : Option Message → Assemblies
  | none => s.assemblies
  | some p =>
    if s.Takes p then
      if p.isFinal then s.assemblies.erase p.exchangeId else s.assemblies.push p.exchangeId p now
    else s.assemblies

theorem assemblies_dispatch (registry : Registry σ) (s : Session) (world : σ) (m : Message) :
    (dispatch registry s world m).session.assemblies = s.assemblies := by
  obtain ⟨peer, fresh, hsession⟩ := dispatch_informs registry s world m
  rw [hsession]

/-- A message that is not collected leaves the assemblies alone, whatever else it does. -/
theorem assemblies_receive (registry : Registry σ) (s : Session) (world : σ) (m : Message) :
    (receive (dispatch registry) s world m).session.assemblies = s.assemblies := by
  refine receive_preserves (P := fun t => t.assemblies = s.assemblies) ?_ ?_ ?_ ?_ world m rfl
  · exact fun _ _ h => h
  · exact fun _ h => h
  · exact fun _ _ h => h
  · exact fun t world m h => (assemblies_dispatch registry t world m).trans h

/-- Whatever becomes of the whole message, its parts are held no longer. -/
theorem assemblies_complete (registry : Registry σ) (s : Session) (world : σ) (id : Int64) :
    (complete registry s world id).session.assemblies = s.assemblies.erase id := by
  rcases session_complete registry s world id with ⟨deferred, hsession⟩ |
    ⟨m, fresh, deferred, hsession⟩
  · rw [hsession]
  · rw [hsession]
    exact assemblies_receive registry (s.holding (s.assemblies.erase id)) world (whole m)

/-! ## One part -/

theorem Takes.admits {s : Session} {p : Message} (h : s.Takes p) : s.Admits p :=
  admits_of_gate h.gate_eq (not_core_of_isCollected h.collected)

/-- The turn of a part that is taken: it is put to the others, and the final one completes them. -/
theorem handleMessage_taking (registry : Registry σ) (now : Nat) {s : Session} (world : σ) {p : Message}
    (h : s.Takes p) :
    handleMessage registry now s world (some p) =
      let t := (s.acknowledge p).2
      let u := t.holding (t.assemblies.push p.exchangeId p now)
      let turn : Turn σ Replies :=
        if p.isFinal then complete registry u world p.exchangeId else ⟨u, world, [], .ok []⟩
      Turn.present { turn with
        events := .inbound :: turn.events
        result := turn.result.map ((s.acknowledge p).1 ++ ·) } := by
  rw [handleMessage_eq,
    receive_collecting registry now world h.admits h.collected (admitted_of_room h.admitted)]

/-- A part that would begin an exchange where there is no room for one is reported. -/
theorem route_full (registry : Registry σ) (now : Nat) {s : Session} (world : σ) {p : Message}
    (hcollected : isCollected p = true) (hnew : s.assemblies.contains p.exchangeId = false)
    (hfull : ¬ s.HasRoom) :
    route registry now s world p = s.reportOnly world .limitExceeded p.exchangeId := by
  have hlimit : s.peer.capabilities.maxConcurrentMultipart ≤ s.assemblies.size := by
    simpa [HasRoom] using hfull
  rw [route, if_pos hcollected, collect]
  simp [hnew, hlimit]

/-- The turn of a part that passes the gates while its exchange has no assembly and finds no room. -/
theorem handleMessage_full (registry : Registry σ) (now : Nat) {s : Session} (world : σ) {p : Message}
    (hgate : s.gate p = none) (hcollected : isCollected p = true)
    (hnew : s.assemblies.contains p.exchangeId = false) (hfull : ¬ s.HasRoom) :
    handleMessage registry now s world (some p) =
      let turn : Turn σ Replies :=
        (s.acknowledge p).2.reportOnly world .limitExceeded p.exchangeId
      Turn.present { turn with
        events := .inbound :: turn.events
        result := turn.result.map ((s.acknowledge p).1 ++ ·) } := by
  have hadmits := admits_of_gate hgate (not_core_of_isCollected hcollected)
  have hroute : route registry now (s.acknowledge p).2 world p =
      (s.acknowledge p).2.reportOnly world .limitExceeded p.exchangeId := by
    obtain ⟨fresh, hacknowledged⟩ := s.acknowledge_advances p
    rw [hacknowledged]
    exact route_full registry now (s := { s with fresh := fresh }) world hcollected hnew hfull
  rw [handleMessage_eq, receive_of_admits _ world hadmits, hroute]

theorem assemblies_taking (registry : Registry σ) (now : Nat) {s : Session} (world : σ) {p : Message}
    (h : s.Takes p) :
    (handleMessage registry now s world (some p)).session.assemblies =
      if p.isFinal then s.assemblies.erase p.exchangeId else s.assemblies.push p.exchangeId p now := by
  obtain ⟨fresh, hacknowledged⟩ := s.acknowledge_advances p
  rw [handleMessage_taking registry now world h, hacknowledged]
  cases p.isFinal with
  | true =>
    simp only [Turn.present, if_true, assemblies_complete, holding]
    exact Assemblies.erase_push _ _ _ _
  | false => rfl

/-- A message is not taken if a gate turns it away, if it would begin an exchange where there is no room for
one, or if it is no part. -/
theorem not_takes_cases {s : Session} {p : Message} (h : ¬ s.Takes p) :
    (∃ fault, s.gate p = some fault) ∨
      (s.gate p = none ∧ isCollected p = true ∧ s.assemblies.contains p.exchangeId = false ∧
        ¬ s.HasRoom) ∨
      isCollected p = false := by
  cases hgate : s.gate p with
  | some fault => exact .inl ⟨fault, rfl⟩
  | none =>
    right
    cases hcollected : isCollected p with
    | false => exact .inr rfl
    | true =>
      have hout : ¬ (s.assemblies.contains p.exchangeId = true ∨ s.HasRoom) :=
        fun hadmitted => h ⟨hgate, hcollected, hadmitted⟩
      rw [not_or, Bool.not_eq_true] at hout
      exact .inl ⟨rfl, rfl, hout⟩

theorem assemblies_not_taking (registry : Registry σ) (now : Nat) {s : Session} (world : σ)
    {p : Message} (h : ¬ s.Takes p) :
    (handleMessage registry now s world (some p)).session.assemblies = s.assemblies := by
  rcases not_takes_cases h with ⟨fault, hgate⟩ | ⟨hgate, hcollected, hnew, hfull⟩ | hcollected
  · rw [handleMessage_eq, receive_refused _ world hgate]
    rfl
  · obtain ⟨fresh, hacknowledged⟩ := s.acknowledge_advances p
    rw [handleMessage_full registry now world hgate hcollected hnew hfull, hacknowledged]
    rfl
  · rw [handleMessage_eq, receive_not_collected registry now s world hcollected]
    exact assemblies_receive registry s world p

/-- Every input makes of the assemblies what the session takes of it. -/
theorem assemblies_handleMessage (registry : Registry σ) (now : Nat) (s : Session) (world : σ)
    (input : Option Message) :
    (handleMessage registry now s world input).session.assemblies = s.heldAfter now input := by
  match input with
  | none => rfl
  | some p =>
    simp only [heldAfter]
    by_cases htakes : s.Takes p
    · rw [if_pos htakes, assemblies_taking registry now world htakes]
    · rw [if_neg htakes, assemblies_not_taking registry now world htakes]

/-! ## The final part -/

/-- A turn that makes a message of the parts of an exchange: its handler is called, or the session fails
for want of a referencer. -/
def Completes {α : Type} (registry : Registry σ) (id : Int64) (parts : List Message)
    (turn : Turn σ (Except ConnectionError α)) : Prop :=
  match Message.reassemble parts with
  | some m => calls turn.events = called registry (whole m) ∧ ∃ a, turn.result = .ok a
  | none => calls turn.events = [] ∧ turn.result = .error (.missingReferencer id)

theorem dispatch_calls (registry : Registry σ) (s : Session) (world : σ) (m : Message) :
    ∃ peer, ∀ fresh, Dispatched { s with fresh := fresh } peer (called registry m)
      (dispatch registry { s with fresh := fresh } world m) := by
  unfold called
  cases hhandler : registry.find? m.header.protocol with
  | none =>
    exact ⟨s.peer, fun fresh => dispatch_unregistered { s with fresh := fresh } world hhandler⟩
  | some handler =>
    exact ⟨(handler m.body m.header s.peer world).peer,
      fun fresh => dispatch_handled { s with fresh := fresh } world hhandler⟩

theorem complete_completes (registry : Registry σ) {s : Session} (world : σ) (hopen : s.Open)
    (id : Int64) :
    Completes registry id (s.assemblies.parts id) (complete registry s world id) := by
  unfold Completes
  cases hparts : Message.reassemble (s.assemblies.parts id) with
  | none =>
    simp only [complete, hparts]
    exact ⟨rfl, trivial⟩
  | some m =>
    have hcore := Message.not_core_of_reassemble hparts
    have hadmits : (s.holding (s.assemblies.erase id)).Admits (whole m) :=
      (hopen.holding _).admits_of_not_core hcore
    obtain ⟨peer, hdispatch⟩ :=
      dispatch_calls registry (s.holding (s.assemblies.erase id)) world (whole m)
    exact (complete_dispatched hparts (receive_dispatched hadmits hdispatch)).2

/-- The final part that an open session takes completes the parts that are held. -/
theorem handleMessage_completes (registry : Registry σ) (now : Nat) {s : Session} (world : σ)
    (hopen : s.Open) {p : Message} (htakes : s.Takes p) (hfinal : p.isFinal = true) :
    Completes registry p.exchangeId (s.assemblies.parts p.exchangeId ++ [p])
      (handleMessage registry now s world (some p)) := by
  obtain ⟨fresh, hacknowledged⟩ := s.acknowledge_advances p
  have hheld := s.assemblies.parts_push p.exchangeId p now
  have hcomplete := complete_completes registry
    (s := { s with fresh := fresh, assemblies := s.assemblies.push p.exchangeId p now }) world
    ⟨hopen.connected, hopen.authorized⟩ p.exchangeId
  rw [handleMessage_taking registry now world htakes, hacknowledged]
  simp only [hheld] at hcomplete
  simp only [hfinal, if_true, holding]
  unfold Completes at hcomplete ⊢
  split at hcomplete
  case h_1 m hparts =>
    obtain ⟨hcalls, replies, hresult⟩ := hcomplete
    simp only [Turn.present, hresult]
    exact ⟨hcalls, _, rfl⟩
  case h_2 hparts =>
    obtain ⟨hcalls, hresult⟩ := hcomplete
    simp only [Turn.present, hresult]
    exact ⟨hcalls, rfl⟩

/-! ## Runs -/

/-- The parts of an exchange that are held after one more was taken. -/
def keep (held : List Message) (p : Message) : List Message := if p.isFinal then [] else held ++ [p]

/-- The parts of an exchange that a session takes in a run. -/
def taken (registry : Registry σ) (id : Int64) :
    List (Nat × Option Message) → Session → σ → List Message
  | [], _, _ => []
  | (now, input) :: inputs, s, world =>
    let turn := handleMessage registry now s world input
    input.toList.filter (fun p => p.exchangeId = id ∧ s.Takes p) ++
      taken registry id inputs turn.session turn.world

/-- One input changes what is held of an exchange by the part of it that is taken. -/
theorem parts_heldAfter (id : Int64) (now : Nat) (s : Session) (input : Option Message) :
    (s.heldAfter now input).parts id =
      (input.toList.filter (fun p => p.exchangeId = id ∧ s.Takes p)).foldl keep
        (s.assemblies.parts id) := by
  match input with
  | none => rfl
  | some p =>
    simp only [heldAfter, Option.toList_some]
    by_cases htakes : s.Takes p
    · rw [if_pos htakes]
      by_cases hid : p.exchangeId = id
      · subst hid
        simp only [htakes, and_self, decide_true, List.filter_cons_of_pos, List.filter_nil,
          List.foldl_cons, List.foldl_nil, keep]
        split
        · exact Assemblies.parts_erase _ _
        · exact Assemblies.parts_push _ _ _ _
      · rw [List.filter_cons_of_neg (by simp [hid])]
        split
        · exact Assemblies.parts_erase_of_ne _ (Ne.symm hid)
        · exact Assemblies.parts_push_of_ne _ (Ne.symm hid) _ _
    · rw [if_neg htakes, List.filter_cons_of_neg (by simp [htakes])]
      rfl

/-- What is held of an exchange after a run was held before it or taken in it, since the last final
part. -/
theorem parts_feed (registry : Registry σ) (id : Int64) (inputs : List (Nat × Option Message))
    (s : Session) (world : σ) :
    (feed (handleMessage registry) inputs s world).session.assemblies.parts id =
      (taken registry id inputs s world).foldl keep (s.assemblies.parts id) := by
  induction inputs generalizing s world with
  | nil => rfl
  | cons input inputs ih =>
    obtain ⟨now, input⟩ := input
    simp only [feed, taken, List.foldl_append]
    rw [ih, assemblies_handleMessage, parts_heldAfter]

/-- A request to store one object under a key, as a referencer and one chunk. -/
def keyedParts (id : Int64) (key : String) (blob : Uuid) (data : Bytes) (isLast : Bool) :
    Message × Message :=
  (((Message.request (Message.storing [(key, data)])).withId id).referencer blob,
    Message.ofChunk ⟨.storeChunk, blob, data, true, ()⟩ (id + 20) id isLast)

end Session

end Etp
