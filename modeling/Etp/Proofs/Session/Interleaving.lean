import Etp.Proofs.Session.Underway

/-!
# Interleaved exchanges

The parts of several exchanges may arrive in any order among each other and among other messages.  An
input of one exchange does not touch the parts that are held of another (`Touches`), so the run of a
session can be read for each exchange by itself: its parts are put together in the order in which they
arrived, whatever arrived in between.  `callsOn_of_exchange` is this reading for one exchange.
-/

namespace Etp

/-- No handler changes what is known about the peer. -/
def Registry.KeepsPeer {σ : Type} (registry : Registry σ) : Prop :=
  ∀ protocol handler, registry.find? protocol = some handler → handler.KeepsPeer

/-! ## What is put together -/

namespace Message

theorem kind_merged (first : Body) (later : List Message) :
    (merged first later).kind = first.kind := by
  induction later generalizing first with
  | nil => rfl
  | cons m later ih =>
    have hstep : merged first (m :: later) = merged ((first.absorb m.body).getD first) later := rfl
    rw [hstep, ih]
    unfold Body.absorb
    split
    · split
      · rfl
      · rfl
    · rfl

theorem reassemble_of_referencer {parts : List Message}
    (h : ∃ p ∈ parts, p.isReferencer = true) : ∃ m, reassemble parts = some m := by
  obtain ⟨p, hp, hreferencer⟩ := h
  have hmem : p ∈ parts.filter isReferencer := List.mem_filter.2 ⟨hp, hreferencer⟩
  unfold reassemble
  split
  case h_1 hnone =>
    rw [hnone] at hmem
    cases hmem
  case h_2 => exact ⟨_, rfl⟩

/-- What is put together is of the kind of a referencer. -/
theorem not_core_of_reassemble {parts : List Message} {m : Message} (h : reassemble parts = some m) :
    m.body.kind.protocol ≠ .core := by
  unfold reassemble at h
  split at h
  case h_1 => cases h
  case h_2 first later hreferencers =>
    have hfirst : first ∈ parts.filter isReferencer := by simp [hreferencers]
    have hchunkable := isChunkable_of_isReferencer (List.mem_filter.1 hfirst).2
    cases h
    rw [Body.kind_mapObjects, kind_merged]
    exact Kind.protocol_of_objects hchunkable

end Message

namespace Session

variable {σ : Type}

theorem not_core_of_isCollected {p : Message} (h : isCollected p = true) :
    p.body.kind.protocol ≠ .core := by
  simp only [isCollected, Bool.and_eq_true, Bool.or_eq_true] at h
  rcases h.2 with hchunk | hreferencer
  · exact Kind.protocol_of_isChunk hchunk
  · exact Kind.protocol_of_objects (Message.isChunkable_of_isReferencer hreferencer)

/-! ## Inputs of one exchange -/

/-- From `s` to `t`, identifiers were drawn and reports held back, and of the assemblies only that of the
exchange `id` was touched. -/
structure Touches (id : Int64) (s t : Session) : Prop where
  same : ∃ fresh assemblies deferred,
    t = { s with fresh := fresh, assemblies := assemblies, deferred := deferred }
  parts_eq : ∀ other ≠ id, t.assemblies.parts other = s.assemblies.parts other

namespace Touches

variable {id : Int64} {s t u : Session}

theorem of_advances (h : s.Advances t) : s.Touches id t := by
  obtain ⟨fresh, rfl⟩ := h
  exact ⟨⟨fresh, s.assemblies, s.deferred, rfl⟩, fun _ _ => rfl⟩

theorem trans (h : s.Touches id t) (h' : t.Touches id u) : s.Touches id u := by
  obtain ⟨⟨_, _, _, rfl⟩, hparts⟩ := h
  obtain ⟨⟨fresh, assemblies, deferred, rfl⟩, hparts'⟩ := h'
  exact ⟨⟨fresh, assemblies, deferred, rfl⟩, fun other hother =>
    (hparts' other hother).trans (hparts other hother)⟩

theorem push (s : Session) (p : Message) (now : Nat) :
    s.Touches id (s.holding (s.assemblies.push id p now)) :=
  ⟨⟨s.fresh, _, s.deferred, rfl⟩, fun _ hother =>
    s.assemblies.parts_push_of_ne hother p now⟩

theorem isOpen (h : s.Touches id t) (hopen : s.Open) : t.Open := by
  obtain ⟨⟨_, _, _, rfl⟩, _⟩ := h
  exact ⟨hopen.connected, hopen.authorized⟩

theorem offers_eq (h : s.Touches id t) (body : Body) : t.offers body = s.offers body := by
  obtain ⟨⟨_, _, _, rfl⟩, _⟩ := h
  rfl

/-- After the first of some inputs, the others still neither close nor open the session. -/
theorem stays (h : s.Touches id t) {now : Nat} {input : Option Message}
    {inputs : List (Nat × Option Message)}
    (hstays : ∀ q ∈ ((now, input) :: inputs).filterMap Prod.snd,
      q.body.kind ≠ .closeSession ∧ s.offers q.body = none) :
    ∀ q ∈ inputs.filterMap Prod.snd, q.body.kind ≠ .closeSession ∧ t.offers q.body = none := by
  intro q hq
  rw [h.offers_eq]
  refine hstays q ?_
  cases input with
  | none => exact hq
  | some _ => exact List.mem_cons_of_mem _ hq

end Touches

section Steady

variable {registry : Registry σ} (hkeeps : registry.KeepsPeer)

/-- The calls that come of a message whose protocol may have a handler. -/
def called (registry : Registry σ) (m : Message) : List (Header × Body) :=
  if (registry.find? m.header.protocol).isSome then [call m] else []

include hkeeps

theorem dispatch_called (s : Session) (world : σ) (m : Message) :
    Dispatched s s.peer (called registry m) (dispatch registry s world m) := by
  unfold called
  cases hhandler : registry.find? m.header.protocol with
  | none => exact dispatch_unregistered s world hhandler
  | some handler =>
    have hdispatched := dispatch_handled s world hhandler
    rw [hkeeps _ handler hhandler] at hdispatched
    exact hdispatched

theorem dispatch_keeps (s : Session) (world : σ) (m : Message) :
    s.Advances (dispatch registry s world m).session := by
  obtain ⟨fresh, hsession⟩ := (dispatch_called hkeeps s world m).session_eq
  exact ⟨fresh, hsession⟩

theorem complete_called {s : Session} (world : σ) (hopen : s.Open) {id : Int64} {m : Message}
    (hparts : Message.reassemble (s.assemblies.parts id) = some m) :
    (∃ fresh deferred, (complete registry s world id).session =
      { s with fresh := fresh, assemblies := s.assemblies.erase id, deferred := deferred }) ∧
      calls (complete registry s world id).events = called registry (whole m) := by
  have hcore := Message.not_core_of_reassemble hparts
  have hadmits : (s.holding (s.assemblies.erase id)).Admits (whole m) :=
    (hopen.holding _).admits_of_not_core hcore
  have hturn := receive_dispatched hadmits
    (fun fresh => dispatch_called hkeeps { s.holding (s.assemblies.erase id) with fresh := fresh }
      world (whole m))
  obtain ⟨hsession, hcalls, -⟩ := complete_dispatched hparts hturn
  exact ⟨hsession, hcalls⟩

theorem touches_complete {s : Session} (world : σ) (hopen : s.Open) (id : Int64) :
    s.Touches id (complete registry s world id).session := by
  have herase : ∀ other ≠ id, (s.assemblies.erase id).parts other = s.assemblies.parts other :=
    fun _ hother => s.assemblies.parts_erase_of_ne hother
  cases hparts : Message.reassemble (s.assemblies.parts id) with
  | none =>
    simp only [complete, hparts]
    exact ⟨⟨s.fresh, _, _, rfl⟩, herase⟩
  | some m =>
    obtain ⟨⟨fresh, deferred, hsession⟩, -⟩ := complete_called hkeeps world hopen hparts
    rw [hsession]
    exact ⟨⟨fresh, _, deferred, rfl⟩, herase⟩

/-- A message of an exchange touches no other exchange. -/
theorem touches_handleMessage (now : Nat) {s : Session} (world : σ) (hopen : s.Open) {m : Message}
    (hadmits : s.Admits m) :
    s.Touches m.exchangeId (handleMessage registry now s world (some m)).session := by
  have hacknowledged : s.Touches m.exchangeId (s.acknowledge m).2 :=
    .of_advances (s.acknowledge_advances m)
  have hsession : (handleMessage registry now s world (some m)).session =
      (route registry now (s.acknowledge m).2 world m).session := by
    rw [handleMessage_eq, receive_of_admits _ world hadmits]
    rfl
  rw [hsession]
  refine hacknowledged.trans ?_
  have hopen := hacknowledged.isOpen hopen
  generalize (s.acknowledge m).2 = t at hopen
  unfold route
  split
  · -- The part is turned away, put to its assembly, or put to it as the last one.
    unfold collect
    simp only
    split
    · exact .of_advances ⟨_, rfl⟩
    · split
      · exact (Touches.push t m now).trans
          (touches_complete hkeeps world (hopen.holding _) m.exchangeId)
      · exact .push t m now
  · exact .of_advances (dispatch_keeps hkeeps t world m)

end Steady

/-! ## The run of one exchange -/

/-- The messages of an exchange among some inputs. -/
def arrived (id : Int64) (inputs : List (Nat × Option Message)) : List Message :=
  (inputs.filterMap Prod.snd).filter (fun m => m.exchangeId == id)

/-- Processes one input and returns it with the calls of handlers to which it led. -/
def logged (registry : Registry σ) (now : Nat) (s : Session) (world : σ) (input : Option Message) :
    Turn σ (Option Message × List (Header × Body)) :=
  let turn := handleMessage registry now s world input
  { turn with result := (input, calls turn.events) }

/-- The calls of handlers in a run at the messages of an exchange, message by message. -/
def callsOn (registry : Registry σ) (id : Int64) (inputs : List (Nat × Option Message)) (s : Session)
    (world : σ) : List (List (Header × Body)) :=
  ((feed (logged registry) inputs s world).result.filter
    (fun entry => entry.1.any (fun m => m.exchangeId == id))).map Prod.snd

/-- Whenever a message of an exchange arrives in a run and the exchange has no assembly, there is room
for one more. -/
def RoomFor (registry : Registry σ) (id : Int64) :
    List (Nat × Option Message) → Session → σ → Prop
  | [], _, _ => True
  | (now, input) :: inputs, s, world =>
    let turn := handleMessage registry now s world input
    ((∃ m, input = some m ∧ m.exchangeId = id) → s.assemblies.contains id = false → s.HasRoom) ∧
      RoomFor registry id inputs turn.session turn.world

section Inputs

variable (registry : Registry σ) {id : Int64} (now : Nat) (inputs : List (Nat × Option Message))
  (s : Session) (world : σ)

theorem arrived_none : arrived id ((now, none) :: inputs) = arrived id inputs := rfl

theorem arrived_own {p : Message} (hp : p.exchangeId = id) :
    arrived id ((now, some p) :: inputs) = p :: arrived id inputs := by
  simp [arrived, hp]

theorem arrived_other {m : Message} (hm : m.exchangeId ≠ id) :
    arrived id ((now, some m) :: inputs) = arrived id inputs := by
  simp [arrived, hm]

theorem callsOn_none :
    callsOn registry id ((now, none) :: inputs) s world =
      callsOn registry id inputs (handleMessage registry now s world none).session
        (handleMessage registry now s world none).world := rfl

theorem callsOn_own {p : Message} (hp : p.exchangeId = id) :
    callsOn registry id ((now, some p) :: inputs) s world =
      calls (handleMessage registry now s world (some p)).events ::
        callsOn registry id inputs (handleMessage registry now s world (some p)).session
          (handleMessage registry now s world (some p)).world := by
  simp [callsOn, feed, logged, hp]

theorem callsOn_other {m : Message} (hm : m.exchangeId ≠ id) :
    callsOn registry id ((now, some m) :: inputs) s world =
      callsOn registry id inputs (handleMessage registry now s world (some m)).session
        (handleMessage registry now s world (some m)).world := by
  simp [callsOn, feed, logged, hm]

theorem callsOn_of_not_arrived (h : arrived id inputs = []) :
    callsOn registry id inputs s world = [] := by
  induction inputs generalizing s world with
  | nil => rfl
  | cons input inputs ih =>
    obtain ⟨now, input⟩ := input
    match input with
    | none => exact ih _ _ h
    | some m =>
      by_cases hm : m.exchangeId = id
      · rw [arrived_own now inputs hm] at h
        cases h
      · rw [arrived_other now inputs hm] at h
        rw [callsOn_other registry now inputs s world hm]
        exact ih _ _ h

end Inputs

section Exchange

variable (registry : Registry σ) {s : Session} (now : Nat) (world : σ) (hopen : s.Open) {p : Message}
  (hcollected : isCollected p = true)
  (hroom : s.assemblies.contains p.exchangeId = false → s.HasRoom)

include hopen hcollected hroom

/-- There is an assembly for the part, or room for one. -/
theorem handleMessage_collecting :
    ∃ u, s.Touches p.exchangeId u ∧
      u.assemblies.parts p.exchangeId = s.assemblies.parts p.exchangeId ++ [p] ∧
      handleMessage registry now s world (some p) =
        let turn : Turn σ Replies :=
          if p.isFinal then complete registry u world p.exchangeId else ⟨u, world, [], .ok []⟩
        Turn.present { turn with
          events := .inbound :: turn.events
          result := turn.result.map ((s.acknowledge p).1 ++ ·) } := by
  have hadmitted : s.assemblies.contains p.exchangeId = true ∨ s.HasRoom := by
    cases hcontains : s.assemblies.contains p.exchangeId with
    | true => exact .inl rfl
    | false => exact .inr (hroom hcontains)
  have hadmits := hopen.admits_of_not_core (not_core_of_isCollected hcollected)
  have hreceive := receive_collecting registry now world hadmits hcollected
    (admitted_of_room hadmitted)
  obtain ⟨fresh, hacknowledged⟩ := s.acknowledge_advances p
  have htouches : s.Touches p.exchangeId (s.acknowledge p).2 :=
    .of_advances (s.acknowledge_advances p)
  refine ⟨_, htouches.trans (.push (s.acknowledge p).2 p now), ?_, ?_⟩
  · rw [hacknowledged]
    exact Assemblies.parts_push _ _ _ _
  · rw [handleMessage_eq, hreceive]

/-- A part before the final one is held, and no handler is called. -/
theorem handleMessage_held (hfinal : p.isFinal = false) :
    s.Touches p.exchangeId (handleMessage registry now s world (some p)).session ∧
      (handleMessage registry now s world (some p)).session.assemblies.parts p.exchangeId =
        s.assemblies.parts p.exchangeId ++ [p] ∧
      calls (handleMessage registry now s world (some p)).events = [] := by
  obtain ⟨u, htouches, hparts, hturn⟩ :=
    handleMessage_collecting registry now world hopen hcollected hroom
  simp only [hfinal, Bool.false_eq_true, if_false] at hturn
  rw [hturn]
  exact ⟨htouches, hparts, rfl⟩

variable {registry}

/-- With the final part, what was put together is given to its handler. -/
theorem calls_handleMessage_final (hkeeps : registry.KeepsPeer) (hfinal : p.isFinal = true) {m : Message}
    (hparts : Message.reassemble (s.assemblies.parts p.exchangeId ++ [p]) = some m) :
    calls (handleMessage registry now s world (some p)).events = called registry (whole m) := by
  obtain ⟨u, htouches, hheld, hturn⟩ :=
    handleMessage_collecting registry now world hopen hcollected hroom
  rw [← hheld] at hparts
  simp only [hfinal, if_true] at hturn
  rw [hturn]
  exact (complete_called hkeeps world (htouches.isOpen hopen) hparts).2

end Exchange

/-- The run of a session, read for one exchange: nothing happens up to the final part, and with it the
message that all parts make up is given to its handler. -/
theorem callsOn_of_exchange {registry : Registry σ} (hkeeps : registry.KeepsPeer) {id : Int64}
    {inputs : List (Nat × Option Message)} {s : Session} (world : σ) {m : Message} (hopen : s.Open)
    (hstays : ∀ q ∈ inputs.filterMap Prod.snd,
      q.body.kind ≠ .closeSession ∧ s.offers q.body = none)
    (hcollected : ∀ p ∈ arrived id inputs, isCollected p = true)
    (hends : Message.EndsWith true (arrived id inputs)) (hroom : RoomFor registry id inputs s world)
    (hparts : Message.reassemble (s.assemblies.parts id ++ arrived id inputs) = some m) :
    callsOn registry id inputs s world =
      List.replicate ((arrived id inputs).length - 1) [] ++ [called registry (whole m)] := by
  -- Each input keeps the session open; only those of the exchange change what is held of it.
  induction inputs generalizing s world with
  | nil =>
    obtain ⟨before, last, hsplit, -⟩ := hends
    simp [arrived] at hsplit
  | cons input inputs ih =>
    obtain ⟨now, input⟩ := input
    obtain ⟨hnow, hlater⟩ := hroom
    match input with
    | none =>
      have htouches : s.Touches id (handleMessage registry now s world none).session :=
        .of_advances ⟨_, rfl⟩
      rw [arrived_none] at hcollected hends hparts ⊢
      rw [callsOn_none]
      exact ih _ (htouches.isOpen hopen) (htouches.stays hstays) hcollected hends hlater hparts
    | some q =>
      obtain ⟨hclose, hoffers⟩ := hstays q List.mem_cons_self
      have htouches := touches_handleMessage hkeeps now world hopen (hopen.admits hclose hoffers)
      have hopen' := htouches.isOpen hopen
      have hstays' := htouches.stays hstays
      by_cases hq : q.exchangeId = id
      · subst hq
        rw [arrived_own now inputs rfl] at hcollected hends hparts ⊢
        rw [callsOn_own registry now inputs s world rfl]
        have hown := hcollected q List.mem_cons_self
        have hroom := hnow ⟨q, rfl, rfl⟩
        rcases hends.of_cons with ⟨hfinal, hnone⟩ | ⟨hfinal, hends⟩
        · rw [hnone] at hparts ⊢
          rw [callsOn_of_not_arrived registry inputs _ _ hnone,
            calls_handleMessage_final now world hopen hown hroom hkeeps hfinal hparts]
          rfl
        · obtain ⟨-, hheld, hsilent⟩ :=
            handleMessage_held registry now world hopen hown hroom hfinal
          rw [List.append_cons, ← hheld] at hparts
          rw [hsilent, ih _ hopen' hstays' (fun p hp => hcollected p (List.mem_cons_of_mem _ hp))
            hends hlater hparts]
          have hlength : 0 < (arrived q.exchangeId inputs).length := by
            obtain ⟨before, last, hsplit, -⟩ := hends
            simp [hsplit]
          obtain ⟨count, hcount⟩ := Nat.exists_eq_add_of_lt hlength
          simp [hcount, List.replicate_succ]
      · rw [arrived_other now inputs hq] at hcollected hends hparts ⊢
        rw [callsOn_other registry now inputs s world hq]
        refine ih _ hopen' hstays' hcollected hends hlater ?_
        rw [htouches.parts_eq id (Ne.symm hq)]
        exact hparts

/-- A request to store one object, as a referencer and one chunk. -/
def twoParts (id : Int64) (blob : Uuid) (data : Bytes) : Message × Message :=
  (((Message.request (Message.storing [("a", data)])).withId id).referencer blob,
    Message.ofChunk ⟨.storeChunk, blob, data, true, ()⟩ (id + 20) id true)

/-- Two exchanges that cross, with another request and a frame that cannot be read between them. -/
def crossing : List (Nat × Option Message) :=
  let first := twoParts 4 (Message.countingFresh.blobs.nth 1) [1, 2]
  let second := twoParts 6 (Message.countingFresh.blobs.nth 2) [3]
  [(0, some first.1), (10, some second.1),
    (20, some ((Message.request (Message.storing [])).withId 8)), (30, none),
    (40, some second.2), (50, some first.2)]

end Session

end Etp
