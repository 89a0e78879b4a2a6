import Etp.Proofs.Message.Reassembly
import Etp.Proofs.Session.Reachable

/-!
# Chunks are transparent to a session

A session that receives a message in referencers and chunks does in the end what it does with the whole
message: the parts are collected without a reply, and the last one leads to the turn of the whole message,
in the session as it was before the first part.
-/

namespace Etp

/-! ## The message that is made whole -/

theorem Protocol.id_ne_core {p : Protocol} (h : p ≠ .core) : p.id ≠ Protocol.core.id := by
  cases p with
  | core => exact absurd rfl h
  | _ => decide

theorem Kind.protocol_of_collection {k : Kind} (h : k.collection ≠ none) : k.protocol ≠ .core := by
  cases k with
  | _ => first
    | exact absurd rfl h
    | exact Protocol.noConfusion

theorem Kind.protocol_of_isChunk {k : Kind} (h : k.isChunk = true) : k.protocol ≠ .core := by
  cases k with
  | storeChunk => exact Protocol.noConfusion
  | storeQueryChunk => exact Protocol.noConfusion
  | _ => cases h

theorem Kind.protocol_of_objects {k : Kind} (h : k.objects.isSome = true) : k.protocol ≠ .core := by
  obtain ⟨o, ho⟩ := Option.isSome_iff_exists.1 h
  refine protocol_of_collection ?_
  rw [collection_of_objects ho]
  exact Option.some_ne_none _

namespace Flags

/-- The flags of a message without the marks of a part come back. -/
theorem whole_opening {f : Flags} (hfinal : f.bit 1 = true) (hmultipart : f.bit 0 = false)
    (hacknowledge : f.bit 4 = false) :
    (f.opening.remove (multipart.union acknowledge)).put .final true = f := by
  apply ext_bit
  intro i
  simp only [opening, bit_put_final, bit_remove, bit_union, bit_multipart, bit_final,
    bit_acknowledge]
  by_cases h0 : i = 0
  · simp [h0, hmultipart]
  · by_cases h1 : i = 1
    · simp [h1, hfinal]
    · by_cases h4 : i = 4
      · simp [h4, hacknowledge]
      · simp [h0, h1, h4]

end Flags

namespace Message

theorem Named.not_core {m : Message} (h : m.Named) (hcore : m.header.protocol ≠ Protocol.core.id) :
    m.body.kind.protocol ≠ .core := by
  intro heq
  exact hcore (h.protocol_eq.trans (congrArg Protocol.id heq))

/-- The message that is put together is the one that was sent. -/
theorem whole_opening {m : Message} (hfinal : m.isFinal = true) (hmultipart : m.isMultipart = false)
    (hacknowledge : m.wantsAcknowledge = false) :
    Session.whole ⟨m.header.opening, m.body⟩ = m := by
  simp only [isFinal, isMultipart, wantsAcknowledge, Flags.contains_final,
    Flags.contains_multipart, Flags.contains_acknowledge] at hfinal hmultipart hacknowledge
  have hflags := Flags.whole_opening hfinal hmultipart hacknowledge
  simp only [Session.whole, removeFlags, setFinal, withFlags, Header.opening, hflags]

end Message

namespace Session

variable {σ : Type}

/-! ## Parts without an answer -/

/-- A part of an exchange outside the core protocol that is collected and not acknowledged. -/
structure Collected (id : Int64) (p : Message) : Prop where
  not_core : p.body.kind.protocol ≠ .core
  not_acknowledged : p.wantsAcknowledge = false
  collected : isCollected p = true
  exchangeId_eq : p.exchangeId = id

/-- There is room for the assembly of one more exchange. -/
def HasRoom (s : Session) : Prop :=
  s.assemblies.size < s.peer.capabilities.maxConcurrentMultipart

theorem admitted_of_room {s : Session} {id : Int64} (h : s.assemblies.contains id = true ∨ s.HasRoom) :
    (!s.assemblies.contains id &&
      decide (s.peer.capabilities.maxConcurrentMultipart ≤ s.assemblies.size)) = false := by
  rcases h with hcontains | hroom
  · simp [hcontains]
  · simp [Nat.not_le.2 hroom]

section Part

variable (registry : Registry σ) (now : Nat) (world : σ) {s : Session} {id : Int64}
  {parts : List Message} {as : Assemblies} {p : Message} (hopen : s.Open) (hroom : s.HasRoom)
  (has : s.assemblies.Collecting id parts as) (hp : Collected id p)

include hopen hroom has hp

/-- A collected part is put to those that have arrived, and nothing else happens. -/
theorem handleMessage_collected (hfinal : p.isFinal = false) :
    handleMessage registry now (s.holding as) world (some p) =
      ⟨s.holding (as.push id p now), world, [.inbound], .ok []⟩ := by
  have hadmitted := has.admitted hroom
  rw [← hp.exchangeId_eq] at hadmitted ⊢
  rw [handleMessage_eq,
    receive_unacknowledged _ world (hopen.holding as) hp.not_core hp.not_acknowledged,
    route, if_pos hp.collected, collect_of_admitted hadmitted]
  simp only [hfinal, Bool.false_eq_true, if_false]
  rfl

/-- The final part completes the exchange. -/
theorem handleMessage_completing (hfinal : p.isFinal = true) :
    handleMessage registry now (s.holding as) world (some p) =
      (complete registry (s.holding (as.push id p now)) world id).inbound.present := by
  have hadmitted := has.admitted hroom
  rw [← hp.exchangeId_eq] at hadmitted ⊢
  rw [handleMessage_eq,
    receive_unacknowledged _ world (hopen.holding as) hp.not_core hp.not_acknowledged,
    route, if_pos hp.collected, collect_of_admitted hadmitted]
  simp only [hfinal, if_true]
  rfl

end Part

/-- Parts before the final one are collected, and that is all. -/
theorem feed_collected (registry : Registry σ) (world : σ) {s : Session} {id : Int64}
    {parts : List Message} {as : Assemblies} {inputs : List (Nat × Message)} (hopen : s.Open)
    (hroom : s.HasRoom) (has : s.assemblies.Collecting id parts as)
    (hinputs : ∀ p ∈ inputs.map Prod.snd, Collected id p ∧ p.isFinal = false) :
    ∃ as', s.assemblies.Collecting id (parts ++ inputs.map Prod.snd) as' ∧
      feed (handleMessage registry) (inputs.map (fun p => (p.1, some p.2))) (s.holding as) world =
        ⟨s.holding as', world, inputs.map (fun _ => .inbound), inputs.map (fun _ => .ok [])⟩ := by
  induction inputs generalizing parts as with
  | nil => exact ⟨as, by simpa using has, rfl⟩
  | cons input inputs ih =>
    obtain ⟨now, p⟩ := input
    obtain ⟨hp, hfinal⟩ := hinputs p List.mem_cons_self
    obtain ⟨as', has', hfeed⟩ := ih (has.push p now)
      (fun q hq => hinputs q (List.mem_cons_of_mem _ hq))
    refine ⟨as', by simpa using has', ?_⟩
    have hstep := handleMessage_collected registry now world hopen hroom has hp hfinal
    simp only [List.map_cons, feed, hstep, hfeed]
    rfl

/-! ## The whole message -/

/-- The turn of a message that is no part. -/
theorem handleMessage_whole (registry : Registry σ) (now : Nat) (s : Session) (world : σ)
    {m : Message} (hmultipart : m.isMultipart = false) :
    handleMessage registry now s world (some m) =
      (receive (dispatch registry) s world m).present := by
  have hcollected : isCollected m = false := by
    rw [isCollected, hmultipart, Bool.false_and]
  rw [handleMessage_eq, receive_not_collected registry now s world hcollected]

/-- Once all parts have been collected, the turn of the final part is that of the whole message. -/
theorem complete_collected {registry : Registry σ} (world : σ) {s : Session} {id : Int64}
    {parts : List Message} {as : Assemblies} {m m' : Message} (hopen : s.Open)
    (hcore : m.body.kind.protocol ≠ .core) (hacknowledge : m.wantsAcknowledge = false)
    (hdeferred : s.deferred = []) (has : s.assemblies.Collecting id parts as)
    (hparts : Message.reassemble parts = some m') (hwhole : whole m' = m)
    (habsent : ∀ handler, registry.find? m.header.protocol = some handler → handler.NeverAbsent) :
    complete registry (s.holding as) world id =
      { receive (dispatch registry) s world m with
        events := .reassembled :: (receive (dispatch registry) s world m).events } := by
  obtain ⟨replies, hreplies⟩ := dispatch_answered registry s world m
  have hreceive := receive_unacknowledged (dispatch registry) world hopen hcore hacknowledge
  have hresult : (receive (dispatch registry) s world m).result = .ok replies := by
    rw [hreceive]
    exact hreplies
  have hback : (s.holding as).holding (as.erase id) = s := by
    rw [has.erase_eq]
    rfl
  have hheld : Message.reassemble ((s.holding as).assemblies.parts id) = some m' :=
    (congrArg Message.reassemble has.parts_eq).trans hparts
  have hturn : receive (dispatch registry) ((s.holding as).holding (as.erase id)) world (whole m') =
      receive (dispatch registry) s world m := by
    rw [hback, hwhole]
  refine complete_present hheld hturn hresult (dispatch_replies habsent hreplies) ?_
  rw [hreceive]
  exact (deferred_dispatch registry s world m).trans hdeferred

/-! ## All parts of a message -/

/-- Two turns between which neither the peer nor the handlers can tell: only what is counted of them may
differ. -/
structure Alike {α : Type} (turn turn' : Turn σ α) : Prop where
  session_eq : turn.session = turn'.session
  world_eq : turn.world = turn'.world
  result_eq : turn.result = turn'.result
  calls_eq : calls turn.events = calls turn'.events

/-- Takes a session through several messages, and joins the replies. -/
def feedMessages (registry : Registry σ) (inputs : List (Nat × Message)) (s : Session) (world : σ) :
    Turn σ (Except ConnectionError (List Message)) :=
  let turn := feed (handleMessage registry) (inputs.map (fun p => (p.1, some p.2))) s world
  { turn with result := joined turn.result }

theorem feedMessages_single (registry : Registry σ) (now : Nat) (m : Message) (s : Session)
    (world : σ) :
    Alike (feedMessages registry [(now, m)] s world)
      (handleMessage registry now s world (some m)) := by
  refine ⟨rfl, rfl, ?_, ?_⟩
  · exact joined_of_silent ([] : List Unit) _
  · simp [feedMessages, feed]

/-- The parts of an exchange, the last of which is final, lead to the turn of the whole message. -/
theorem feedMessages_exchange {registry : Registry σ} {s : Session} {world : σ} {m m' : Message}
    {inputs : List (Nat × Message)} (hopen : s.Open) (hroom : s.HasRoom)
    (hdeferred : s.deferred = []) (hnew : s.assemblies.contains m.exchangeId = false)
    (hcore : m.body.kind.protocol ≠ .core) (hacknowledge : m.wantsAcknowledge = false)
    (habsent : ∀ handler, registry.find? m.header.protocol = some handler → handler.NeverAbsent)
    (hparts : ∀ p ∈ inputs.map Prod.snd, Collected m.exchangeId p)
    (hends : Message.EndsWith true (inputs.map Prod.snd))
    (hreassemble : Message.reassemble (inputs.map Prod.snd) = some m') (hwhole : whole m' = m) :
    Alike (feedMessages registry inputs s world)
      (receive (dispatch registry) s world m).present := by
  obtain ⟨before, last, hsplit, hbefore, hlast⟩ := hends
  obtain ⟨early, late, rfl, rfl, hlate⟩ := List.map_eq_append_iff.1 hsplit
  obtain ⟨⟨now, p⟩, rfl, rfl⟩ := List.map_eq_singleton_iff.1 hlate
  rw [List.map_append] at hparts hreassemble
  have hp : Collected m.exchangeId p := hparts p (by simp)
  obtain ⟨as, has, hearly⟩ := feed_collected registry world hopen hroom
    (Assemblies.Collecting.start hnew)
    (fun q hq => ⟨hparts q (List.mem_append_left _ hq), hbefore q hq⟩)
  have hcomplete := complete_collected world hopen hcore hacknowledge hdeferred (has.push p now)
    hreassemble hwhole habsent
  have hlast := handleMessage_completing registry now world hopen hroom has hp hlast
  rw [hcomplete] at hlast
  let turn := receive (dispatch registry) s world m
  have hfeed : feed (handleMessage registry)
      ((early ++ [(now, p)]).map (fun p => (p.1, some p.2))) s world =
      ⟨turn.session, turn.world, early.map (fun _ => .inbound) ++
        (.inbound :: .reassembled :: turn.events),
        early.map (fun _ => .ok []) ++ [turn.present.result]⟩ := by
    rw [List.map_append, feed_append]
    have hstart : s.holding s.assemblies = s := rfl
    rw [hstart] at hearly
    simp only [hearly, List.map_cons, List.map_nil, feed, hlast, List.append_nil]
    rfl
  refine ⟨?_, ?_, ?_, ?_⟩
  · simp only [feedMessages, hfeed]
    rfl
  · simp only [feedMessages, hfeed]
    rfl
  · simp only [feedMessages, hfeed, joined_of_silent]
    rfl
  · simp only [feedMessages, hfeed, calls_append, calls_map_inbound]
    rfl

end Session

namespace Message.Spread

variable {m : Message} {leaves : List Leaf}

/-- Messages of the core protocol have nothing that could travel in chunks. -/
theorem not_core (h : Spread m leaves) (hchunk : ∃ p ∈ leaves.flatMap Leaf.messages, p.isChunk = true) :
    m.body.kind.protocol ≠ .core := by
  by_cases hsplit : leaves = [.whole m]
  · obtain ⟨p, hp, hpchunk⟩ := hchunk
    rw [hsplit, Leaf.flatMap_messages_whole] at hp
    rw [List.mem_singleton.1 hp] at hpchunk
    exact Kind.protocol_of_isChunk hpchunk
  · exact Kind.protocol_of_objects (h.isChunkable hsplit hchunk)

/-- The chunks and referencers of a message that asks for no acknowledgement are collected. -/
theorem collected (h : Spread m leaves) (hsplit : leaves ≠ [.whole m]) (hnamed : m.Named)
    (hexchange : m.exchangeId ≠ 0) (hacknowledge : m.wantsAcknowledge = false)
    (hcore : m.header.protocol ≠ Protocol.core.id)
    (honly : ∀ p ∈ leaves.flatMap Leaf.messages, p.isChunk = true ∨ p.isReferencer = true) :
    ∀ p ∈ leaves.flatMap Leaf.messages, Session.Collected m.exchangeId p := by
  intro p hp
  have hpart := h.isPartOf p hp
  refine ⟨?_, hpart.wantsAcknowledge_eq hacknowledge, ?_, hpart.exchangeId_eq hexchange⟩
  · refine (hpart.named hnamed).not_core ?_
    rw [hpart.protocol_eq]
    exact hcore
  · rw [Session.isCollected, h.isMultipart hsplit p hp]
    rcases honly p hp with hchunk | hreferencer
    · simp [hchunk]
    · simp [hreferencer]

end Message.Spread

namespace Session

variable {σ : Type}

/-- A session that receives a message in chunks and referencers does what it does with the whole
message: it gives the same replies, calls the same handler once with the same header and body, and ends
in the same state. -/
theorem feedMessages_parts {registry : Registry σ} {m : Message} {limit : Option Nat}
    {fresh : Fresh} {s : Session} (hnamed : m.Named) (hexchange : m.exchangeId ≠ 0)
    (hfinal : m.isFinal = true) (hmultipart : m.isMultipart = false)
    (hacknowledge : m.wantsAcknowledge = false) (hinline : m.body.Inline)
    (hsent : Message.Sent (m.parts limit fresh).1)
    (hchunk : ∃ p ∈ (m.parts limit fresh).1, p.message.isChunk = true)
    (honly : ∀ p ∈ (m.parts limit fresh).1,
      p.message.isChunk = true ∨ p.message.isReferencer = true)
    (hlimit : ∀ p ∈ (m.parts limit fresh).1, p.message.body.WithinLimit)
    (hblobs : m.body.FreshBlobs fresh.blobs (m.parts limit fresh).2.blobs)
    (hreachable : s.Reachable) (hopen : s.Open) (hroom : s.HasRoom)
    (hnew : s.assemblies.contains m.exchangeId = false)
    (habsent : ∀ handler, registry.find? m.header.protocol = some handler → handler.NeverAbsent)
    (world : σ) (now : Nat) :
    let sent := (m.parts limit fresh).1.map Part.message
    let whole := handleMessage registry now s world (some m)
    (m.frames limit fresh).1.mapM Message.decode = .ok (sent.map some) ∧
      (∀ inputs : List (Nat × Message), inputs.map Prod.snd = sent →
        Alike (feedMessages registry inputs s world) whole) ∧
      (∃ replies, whole.result = .ok replies) ∧
      ∀ handler, registry.find? m.header.protocol = some handler →
        calls whole.events = [(m.header, m.body)] := by
  obtain ⟨leaves, houtcome⟩ := Message.parts_spread hsent
  have hspread := houtcome.spread
  have hchunk : ∃ p ∈ leaves.flatMap Leaf.messages, p.isChunk = true :=
    houtcome.exists_message.1 hchunk
  have honly : ∀ p ∈ leaves.flatMap Leaf.messages, p.isChunk = true ∨ p.isReferencer = true :=
    houtcome.forall_message.1 honly
  have hlimit : ∀ p ∈ leaves.flatMap Leaf.messages, p.body.WithinLimit :=
    houtcome.forall_message.1 hlimit
  have hcore := hspread.not_core hchunk
  have hwhole := handleMessage_whole registry now s world hmultipart
  have hreceive := receive_unacknowledged (dispatch registry) world hopen hcore hacknowledge
  simp only [houtcome.messages_eq, houtcome.frames_eq]
  refine ⟨?_, ?_, ?_, ?_⟩
  · exact Message.mapM_decode (fun p hp => (hspread.isPartOf p hp).named hnamed) hlimit
  · intro inputs hinputs
    by_cases hsplit : leaves = [.whole m]
    · -- The message is a chunk itself and is sent as it is.
      rw [hsplit, Leaf.flatMap_messages_whole] at hinputs
      obtain ⟨⟨time, p⟩, rfl, rfl⟩ := List.map_eq_singleton_iff.1 hinputs
      rw [hwhole, ← handleMessage_whole registry time s world hmultipart]
      exact feedMessages_single registry time p s world
    · have hchunkable := hspread.isChunkable hsplit hchunk
      have hprotocol : m.header.protocol ≠ Protocol.core.id := by
        rw [hnamed.protocol_eq]
        exact Protocol.id_ne_core hcore
      have hends := hspread.ends
      rw [hfinal] at hends
      rw [hwhole]
      refine feedMessages_exchange hopen hroom hreachable.deferred_eq hnew hcore hacknowledge habsent
        ?_ ?_ ?_ (Message.whole_opening hfinal hmultipart hacknowledge)
      · rw [hinputs]
        exact hspread.collected hsplit hnamed hexchange hacknowledge hprotocol honly
      · rw [hinputs]
        exact hends
      · rw [hinputs]
        exact hspread.reassemble_eq (houtcome.mergeable hinline hblobs) hsplit hchunkable honly
  · obtain ⟨replies, hreplies⟩ := dispatch_answered registry s world m
    refine ⟨replies.filterMap (fun reply => reply), ?_⟩
    rw [hwhole, hreceive]
    exact congrArg (Except.map _) hreplies
  · intro handler hhandler
    rw [hwhole, hreceive]
    exact (dispatch_handled s world hhandler).calls_eq

/-- A handler that confirms every request to store objects and counts them. -/
def countingHandler : Handler Nat := fun _ _ peer count =>
  ⟨.ok (.reply ⟨.putDataObjectsResponse, KeyMap.empty, ()⟩), peer, count + 1⟩

/-- A registry whose only handler is the counting one. -/
def countingRegistry : Registry Nat where
  handler p := if p = .store then some countingHandler else none

/-- A server that a client has opened a session with. -/
def openedSession : Session :=
  (handleMessage countingRegistry 0 (Session.start Settings.default 1 Message.countingFresh.blobs) 0
    (some (Message.request ⟨.requestSession, Shape.default _⟩))).session

theorem reachable_openedSession : openedSession.Reachable :=
  .handled countingRegistry 0 0 _ (.start Settings.default 1 Message.countingFresh.blobs)

theorem openedSession_isOpen : openedSession.Open := ⟨by decide +kernel, by decide +kernel⟩

theorem openedSession_hasRoom : openedSession.HasRoom := by
  unfold HasRoom
  decide +kernel

/-- Two objects in eight parts, one part every ten milliseconds. -/
theorem feedMessages_parts_twoLarge :
    let sent := (Message.twoLarge.parts (some 80) Message.countingFresh).1.map Part.message
    let whole := handleMessage countingRegistry 900 openedSession 0 (some Message.twoLarge)
    openedSession.Open ∧ openedSession.HasRoom ∧ sent.length = 8 ∧
      Alike (feedMessages countingRegistry (sent.mapIdx (fun i p => (10 * i, p))) openedSession 0)
        whole ∧
      calls whole.events = [(Message.twoLarge.header, Message.twoLarge.body)] := by
  have hpresent : ∀ handler, countingRegistry.find? Message.twoLarge.header.protocol = some handler →
      handler.NeverAbsent := by
    intro handler hhandler
    cases hhandler
    intro body header peer world response hanswer
    cases hanswer
    simp [Response.reply, Response.items]
  have hparts := Message.parts_twoLarge
  obtain ⟨-, hrun, -, hcalls⟩ := @feedMessages_parts Nat countingRegistry Message.twoLarge (some 80)
    Message.countingFresh openedSession ⟨rfl, rfl⟩ (by decide +kernel) (by decide +kernel)
    (by decide +kernel) (by decide +kernel) (by decide +kernel) (by rw [hparts]; decide +kernel)
    (by rw [hparts]; decide +kernel) (by rw [hparts]; decide +kernel)
    (by rw [hparts]; decide +kernel)
    (by rw [hparts]; exact ⟨by decide +kernel, by decide +kernel⟩)
    reachable_openedSession openedSession_isOpen openedSession_hasRoom (by decide +kernel) hpresent 0 900
  refine ⟨openedSession_isOpen, openedSession_hasRoom, ?_, hrun _ ?_, hcalls _ rfl⟩
  · rw [hparts]
    decide +kernel
  · rw [hparts]
    decide +kernel

end Session

end Etp
