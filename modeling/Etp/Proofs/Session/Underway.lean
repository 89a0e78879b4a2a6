import Etp.Proofs.Session.Transparency

/-!
# The parts of an exchange, frame by frame

A session that receives the parts of an exchange holds those that are chunks or referencers, and gives
every other part to its handler at once.  `Underway` is the invariant between two parts.  Each way that a
part can take has its lemma: it is dispatched, it is held, or it completes the exchange.  `feed_before`
is the run up to the final part; what happens then depends on whether the final part is one to hold.
-/

namespace Etp.Session

variable {σ : Type}

/-! ## Frames -/

/-- What a session takes a frame for: its message, or nothing. -/
def incoming (frame : Bytes) : Option Message := (Message.decode frame).toOption.join

theorem handleFrame_eq (registry : Registry σ) (now : Nat) (s : Session) (world : σ) (frame : Bytes) :
    handleFrame registry now s world frame =
      (handleMessage registry now s world (incoming frame)).encoded := by
  unfold handleFrame incoming
  cases Message.decode frame with
  | error e => rfl
  | ok m => rfl

/-- What a frame does beyond what its message does: replies are encoded, which draws identifiers. -/
theorem handleFrame_advances (registry : Registry σ) (now : Nat) (s : Session) (world : σ)
    (frame : Bytes) :
    let turn := handleMessage registry now s world (incoming frame)
    turn.session.Advances (handleFrame registry now s world frame).session ∧
      calls (handleFrame registry now s world frame).events = calls turn.events := by
  intro turn
  rw [handleFrame_eq, Turn.encoded]
  split
  case h_1 e he => exact ⟨.refl _, rfl⟩
  case h_2 replies hreplies =>
    refine ⟨encodeAll_advances _ _, ?_⟩
    simp only [calls_append, calls_encodeAll, List.append_nil]
    rfl

theorem handleFrame_of_decode (registry : Registry σ) (now : Nat) (s : Session) (world : σ)
    {frame : Bytes} {m : Message} (hdecode : Message.decode frame = .ok (some m)) :
    (receive (route registry now) s world m).session.Advances
        (handleFrame registry now s world frame).session ∧
      calls (handleFrame registry now s world frame).events =
        calls (receive (route registry now) s world m).events := by
  have hincoming : incoming frame = some m := by
    rw [incoming, hdecode]
    rfl
  have hframe := handleFrame_advances registry now s world frame
  rw [hincoming] at hframe
  exact hframe

/-! ## Between the parts of an exchange -/

/-- A session in the middle of an exchange: but for identifiers that were drawn, it differs from `s` in
the parts of the exchange that it holds. -/
def Underway (s : Session) (id : Int64) (held : List Message) (t : Session) : Prop :=
  ∃ fresh as, t = { s with fresh := fresh, assemblies := as } ∧ s.assemblies.Collecting id held as

namespace Underway

variable {s t u : Session} {id : Int64} {held : List Message}

theorem start (h : s.assemblies.contains id = false) : s.Underway id [] s :=
  ⟨s.fresh, s.assemblies, rfl, .start h⟩

theorem advances (h : s.Underway id held t) (hadvances : t.Advances u) : s.Underway id held u := by
  obtain ⟨fresh, as, rfl, has⟩ := h
  obtain ⟨fresh', rfl⟩ := hadvances
  exact ⟨fresh', as, rfl, has⟩

theorem push (h : s.Underway id held t) (p : Message) (now : Nat) :
    s.Underway id (held ++ [p]) (t.holding (t.assemblies.push id p now)) := by
  obtain ⟨fresh, as, rfl, has⟩ := h
  exact ⟨fresh, as.push id p now, rfl, has.push p now⟩

theorem isOpen (h : s.Underway id held t) (hopen : s.Open) : t.Open := by
  obtain ⟨fresh, as, rfl, _⟩ := h
  exact ⟨hopen.connected, hopen.authorized⟩

theorem admitted (h : s.Underway id held t) (hroom : s.HasRoom) :
    (!t.assemblies.contains id &&
      decide (t.peer.capabilities.maxConcurrentMultipart ≤ t.assemblies.size)) = false := by
  obtain ⟨fresh, as, rfl, has⟩ := h
  exact has.admitted hroom

theorem contains_eq (h : s.Underway id held t) : t.assemblies.contains id = !held.isEmpty := by
  obtain ⟨fresh, as, rfl, has⟩ := h
  exact has.contains_eq

theorem parts_eq (h : s.Underway id held t) : t.assemblies.parts id = held := by
  obtain ⟨fresh, as, rfl, has⟩ := h
  exact has.parts_eq

end Underway

/-- A part of an exchange that comes in under the protocol of a handler. -/
structure Incoming (registry : Registry σ) (handler : Handler σ) (id : Int64) (p : Message) :
    Prop where
  decoded : Message.decode p.encode = .ok (some p)
  not_core : p.body.kind.protocol ≠ .core
  handled : registry.find? p.header.protocol = some handler
  exchangeId_eq : p.exchangeId = id

section Part

variable {registry : Registry σ} {handler : Handler σ} (now : Nat) (world : σ) {s t : Session}
  {id : Int64} {held : List Message} {p : Message} (hopen : s.Open) (hroom : s.HasRoom)
  (ht : s.Underway id held t) (hp : Incoming registry handler id p)

include hopen ht hp

/-- A part that is not collected is given to the handler. -/
theorem handleFrame_dispatched (hpeer : handler.KeepsPeer) (hcollected : isCollected p = false) :
    s.Underway id held (handleFrame registry now t world p.encode).session ∧
      calls (handleFrame registry now t world p.encode).events = [(p.header, p.body)] := by
  obtain ⟨hadvances, hcalls⟩ := handleFrame_of_decode registry now t world hp.decoded
  rw [receive_not_collected registry now t world hcollected] at hadvances hcalls
  obtain ⟨⟨fresh, hsession⟩, hcalled, _⟩ :=
    receive_handled world (ht.isOpen hopen) hp.not_core hp.handled
  rw [hpeer] at hsession
  have hturn : t.Advances (receive (dispatch registry) t world p).session := ⟨fresh, hsession⟩
  exact ⟨ht.advances (hturn.trans hadvances), hcalls.trans hcalled⟩

include hroom

/-- A part that is collected is put to those that are held, and the final one completes the exchange. -/
theorem receive_collected (hcollected : isCollected p = true) :
    ∃ u, s.Underway id (held ++ [p]) u ∧
      receive (route registry now) t world p =
        let turn : Turn σ Replies :=
          if p.isFinal then complete registry u world id else ⟨u, world, [], .ok []⟩
        { turn with
          events := .inbound :: turn.events
          result := turn.result.map ((t.acknowledge p).1 ++ ·) } := by
  have hadmitted := ht.admitted hroom
  have hpush := (ht.advances (t.acknowledge_advances p)).push p now
  rw [← hp.exchangeId_eq] at hadmitted hpush
  refine ⟨_, hp.exchangeId_eq ▸ hpush, ?_⟩
  have hadmits := (ht.isOpen hopen).admits_of_not_core hp.not_core
  rw [receive_collecting registry now world hadmits hcollected hadmitted, hp.exchangeId_eq]

/-- A part that is collected is held, unless it is the final one. -/
theorem handleFrame_held (hcollected : isCollected p = true) (hfinal : p.isFinal = false) :
    s.Underway id (held ++ [p]) (handleFrame registry now t world p.encode).session ∧
      calls (handleFrame registry now t world p.encode).events = [] := by
  obtain ⟨hadvances, hcalls⟩ := handleFrame_of_decode registry now t world hp.decoded
  obtain ⟨u, hu, hreceive⟩ := receive_collected now world hopen hroom ht hp hcollected
  simp only [hfinal, Bool.false_eq_true, if_false] at hreceive
  rw [hreceive] at hadvances hcalls
  exact ⟨hu.advances hadvances, hcalls⟩

/-- The final part, if it is collected, makes the session give what was held to the handler. -/
theorem handleFrame_completing (hcollected : isCollected p = true) (hfinal : p.isFinal = true)
    {m : Message} (hparts : Message.reassemble (held ++ [p]) = some m)
    (hcore : m.body.kind.protocol ≠ .core)
    (hhandler : registry.find? m.header.protocol = some handler) :
    (handleFrame registry now t world p.encode).session.assemblies.contains id = false ∧
      calls (handleFrame registry now t world p.encode).events = [((whole m).header, m.body)] := by
  obtain ⟨hadvances, hcalls⟩ := handleFrame_of_decode registry now t world hp.decoded
  obtain ⟨u, hu, hreceive⟩ := receive_collected now world hopen hroom ht hp hcollected
  rw [← hu.parts_eq] at hparts
  obtain ⟨hcalled, hassemblies, _⟩ :=
    complete_handled world hparts (hu.isOpen hopen) hcore hhandler
  simp only [hfinal, if_true] at hreceive
  rw [hreceive] at hadvances hcalls
  obtain ⟨fresh, hsession⟩ := hadvances
  refine ⟨?_, hcalls.trans hcalled⟩
  rw [hsession]
  simp only [hassemblies]
  exact Assemblies.contains_erase _ _

end Part

/-! ## All parts of an exchange -/

/-- What a handler is given of a message. -/
def call (p : Message) : Header × Body := (p.header, p.body)

/-- The frame of the final part is the last input. -/
theorem inputs_split {before : List Message} {last : Message} {inputs : List (Nat × Bytes)}
    (hinputs : inputs.map Prod.snd = (before ++ [last]).map Message.encode) :
    ∃ early now, inputs = early ++ [(now, last.encode)] ∧
      early.map Prod.snd = before.map Message.encode := by
  rw [List.map_append] at hinputs
  obtain ⟨early, late, rfl, hearly, hlate⟩ := List.map_eq_append_iff.1 hinputs
  obtain ⟨⟨now, frame⟩, rfl, rfl⟩ := List.map_eq_singleton_iff.1 hlate
  exact ⟨early, now, rfl, hearly⟩

section Exchange

variable {registry : Registry σ} {handler : Handler σ} {s : Session} {id : Int64}
  (hopen : s.Open) (hroom : s.HasRoom) (hpeer : handler.KeepsPeer)

include hopen hroom hpeer

/-- Up to the final part, what is collected is held and everything else is given to the handler. -/
theorem feed_before {parts : List Message} {inputs : List (Nat × Bytes)} {held : List Message}
    {t : Session} (world : σ) (ht : s.Underway id held t)
    (hinputs : inputs.map Prod.snd = parts.map Message.encode)
    (hparts : ∀ p ∈ parts, Incoming registry handler id p ∧ p.isFinal = false) :
    s.Underway id (held ++ parts.filter isCollected)
        (feed (handleFrame registry) inputs t world).session ∧
      calls (feed (handleFrame registry) inputs t world).events =
        (parts.filter (fun p => !isCollected p)).map call := by
  induction parts generalizing inputs held t world with
  | nil =>
    obtain rfl : inputs = [] := by simpa using hinputs
    refine ⟨?_, rfl⟩
    rw [List.filter_nil, List.append_nil]
    exact ht
  | cons p parts ih =>
    obtain ⟨⟨now, frame⟩, inputs, rfl, rfl, hrest⟩ := List.map_eq_cons_iff.1 hinputs
    obtain ⟨hp, hfinal⟩ := hparts p List.mem_cons_self
    have hlater := fun q hq => hparts q (List.mem_cons_of_mem _ hq)
    cases hcollected : isCollected p with
    | false =>
      obtain ⟨hnext, hcalls⟩ := handleFrame_dispatched now world hopen ht hp hpeer hcollected
      obtain ⟨hunderway, hrestCalls⟩ := ih _ hnext hrest hlater
      simp only [feed, calls_append, hcalls, List.filter_cons, hcollected]
      refine ⟨hunderway, ?_⟩
      rw [hrestCalls]
      rfl
    | true =>
      obtain ⟨hnext, hcalls⟩ := handleFrame_held now world hopen hroom ht hp hcollected hfinal
      obtain ⟨hunderway, hrestCalls⟩ := ih _ hnext hrest hlater
      simp only [feed, calls_append, hcalls, List.filter_cons, hcollected]
      refine ⟨?_, hrestCalls⟩
      simpa using hunderway

/-- If the final part is not collected, what was collected stays behind. -/
theorem feed_dispatching {before : List Message} {last : Message} {inputs : List (Nat × Bytes)}
    (world : σ) (hnew : s.assemblies.contains id = false)
    (hinputs : inputs.map Prod.snd = (before ++ [last]).map Message.encode)
    (hbefore : ∀ p ∈ before, Incoming registry handler id p ∧ p.isFinal = false)
    (hlast : Incoming registry handler id last) (hcollected : isCollected last = false) :
    (feed (handleFrame registry) inputs s world).session.assemblies.contains id =
        !(before.filter isCollected).isEmpty ∧
      calls (feed (handleFrame registry) inputs s world).events =
        ((before ++ [last]).filter (fun p => !isCollected p)).map call := by
  obtain ⟨early, now, rfl, hearly⟩ := inputs_split hinputs
  obtain ⟨hunderway, hcalls⟩ :=
    feed_before hopen hroom hpeer world (.start hnew) hearly hbefore
  obtain ⟨hend, hcalled⟩ := handleFrame_dispatched now
    (feed (handleFrame registry) early s world).world hopen hunderway hlast hpeer hcollected
  rw [feed_append]
  constructor
  · exact hend.contains_eq
  · simp only [feed, calls_append, hcalls, hcalled, List.filter_append, List.map_append]
    simp [hcollected, call, calls]

/-- If the final part is collected, what was collected reaches the handler after everything else. -/
theorem feed_completing {before : List Message} {last m : Message} {inputs : List (Nat × Bytes)}
    (world : σ) (hnew : s.assemblies.contains id = false)
    (hinputs : inputs.map Prod.snd = (before ++ [last]).map Message.encode)
    (hbefore : ∀ p ∈ before, Incoming registry handler id p ∧ p.isFinal = false)
    (hlast : Incoming registry handler id last) (hcollected : isCollected last = true)
    (hfinal : last.isFinal = true)
    (hreassemble : Message.reassemble ((before ++ [last]).filter isCollected) = some m)
    (hcore : m.body.kind.protocol ≠ .core)
    (hhandler : registry.find? m.header.protocol = some handler) :
    (feed (handleFrame registry) inputs s world).session.assemblies.contains id = false ∧
      calls (feed (handleFrame registry) inputs s world).events =
        (before.filter (fun p => !isCollected p)).map call ++ [((whole m).header, m.body)] := by
  obtain ⟨early, now, rfl, hearly⟩ := inputs_split hinputs
  obtain ⟨hunderway, hcalls⟩ :=
    feed_before hopen hroom hpeer world (.start hnew) hearly hbefore
  have hheld : (before ++ [last]).filter isCollected = [] ++ before.filter isCollected ++ [last] := by
    simp [hcollected]
  rw [hheld] at hreassemble
  obtain ⟨hend, hcalled⟩ := handleFrame_completing now
    (feed (handleFrame registry) early s world).world hopen hroom hunderway hlast hcollected hfinal
    hreassemble hcore hhandler
  rw [feed_append]
  constructor
  · exact hend
  · simp only [feed, calls_append, hcalls, hcalled]
    rfl

end Exchange

end Etp.Session
