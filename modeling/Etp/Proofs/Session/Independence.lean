import Etp.Proofs.Session.Holdings

/-!
# The calls of a run

What an open session gives to its handlers is settled input by input: a frame that cannot be read leads to
no call, a message that is no part is given to its own handler, and the final part of an exchange leads to
the call on what the parts held of this exchange make up (`calls_handleMessage`).  So the calls of a run in
which exchanges are interleaved are known altogether (`callsOn_interleaved`): each exchange has its one
call, and nothing that arrives in between adds one, takes one away or changes one.
-/

namespace Etp.Session

variable {σ : Type}

/-! ## The calls of one input -/

/-- The calls to which an input leads in an open session. -/
def callsAt (registry : Registry σ) (s : Session) : Option Message → List (Header × Body)
  | none => []
  | some q =>
    if isCollected q then
      if s.Takes q ∧ q.isFinal then
        match Message.reassemble (s.assemblies.parts q.exchangeId ++ [q]) with
        | some m => called registry (whole m)
        | none => []
      else []
    else called registry q

theorem calls_collected (registry : Registry σ) (now : Nat) {s : Session} (world : σ) (hopen : s.Open)
    {q : Message} (hcollected : isCollected q = true) :
    calls (handleMessage registry now s world (some q)).events = callsAt registry s (some q) := by
  simp only [callsAt, if_pos hcollected]
  by_cases htakes : s.Takes q
  · by_cases hfinal : q.isFinal = true
    · rw [if_pos ⟨htakes, hfinal⟩]
      have hcompletes := handleMessage_completes registry now world hopen htakes hfinal
      cases hparts : Message.reassemble (s.assemblies.parts q.exchangeId ++ [q]) with
      | none =>
        simp only [Completes, hparts] at hcompletes
        exact hcompletes.1
      | some m =>
        simp only [Completes, hparts] at hcompletes
        exact hcompletes.1
    · rw [if_neg (fun h => hfinal h.2), handleMessage_taking registry now world htakes]
      simp only [hfinal, Bool.false_eq_true, if_false]
      rfl
  · rw [if_neg (fun h => htakes h.1)]
    rcases not_takes_cases htakes with ⟨fault, hgate⟩ | ⟨hgate, -, hnew, hfull⟩ | hnone
    · rw [hopen.gate_eq q] at hgate
      cases hgate
    · rw [handleMessage_full registry now world hgate hcollected hnew hfull]
      rfl
    · rw [hcollected] at hnone
      cases hnone

theorem calls_not_collected (registry : Registry σ) (now : Nat) {s : Session} (world : σ) {q : Message}
    (hadmits : s.Admits q) (hcollected : isCollected q = false) :
    calls (handleMessage registry now s world (some q)).events = called registry q := by
  obtain ⟨peer, hdispatch⟩ := dispatch_calls registry s world q
  rw [handleMessage_eq, receive_not_collected registry now s world hcollected]
  exact (receive_dispatched hadmits hdispatch).calls_eq

/-- The calls to which an input leads that neither closes nor opens the session. -/
theorem calls_handleMessage (registry : Registry σ) (now : Nat) {s : Session} (world : σ)
    (hopen : s.Open) {input : Option Message} (hadmits : ∀ q, input = some q → s.Admits q) :
    calls (handleMessage registry now s world input).events = callsAt registry s input := by
  match input with
  | none => rfl
  | some q =>
    cases hcollected : isCollected q with
    | true => exact calls_collected registry now world hopen hcollected
    | false =>
      rw [calls_not_collected registry now world (hadmits q rfl) hcollected, callsAt, hcollected]
      rfl

/-! ## The calls of a run -/

/-- The inputs of a run, each with the calls to which it led. -/
def log (registry : Registry σ) (inputs : List (Nat × Option Message)) (s : Session) (world : σ) :
    List (Option Message × List (Header × Body)) := (feed (logged registry) inputs s world).result

/-- The log has every input and every call. -/
theorem log_eq (registry : Registry σ) (inputs : List (Nat × Option Message)) (s : Session) (world : σ) :
    (log registry inputs s world).map Prod.fst = inputs.map Prod.snd ∧
      (log registry inputs s world).flatMap Prod.snd =
        calls (feed (handleMessage registry) inputs s world).events := by
  induction inputs generalizing s world with
  | nil => exact ⟨rfl, rfl⟩
  | cons input inputs ih =>
    obtain ⟨now, input⟩ := input
    obtain ⟨hinputs, hcalls⟩ := ih (handleMessage registry now s world input).session
      (handleMessage registry now s world input).world
    simp only [log] at hinputs hcalls
    simp only [log, feed, logged, List.map_cons, List.flatMap_cons, calls_append, hinputs, hcalls,
      and_self]

/-- A run is logged without being changed. -/
theorem feed_logged (registry : Registry σ) (inputs : List (Nat × Option Message)) (s : Session)
    (world : σ) :
    (feed (logged registry) inputs s world).session =
        (feed (handleMessage registry) inputs s world).session ∧
      (feed (logged registry) inputs s world).world =
        (feed (handleMessage registry) inputs s world).world := by
  induction inputs generalizing s world with
  | nil => exact ⟨rfl, rfl⟩
  | cons input inputs ih => exact ih _ _

section Steady

variable {registry : Registry σ} (hkeeps : registry.KeepsPeer)

include hkeeps

/-- An input that neither closes nor opens the session touches at most one exchange. -/
theorem touches_input (now : Nat) {s : Session} (world : σ) (hopen : s.Open) {input : Option Message}
    (hadmits : ∀ q, input = some q → s.Admits q) :
    ∃ id, s.Touches id (handleMessage registry now s world input).session := by
  match input with
  | none => exact ⟨0, .of_advances ⟨_, rfl⟩⟩
  | some q => exact ⟨_, touches_handleMessage hkeeps now world hopen (hadmits q rfl)⟩

/-- A session stays open while nothing closes or opens it. -/
theorem feed_stays_open {inputs : List (Nat × Option Message)} {s : Session} (world : σ) (hopen : s.Open)
    (hstays : ∀ q ∈ inputs.filterMap Prod.snd,
      q.body.kind ≠ .closeSession ∧ s.offers q.body = none) :
    (feed (handleMessage registry) inputs s world).session.Open ∧
      ∀ body, (feed (handleMessage registry) inputs s world).session.offers body = s.offers body := by
  induction inputs generalizing s world with
  | nil => exact ⟨hopen, fun _ => rfl⟩
  | cons input inputs ih =>
    obtain ⟨now, input⟩ := input
    let turn := handleMessage registry now s world input
    have hadmits : ∀ q, input = some q → s.Admits q := by
      rintro q rfl
      obtain ⟨hclose, hoffers⟩ := hstays q List.mem_cons_self
      exact hopen.admits hclose hoffers
    obtain ⟨id, htouches⟩ : ∃ id, s.Touches id turn.session :=
      touches_input hkeeps now world hopen hadmits
    obtain ⟨hrest, hoffers⟩ := ih turn.world (htouches.isOpen hopen) (htouches.stays hstays)
    exact ⟨hrest, fun body => (hoffers body).trans (htouches.offers_eq body)⟩

/-- What the log has of an input. -/
theorem log_split {before after : List (Nat × Option Message)} {now : Nat} {input : Option Message}
    {s : Session} (world : σ) (hopen : s.Open)
    (hstays : ∀ q ∈ (before ++ (now, input) :: after).filterMap Prod.snd,
      q.body.kind ≠ .closeSession ∧ s.offers q.body = none) :
    ∃ later, log registry (before ++ (now, input) :: after) s world =
      log registry before s world ++
        (input, callsAt registry (feed (handleMessage registry) before s world).session input) ::
          later := by
  let found := feed (handleMessage registry) before s world
  rw [List.filterMap_append] at hstays
  obtain ⟨hfound, hoffers⟩ : found.session.Open ∧ ∀ body, found.session.offers body = s.offers body :=
    feed_stays_open hkeeps world hopen (fun q hq => hstays q (List.mem_append_left _ hq))
  have hadmits : ∀ q, input = some q → found.session.Admits q := by
    rintro q rfl
    obtain ⟨hclose, hnone⟩ := hstays q (List.mem_append_right _ List.mem_cons_self)
    exact hfound.admits hclose ((hoffers q.body).trans hnone)
  obtain ⟨hsession, hworld⟩ := feed_logged registry before s world
  have hcalls := calls_handleMessage registry now found.world hfound hadmits
  let next := handleMessage registry now found.session found.world input
  refine ⟨log registry after next.session next.world, ?_⟩
  rw [log, feed_append, ← hcalls]
  simp only [hsession, hworld]
  rfl

end Steady

/-- The calls of a run in which the exchanges `ids` are interleaved. -/
structure Separated (registry : Registry σ) (ids : List Int64) (inputs : List (Nat × Option Message))
    (s : Session) (world : σ) : Prop where
  /-- The log has all inputs of the run. -/
  inputs_eq : (log registry inputs s world).map Prod.fst = inputs.map Prod.snd
  /-- The log has all calls of the run. -/
  calls_eq : (log registry inputs s world).flatMap Prod.snd =
    calls (feed (handleMessage registry) inputs s world).events
  /-- Every input, of whatever exchange or of none, leads to its own calls and to no other ones; what is
  held of its exchange by then are the parts of this exchange which were taken before. -/
  at_input : ∀ before now input after, inputs = before ++ (now, input) :: after →
    let found := (feed (handleMessage registry) before s world).session
    (∃ later, log registry inputs s world =
        log registry before s world ++ (input, callsAt registry found input) :: later) ∧
      ∀ id, found.assemblies.parts id =
        (taken registry id before s world).foldl keep (s.assemblies.parts id)
  /-- Each of the exchanges leads to one call, with its final part.  The call is on what its own parts make
  up in the order of their arrival, which is no part any more, asks for no acknowledgement and is final. -/
  at_exchange : ∀ id ∈ ids, ∃ m,
    Message.reassemble (s.assemblies.parts id ++ arrived id inputs) = some m ∧
      callsOn registry id inputs s world =
        List.replicate ((arrived id inputs).length - 1) [] ++
          [if (registry.find? m.header.protocol).isSome then
            [({ m.header with
              flags := (m.header.flags.remove (Flags.multipart.union .acknowledge)).put .final true },
              m.body)]
          else []]

/-- Exchanges whose parts arrive interleaved do not interfere.  Whatever else arrives, each of them leads
to the call of a handler when its final part arrives, if there is a handler for its protocol, and to none
before; and no other input leads to any call but its own. -/
theorem callsOn_interleaved {registry : Registry σ} (hkeeps : registry.KeepsPeer) {ids : List Int64}
    {inputs : List (Nat × Option Message)} {s : Session} (world : σ) (hopen : s.Open)
    (hstays : ∀ q ∈ inputs.filterMap Prod.snd,
      q.body.kind ≠ .closeSession ∧ s.offers q.body = none)
    (hcollected : ∀ id ∈ ids, ∀ p ∈ arrived id inputs, isCollected p = true)
    (hends : ∀ id ∈ ids, Message.EndsWith true (arrived id inputs))
    (hreferencer : ∀ id ∈ ids, ∃ p ∈ s.assemblies.parts id ++ arrived id inputs,
      p.isReferencer = true)
    (hroom : ∀ id ∈ ids, RoomFor registry id inputs s world) :
    Separated registry ids inputs s world where
  inputs_eq := (log_eq registry inputs s world).1
  calls_eq := (log_eq registry inputs s world).2
  at_input := by
    rintro before now input after rfl found
    exact ⟨log_split hkeeps world hopen hstays, fun id => parts_feed registry id before s world⟩
  at_exchange := by
    intro id hid
    obtain ⟨m, hparts⟩ := Message.reassemble_of_referencer (hreferencer id hid)
    exact ⟨m, hparts, callsOn_of_exchange hkeeps world hopen hstays (hcollected id hid) (hends id hid)
      (hroom id hid) hparts⟩

theorem crossing_hasRoom (id : Int64) : RoomFor countingRegistry id crossing openedSession 0 := by
  refine ⟨fun _ _ => ?_, fun _ _ => ?_, fun _ _ => ?_, fun _ _ => ?_, fun _ _ => ?_, fun _ _ => ?_,
    trivial⟩
  all_goals
    unfold HasRoom
    decide +kernel

/-- Each of the two requests reaches the handler, the one that began later before the other, and so does
the request between them. -/
theorem callsOn_interleaved_crossing :
    openedSession.Open ∧ (arrived 4 crossing).length = 2 ∧ (arrived 6 crossing).length = 2 ∧
      (log countingRegistry crossing openedSession 0).map (fun entry => entry.2.length) =
        [0, 0, 1, 0, 1, 1] ∧
      Separated countingRegistry [4, 6] crossing openedSession 0 := by
  have hkeeps : countingRegistry.KeepsPeer := by
    intro protocol handler hhandler
    obtain ⟨p, _, hp⟩ := Option.bind_eq_some_iff.1 hhandler
    simp only [countingRegistry] at hp
    split at hp
    · cases hp
      intro body header peer count
      rfl
    · cases hp
  -- Each condition is checked for one exchange and then for the other.
  have hboth : ∀ {P : Int64 → Prop}, P 4 → P 6 → ∀ id ∈ [4, 6], P id := fun h h' =>
    List.forall_mem_cons.2 ⟨h, List.forall_mem_singleton.2 h'⟩
  have hends : Message.EndsWith true (arrived 4 crossing) :=
    ⟨[(twoParts 4 (Message.countingFresh.blobs.nth 1) [1, 2]).1],
      (twoParts 4 (Message.countingFresh.blobs.nth 1) [1, 2]).2, by decide +kernel,
      by decide +kernel, by decide +kernel⟩
  have hends' : Message.EndsWith true (arrived 6 crossing) :=
    ⟨[(twoParts 6 (Message.countingFresh.blobs.nth 2) [3]).1],
      (twoParts 6 (Message.countingFresh.blobs.nth 2) [3]).2, by decide +kernel,
      by decide +kernel, by decide +kernel⟩
  refine ⟨openedSession_isOpen, by decide +kernel, by decide +kernel, by decide +kernel, ?_⟩
  refine callsOn_interleaved hkeeps 0 openedSession_isOpen (by decide +kernel) ?_ ?_ ?_ ?_
  · exact hboth (by decide +kernel) (by decide +kernel)
  · exact hboth hends hends'
  · exact hboth (by decide +kernel) (by decide +kernel)
  · exact fun id _ => crossing_hasRoom id

end Etp.Session
