import Etp.Proofs.Session.Holdings

/-!
# Exchanges that are turned away

A part is turned away if its exchange has no assembly and the limit for assemblies is reached.  The session
does not remember this: the next part of the exchange is judged in the same way, and it may find room that
another exchange has left.  Then the parts from this one on are put together as if they were all.
`turned_away` says what becomes of the exchange in either case.
-/

namespace Etp.Session

variable {σ : Type}

/-- Something holds whenever a part of an exchange arrives in a run. -/
def AtParts (registry : Registry σ) (id : Int64) (P : Nat → Session → σ → Message → Prop) :
    List (Nat × Option Message) → Session → σ → Prop
  | [], _, _ => True
  | (now, input) :: inputs, s, world =>
    let turn := handleMessage registry now s world input
    (∀ p, input = some p → p.exchangeId = id → isCollected p = true → P now s world p) ∧
      AtParts registry id P inputs turn.session turn.world

/-- There is no room when a part arrives. -/
def Full (_ : Nat) (s : Session) (_ : σ) (_ : Message) : Prop := ¬ s.HasRoom

/-- The session is open when a part arrives. -/
def Opened (_ : Nat) (s : Session) (_ : σ) (_ : Message) : Prop := s.Open

/-- A part leads to no call of a handler, and the session does not fail. -/
def Idle (registry : Registry σ) (now : Nat) (s : Session) (world : σ) (p : Message) : Prop :=
  let turn := handleMessage registry now s world (some p)
  calls turn.events = [] ∧ ∃ replies, turn.result = .ok replies

/-- The last part of an exchange arrives in a run and completes `parts`. -/
def CompletedIn (registry : Registry σ) (id : Int64) (parts : List Message)
    (inputs : List (Nat × Option Message)) (s : Session) (world : σ) : Prop :=
  ∃ before now last after, inputs = before ++ (now, some last) :: after ∧ last.exchangeId = id ∧
    let run := feed (handleMessage registry) before s world
    Completes registry id parts (handleMessage registry now run.session run.world (some last))

/-! ## While there is no room -/

/-- A message of another exchange neither begins an assembly nor ends it. -/
theorem contains_heldAfter_of_ne (now : Nat) (s : Session) {id : Int64} {q : Message}
    (hq : q.exchangeId ≠ id) :
    (s.heldAfter now (some q)).contains id = s.assemblies.contains id := by
  simp only [heldAfter]
  split
  · split
    · exact Assemblies.contains_erase_of_ne _ (Ne.symm hq)
    · exact Assemblies.contains_push_of_ne _ (Ne.symm hq) q now
  · rfl

/-- A part that finds no assembly of its exchange and no room is not taken. -/
theorem not_takes_of_full {s : Session} {id : Int64} (hnew : s.assemblies.contains id = false)
    {p : Message} (hid : p.exchangeId = id) (hfull : ¬ s.HasRoom) : ¬ s.Takes p := by
  intro htakes
  rcases htakes.admitted with hcontains | hroom
  · rw [hid, hnew] at hcontains
    cases hcontains
  · exact hfull hroom

/-- Without room for a part of the exchange, no input begins its assembly. -/
theorem contains_heldAfter {s : Session} {id : Int64} (hnew : s.assemblies.contains id = false)
    (now : Nat) {input : Option Message}
    (hinput : ∀ p, input = some p → p.exchangeId = id → isCollected p = true → ¬ s.HasRoom) :
    (s.heldAfter now input).contains id = false := by
  match input with
  | none => exact hnew
  | some p =>
    by_cases hid : p.exchangeId = id
    · have hnot : ¬ s.Takes p := by
        intro htakes
        exact not_takes_of_full hnew hid (hinput p rfl hid htakes.collected) htakes
      simp only [heldAfter, if_neg hnot]
      exact hnew
    · rw [contains_heldAfter_of_ne now s hid]
      exact hnew

/-- A part that is not taken is answered with reports and acknowledgements only. -/
theorem idle_of_not_takes (registry : Registry σ) (now : Nat) {s : Session} (world : σ) {p : Message}
    (hcollected : isCollected p = true) (h : ¬ s.Takes p) : Idle registry now s world p := by
  unfold Idle
  rcases not_takes_cases h with ⟨fault, hgate⟩ | ⟨hgate, -, hnew, hfull⟩ | hpart
  · rw [handleMessage_eq, receive_refused _ world hgate]
    exact ⟨rfl, _, rfl⟩
  · rw [handleMessage_full registry now world hgate hcollected hnew hfull]
    exact ⟨rfl, _, rfl⟩
  · rw [hcollected] at hpart
    cases hpart

/-- As long as the parts of an exchange without an assembly find no room, they come to nothing. -/
theorem idle_of_full (registry : Registry σ) {id : Int64} {inputs : List (Nat × Option Message)}
    {s : Session} {world : σ} (hnew : s.assemblies.contains id = false)
    (hfull : AtParts registry id Full inputs s world) :
    AtParts registry id (Idle registry) inputs s world ∧
      (feed (handleMessage registry) inputs s world).session.assemblies.contains id = false := by
  induction inputs generalizing s world with
  | nil => exact ⟨trivial, hnew⟩
  | cons input inputs ih =>
    obtain ⟨now, input⟩ := input
    obtain ⟨hnow, hlater⟩ := hfull
    have hnext : (handleMessage registry now s world input).session.assemblies.contains id = false := by
      rw [assemblies_handleMessage]
      exact contains_heldAfter hnew now hnow
    obtain ⟨hidle, hend⟩ := ih hnext hlater
    refine ⟨⟨?_, hidle⟩, hend⟩
    intro p hp hid hcollected
    apply idle_of_not_takes registry now world hcollected
    exact not_takes_of_full hnew hid (hnow p hp hid hcollected)

/-! ## Once there is room -/

/-- A later input completes the exchange in the run that begins with an earlier one. -/
theorem CompletedIn.cons {registry : Registry σ} {id : Int64} {parts : List Message} {now : Nat}
    {input : Option Message} {inputs : List (Nat × Option Message)} {s : Session} {world : σ}
    (h : let turn := handleMessage registry now s world input
      CompletedIn registry id parts inputs turn.session turn.world) :
    CompletedIn registry id parts ((now, input) :: inputs) s world := by
  obtain ⟨before, time, last, after, rfl, hlast, hcompletes⟩ := h
  exact ⟨(now, input) :: before, time, last, after, rfl, hlast, hcompletes⟩

/-- A message of another exchange leaves what is held of an exchange as it is. -/
theorem untouched_of_ne (registry : Registry σ) (now : Nat) (s : Session) (world : σ) {id : Int64}
    {q : Message} (hq : q.exchangeId ≠ id) :
    let t := (handleMessage registry now s world (some q)).session
    t.assemblies.contains id = s.assemblies.contains id ∧
      t.assemblies.parts id = s.assemblies.parts id := by
  intro t
  have hheld : t.assemblies = s.heldAfter now (some q) := assemblies_handleMessage registry now s world _
  rw [hheld]
  refine ⟨contains_heldAfter_of_ne now s hq, ?_⟩
  rw [parts_heldAfter, Option.toList_some, List.filter_cons_of_neg (by simp [hq])]
  rfl

/-- A part that is taken completes its exchange if it is the final one, and is held otherwise. -/
theorem completedIn_of_takes (registry : Registry σ) {now : Nat} {q : Message}
    {inputs : List (Nat × Option Message)} {s : Session} (world : σ) (hopen : s.Open)
    (htakes : s.Takes q) (hends : Message.EndsWith true (q :: arrived q.exchangeId inputs))
    (hlater : let turn := handleMessage registry now s world (some q)
      turn.session.assemblies.contains q.exchangeId = true →
        Message.EndsWith true (arrived q.exchangeId inputs) →
        CompletedIn registry q.exchangeId
          (turn.session.assemblies.parts q.exchangeId ++ arrived q.exchangeId inputs) inputs
          turn.session turn.world) :
    CompletedIn registry q.exchangeId
      (s.assemblies.parts q.exchangeId ++ arrived q.exchangeId ((now, some q) :: inputs))
      ((now, some q) :: inputs) s world := by
  rw [arrived_own now inputs rfl]
  rcases hends.of_cons with ⟨hfinal, hnone⟩ | ⟨hfinal, hends⟩
  · rw [hnone]
    refine ⟨[], now, q, inputs, rfl, rfl, ?_⟩
    exact handleMessage_completes registry now world hopen htakes hfinal
  · have hheld := assemblies_taking registry now world htakes
    rw [hfinal, if_neg Bool.false_ne_true] at hheld
    have hparts := s.assemblies.parts_push q.exchangeId q now
    have hcontains := s.assemblies.contains_push q.exchangeId q now
    rw [← hheld] at hparts hcontains
    rw [List.append_cons, ← hparts]
    apply CompletedIn.cons
    exact hlater hcontains hends

/-- An exchange of which a part is held is completed by its final part, from what is held and all parts
that arrive. -/
theorem completedIn_of_contains (registry : Registry σ) {id : Int64}
    {inputs : List (Nat × Option Message)} {s : Session} (world : σ)
    (hcontains : s.assemblies.contains id = true) (hopen : AtParts registry id Opened inputs s world)
    (hcollected : ∀ p ∈ arrived id inputs, isCollected p = true)
    (hends : Message.EndsWith true (arrived id inputs)) :
    CompletedIn registry id (s.assemblies.parts id ++ arrived id inputs) inputs s world := by
  -- Only the parts of the exchange change what is held of it, so it keeps its place up to the final one.
  induction inputs generalizing s world with
  | nil =>
    obtain ⟨before, last, hsplit, -⟩ := hends
    simp [arrived] at hsplit
  | cons input inputs ih =>
    obtain ⟨now, input⟩ := input
    obtain ⟨hnow, hlater⟩ := hopen
    cases input with
    | none =>
      have hcontains :
          (handleMessage registry now s world none).session.assemblies.contains id = true := hcontains
      apply CompletedIn.cons
      exact ih _ hcontains hlater hcollected hends
    | some q =>
      by_cases hq : q.exchangeId = id
      · subst hq
        rw [arrived_own now inputs rfl] at hcollected hends
        have hown := hcollected q List.mem_cons_self
        have hopen : s.Open := hnow q rfl rfl hown
        apply completedIn_of_takes registry world hopen ⟨hopen.gate_eq q, hown, .inl hcontains⟩ hends
        intro turn hcontains hends
        exact ih _ hcontains hlater (fun p hp => hcollected p (List.mem_cons_of_mem q hp)) hends
      · rw [arrived_other now inputs hq] at hcollected hends ⊢
        obtain ⟨hcontains', hparts⟩ := untouched_of_ne registry now s world hq
        rw [← hparts]
        apply CompletedIn.cons
        exact ih _ (hcontains'.trans hcontains) hlater hcollected hends

/-- So is an exchange of which nothing is held and whose next part finds room. -/
theorem completedIn_of_hasRoom (registry : Registry σ) {now : Nat} {q : Message}
    {inputs : List (Nat × Option Message)} {s : Session} (world : σ) (hroom : s.HasRoom)
    (hnew : s.assemblies.contains q.exchangeId = false)
    (hopen : AtParts registry q.exchangeId Opened ((now, some q) :: inputs) s world)
    (hcollected : ∀ p ∈ arrived q.exchangeId ((now, some q) :: inputs), isCollected p = true)
    (hends : Message.EndsWith true (arrived q.exchangeId ((now, some q) :: inputs))) :
    CompletedIn registry q.exchangeId (arrived q.exchangeId ((now, some q) :: inputs))
      ((now, some q) :: inputs) s world := by
  obtain ⟨hnow, hlater⟩ := hopen
  rw [arrived_own now inputs rfl] at hcollected hends
  have hown := hcollected q List.mem_cons_self
  have hopen : s.Open := hnow q rfl rfl hown
  have htakes : s.Takes q := ⟨hopen.gate_eq q, hown, .inr hroom⟩
  rw [← List.nil_append (arrived _ _), ← Assemblies.parts_of_not_contains hnew]
  apply completedIn_of_takes registry world hopen htakes hends
  intro turn hcontains hends
  exact completedIn_of_contains registry _ hcontains hlater
    (fun p hp => hcollected p (List.mem_cons_of_mem q hp)) hends

/-- A part that finds no assembly of its exchange and no room is answered with a final report and changes
no assembly.  The parts that follow come to nothing as long as they find no room either.  If one of them
does, it begins an assembly, and the final part completes what arrived from this one on. -/
theorem turned_away (registry : Registry σ) {s : Session} {p : Message} (hgate : s.gate p = none)
    (hcollected : isCollected p = true) (hnew : s.assemblies.contains p.exchangeId = false)
    (hfull : ¬ s.HasRoom) (now : Nat) (world : σ) :
    let id := p.exchangeId
    let turn := handleMessage registry now s world (some p)
    turn.result = .ok ((s.acknowledge p).1.reduceOption ++
        [((s.acknowledge p).2.report .limitExceeded id).1]) ∧
      calls turn.events = [] ∧ turn.session.assemblies = s.assemblies ∧
      (∀ later, AtParts registry id Full later turn.session turn.world →
        AtParts registry id (Idle registry) later turn.session turn.world) ∧
      ∀ early rest,
        let run := feed (handleMessage registry) early turn.session turn.world
        AtParts registry id Full early turn.session turn.world → run.session.HasRoom →
          (∃ time q later, rest = (time, some q) :: later ∧ q.exchangeId = id) →
          AtParts registry id Opened rest run.session run.world →
          (∀ q ∈ arrived id rest, isCollected q = true) → Message.EndsWith true (arrived id rest) →
          CompletedIn registry id (arrived id rest) rest run.session run.world := by
  intro id turn
  have hturn := handleMessage_full registry now world hgate hcollected hnew hfull
  have hassemblies : turn.session.assemblies = s.assemblies :=
    assemblies_not_taking registry now world (not_takes_of_full hnew rfl hfull)
  have hnew' : turn.session.assemblies.contains id = false := by
    rw [hassemblies]
    exact hnew
  refine ⟨?_, ?_, hassemblies, ?_, ?_⟩
  · simp only [turn, hturn, Turn.present, reportOnly, Except.map, List.filterMap_append]
    rfl
  · simp only [turn, hturn]
    rfl
  · intro later hlater
    exact (idle_of_full registry hnew' hlater).1
  · rintro early rest run hearly hroom ⟨time, q, later, rfl, hid⟩ hopen hparts hends
    have hbefore := (idle_of_full registry hnew' hearly).2
    rw [← hid] at hbefore hopen hparts hends ⊢
    exact completedIn_of_hasRoom registry run.world hroom hbefore hopen hparts hends

/-- A session in which one exchange may be put together at a time, and one has begun. -/
def narrowSession : Session :=
  let settings := Settings.default.withCapability Capability.maxConcurrentMultipart.name (.long 1)
  (feed (handleMessage countingRegistry)
    [(0, some (Message.request ⟨.requestSession, Shape.default _⟩)),
      (10, some (keyedParts 4 "a" (Message.countingFresh.blobs.nth 1) [1, 2] true).1)]
    (Session.start settings 1 Message.countingFresh.blobs) 0).session

/-- The parts of a request to store two objects, which arrives while there is no room. -/
def lateParts : Message × Message × Message × Message :=
  let first := keyedParts 6 "b" (Message.countingFresh.blobs.nth 2) [3] false
  let second := keyedParts 6 "c" (Message.countingFresh.blobs.nth 3) [4] true
  (first.1, first.2, second.1, second.2)

/-- The final part of the exchange that holds the only place. -/
def leaving : List (Nat × Option Message) :=
  [(30, some (keyedParts 4 "a" (Message.countingFresh.blobs.nth 1) [1, 2] true).2)]

/-- The other parts of the late request. -/
def lateRest : List (Nat × Option Message) :=
  [(40, some lateParts.2.1), (50, some lateParts.2.2.1), (60, some lateParts.2.2.2)]

/-- The first part is turned away, the others are taken, and the request loses its first object. -/
theorem turned_away_first :
    let turn := handleMessage countingRegistry 20 narrowSession 0 (some lateParts.1)
    let run := feed (handleMessage countingRegistry) leaving turn.session turn.world
    narrowSession.gate lateParts.1 = none ∧ isCollected lateParts.1 = true ∧
      narrowSession.assemblies.contains lateParts.1.exchangeId = false ∧ ¬ narrowSession.HasRoom ∧
      AtParts countingRegistry 6 Full leaving turn.session turn.world ∧ run.session.HasRoom ∧
      (arrived 6 lateRest).map (·.body) =
        [lateParts.2.1.body, lateParts.2.2.1.body, lateParts.2.2.2.body] ∧
      CompletedIn countingRegistry 6 (arrived 6 lateRest) lateRest run.session run.world := by
  intro turn run
  have hgate : narrowSession.gate lateParts.1 = none := by decide +kernel
  have hnew : narrowSession.assemblies.contains lateParts.1.exchangeId = false := by decide +kernel
  have hfull : ¬ narrowSession.HasRoom := by decide +kernel
  obtain ⟨-, -, -, -, hreadmitted⟩ := turned_away countingRegistry (p := lateParts.1) hgate
    (by decide +kernel) hnew hfull 20 0
  have hearly : AtParts countingRegistry 6 Full leaving turn.session turn.world := by
    refine ⟨?_, trivial⟩
    intro p hp hid
    cases hp
    exact absurd hid (by decide +kernel)
  have hroom : run.session.HasRoom := by decide +kernel
  have hopen : AtParts countingRegistry 6 Opened lateRest run.session run.world :=
    ⟨fun _ _ _ _ => ⟨by decide +kernel, by decide +kernel⟩,
      fun _ _ _ _ => ⟨by decide +kernel, by decide +kernel⟩,
      fun _ _ _ _ => ⟨by decide +kernel, by decide +kernel⟩, trivial⟩
  have hends : Message.EndsWith true (arrived 6 lateRest) :=
    ⟨[lateParts.2.1, lateParts.2.2.1], lateParts.2.2.2, by decide +kernel, by decide +kernel,
      by decide +kernel⟩
  have hcompleted := hreadmitted leaving lateRest hearly hroom ⟨40, _, _, rfl, by decide +kernel⟩ hopen
    (by decide +kernel) hends
  exact ⟨hgate, by decide +kernel, hnew, hfull, hearly, hroom, by decide +kernel, hcompleted⟩

/-- Once the place is free, a part of an exchange that was turned away makes the session fail, or its
handler gets the request without the object whose part was turned away. -/
theorem readmitted_part :
    let refused := handleMessage countingRegistry 20 narrowSession 0 (some lateParts.1)
    let run := feed (handleMessage countingRegistry) leaving refused.session refused.world
    narrowSession.Reachable ∧ narrowSession.phase = .connected ∧
      refused.result.map (·.map (fun m => (m.body, m.header.correlationId, m.isFinal))) =
        .ok [(Fault.limitExceeded.toBody, 6, true)] ∧
      (handleMessage countingRegistry 40 run.session run.world (some lateParts.2.2.2)).result =
        .error (.missingReferencer 6) ∧
      (calls (feed (handleMessage countingRegistry) lateRest run.session run.world).events).map
          Prod.snd =
        [⟨.putDataObjects, KeyMap.ofList [("c", Message.holding [4])], false, ()⟩] := by
  refine ⟨.handled countingRegistry 10 0 _ (.handled countingRegistry 0 0 _ (.start _ 1 _)), ?_⟩
  decide +kernel

end Etp.Session
