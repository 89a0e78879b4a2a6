import Etp.Proofs.Session.Holdings

/-!
# Assemblies outlive the session

When the other end closes a session, the parts of unfinished exchanges stay where they are.  If the session
is opened again and an exchange takes up the identifier of one of them, the old parts stand in front of
the new ones.  `held_across_close` says for every run after a close what an exchange is put together from.
-/

namespace Etp.Session

variable {σ : Type}

/-! ## Parts from before and after -/

/-- Without a final part among them, parts are added to what was held. -/
theorem foldl_keep_of_unfinished {held later : List Message}
    (h : ∀ q ∈ later, q.isFinal = false) : later.foldl keep held = held ++ later := by
  induction later generalizing held with
  | nil => simp
  | cons q later ih =>
    have hq := h q List.mem_cons_self
    have hlater := fun r hr => h r (List.mem_cons_of_mem q hr)
    rw [List.foldl_cons, keep, hq, if_neg Bool.false_ne_true, ih hlater, List.append_assoc]
    rfl

/-- After a final part it does not matter what was held. -/
theorem foldl_keep_of_finished {later : List Message} (h : ∃ q ∈ later, q.isFinal = true)
    (held : List Message) : later.foldl keep held = later.foldl keep [] := by
  induction later generalizing held with
  | nil =>
    obtain ⟨q, hq, -⟩ := h
    cases hq
  | cons q later ih =>
    rw [List.foldl_cons, List.foldl_cons]
    by_cases hrest : ∃ r ∈ later, r.isFinal = true
    · rw [ih hrest, ih hrest (keep [] q)]
    · have hq : q.isFinal = true := by
        obtain ⟨r, hr, hfinal⟩ := h
        rcases List.mem_cons.1 hr with rfl | hr
        · exact hfinal
        · exact absurd ⟨r, hr, hfinal⟩ hrest
      simp only [keep, hq, if_true]

/-! ## Across a close -/

/-- Closing a session touches no assembly. -/
theorem handleMessage_closing (registry : Registry σ) (now : Nat) {s : Session} (world : σ)
    {m : Message} (hgate : s.gate m = none) (hconnected : s.connected = true)
    (hclose : m.body.kind = .closeSession) :
    (handleMessage registry now s world (some m)).session.phase = .closed ∧
      (handleMessage registry now s world (some m)).session.assemblies = s.assemblies := by
  obtain ⟨fresh, hacknowledged⟩ := s.acknowledge_advances m
  rw [handleMessage_eq, receive_closing _ world hgate hconnected hclose, hacknowledged]
  exact ⟨by simp [Turn.present, phase, close], rfl⟩

/-- After an accepted close exactly those assemblies are pending that were pending before it.  In every run
that follows, the exchange that is completed first under an identifier is put together from the parts that
were held at the close and those taken since; a later one only from parts taken since the one before. -/
theorem held_across_close (registry : Registry σ) {s : Session} (hconnected : s.connected = true)
    {m : Message} (hgate : s.gate m = none) (hclose : m.body.kind = .closeSession) (now : Nat)
    (world : σ) :
    let closed := handleMessage registry now s world (some m)
    closed.session.phase = .closed ∧ closed.session.assemblies = s.assemblies ∧
      ∀ inputs time p,
        let run := feed (handleMessage registry) inputs closed.session closed.world
        let later := taken registry p.exchangeId inputs closed.session closed.world
        let turn := handleMessage registry time run.session run.world (some p)
        run.session.Open → run.session.Takes p → p.isFinal = true →
          ((∀ q ∈ later, q.isFinal = false) →
            Completes registry p.exchangeId
              (s.assemblies.parts p.exchangeId ++ later ++ [p]) turn) ∧
          ((∃ q ∈ later, q.isFinal = true) →
            Completes registry p.exchangeId (later.foldl keep [] ++ [p]) turn) := by
  intro closed
  obtain ⟨hphase, hassemblies⟩ := handleMessage_closing registry now world hgate hconnected hclose
  refine ⟨hphase, hassemblies, ?_⟩
  intro inputs time p run later turn hopen htakes hfinal
  have hcompletes := handleMessage_completes registry time run.world hopen htakes hfinal
  have hheld : run.session.assemblies.parts p.exchangeId =
      later.foldl keep (s.assemblies.parts p.exchangeId) := by
    rw [parts_feed, hassemblies]
  rw [hheld] at hcompletes
  constructor
  · intro hunfinished
    rw [foldl_keep_of_unfinished hunfinished] at hcompletes
    exact hcompletes
  · intro hfinished
    rw [foldl_keep_of_finished hfinished] at hcompletes
    exact hcompletes

/-- The parts of an exchange of which the first arrives before the close. -/
def oldParts : Message × Message := keyedParts 4 "a" (Message.countingFresh.blobs.nth 1) [1, 2] true

/-- The parts of an exchange that begins after the session is opened again. -/
def newParts : Message × Message := keyedParts 4 "b" (Message.countingFresh.blobs.nth 2) [3] true

/-- An open session in which one exchange has begun. -/
def pendingSession : Session :=
  (handleMessage countingRegistry 10 openedSession 0 (some oldParts.1)).session

/-- The other end closes the session. -/
def closing : Message := Message.request ⟨.closeSession, Shape.default _⟩

/-- The session is opened again, and an exchange begins under the same identifier. -/
def reopening : List (Nat × Option Message) :=
  [(30, some (Message.request ⟨.requestSession, Shape.default _⟩)), (40, some newParts.1)]

/-- The exchange of the second session is put together with what was left of the first. -/
theorem held_across_close_reopening :
    pendingSession.connected = true ∧ pendingSession.gate closing = none ∧
      closing.body.kind = .closeSession ∧
      (let closed := handleMessage countingRegistry 20 pendingSession 0 (some closing)
      let run := feed (handleMessage countingRegistry) reopening closed.session closed.world
      closed.session.phase = .closed ∧ closed.session.assemblies = pendingSession.assemblies ∧
        run.session.Open ∧ run.session.Takes newParts.2 ∧ newParts.2.isFinal = true ∧
        Completes countingRegistry 4 [oldParts.1, newParts.1, newParts.2]
          (handleMessage countingRegistry 50 run.session run.world (some newParts.2))) := by
  have hconnected : pendingSession.connected = true := by decide +kernel
  have hgate : pendingSession.gate closing = none := by decide +kernel
  obtain ⟨hphase, hassemblies, hrun⟩ :=
    held_across_close countingRegistry hconnected hgate rfl 20 0
  have hopen : (feed (handleMessage countingRegistry) reopening
      (handleMessage countingRegistry 20 pendingSession 0 (some closing)).session 0).session.Open :=
    ⟨by decide +kernel, by decide +kernel⟩
  have htakes : (feed (handleMessage countingRegistry) reopening
      (handleMessage countingRegistry 20 pendingSession 0 (some closing)).session 0).session.Takes
        newParts.2 := by
    decide +kernel
  have hcompletes := (hrun reopening 50 newParts.2 hopen htakes (by decide +kernel)).1
    (by decide +kernel)
  exact ⟨hconnected, hgate, rfl, hphase, hassemblies, hopen, htakes, by decide +kernel, hcompletes⟩

/-- An object that was announced before the close reaches a handler with the request of the session that
is opened after it. -/
theorem delivered_across_close :
    let closed := handleMessage countingRegistry 20 pendingSession 0 (some closing)
    let run := feed (handleMessage countingRegistry) reopening closed.session closed.world
    let turn := handleMessage countingRegistry 50 run.session run.world (some newParts.2)
    pendingSession.Reachable ∧ closed.session.phase = .closed ∧
      closed.session.assemblies.size = 1 ∧ run.session.phase = .connected ∧
      (calls turn.events).map Prod.snd =
        [⟨.putDataObjects, KeyMap.ofList
          [("a", (Message.holding []).withContent (some (Message.countingFresh.blobs.nth 1)) []),
            ("b", Message.holding [3])], false, ()⟩] := by
  refine ⟨.handled countingRegistry 10 0 _ reachable_openedSession, ?_⟩
  decide +kernel

end Etp.Session
