import Etp.Proofs.Session.Numbering
import Mathlib.Data.List.DropRight

/-!
# No two frames share an identifier

Whatever an endpoint receives and sends, each frame that it puts on the wire has an identifier of its own,
and the two ends of a session never use the same one.  A step draws the identifiers of its frames or
leaves some of them unused (`operate_sends`), and so does a run (`feed_sends`).  The report that an
application may hand over with a request is not among these frames: it has the identifier that the
application gave it.
-/

namespace Etp.Session

variable {σ τ : Type}

/-- What an endpoint does with its session. -/
inductive Operation where
  /-- A frame is received and answered. -/
  | receive (frame : Bytes)
  /-- A request is sent, and a report behind it. -/
  | send (request report : Option Message)
  /-- Exchanges that are too old are dropped. -/
  | sweep
  /-- An identifier is taken for a purpose of the application. -/
  | draw
  /-- The application changes what is known about the peer. -/
  | inform (peer : Peer)

/-- The frames of the report that goes behind a request. -/
def trailing (s : Session) (request report : Option Message) : List Bytes :=
  (encodeAll report.toList (s.prepare request none).2.2).1

/-- Carries out an operation.  The result has the frames that are put on the wire, less those of the
report behind a request, which are dropped from their end. -/
def operate (registry : Registry σ) (now : Nat) (s : Session) (world : σ) :
    Operation → Turn σ (List Bytes)
  | .receive frame =>
    let turn := handleFrame registry now s world frame
    { turn with result := turn.result.toOption.getD [] }
  | .send request report =>
    let (frames, events, t) := s.prepare request report
    ⟨t, world, events, (frames.map (·.2)).rdrop (s.trailing request report).length⟩
  | .sweep => ⟨(s.sweep now).2.2, world, (s.sweep now).2.1, []⟩
  | .draw => ⟨s.drawId.2, world, [], []⟩
  | .inform peer => ⟨{ s with peer := peer }, world, [], []⟩

/-! ## Steps -/

theorem encodeAll_append (ms later : List Message) (s : Session) :
    encodeAll (ms ++ later) s =
      let first := encodeAll ms s
      let rest := encodeAll later first.2.2
      (first.1 ++ rest.1, first.2.1 ++ rest.2.1, rest.2.2) := by
  induction ms generalizing s with
  | nil => rfl
  | cons m ms ih => simp [encodeAll, ih, List.append_assoc]

/-- What is sent for a request by itself, in terms of its parts. -/
theorem prepare_request (s : Session) (m : Message) :
    let parts := ((m.withId s.drawId.1).addFlags .final).parts s.peer.capabilities.maxFrameSize
      s.drawId.2.fresh
    (s.prepare (some m) none).1.map (·.2) = parts.1.map (·.message.encode) ∧
      (s.prepare (some m) none).2.2 = { s with fresh := parts.2 } := by
  simp [prepare, encodeAll, encode, Message.frames, drawId, Function.comp_def]

/-- A report is sent behind the request, as if on its own. -/
theorem prepare_report (s : Session) (request report : Option Message) :
    (s.prepare request report).1.map (·.2) =
        (s.prepare request none).1.map (·.2) ++ s.trailing request report ∧
      (s.prepare request report).2.2 = (encodeAll report.toList (s.prepare request none).2.2).2.2 := by
  simp [prepare, trailing, encodeAll_append, Function.comp_def]

/-- Of the frames of a request and a report behind it, the first are those of the request alone. -/
theorem operate_send (registry : Registry σ) (now : Nat) (s : Session) (world : σ)
    (request report : Option Message) :
    (operate registry now s world (.send request report)).result =
      (s.prepare request none).1.map (·.2) := by
  simp only [operate, (s.prepare_report request report).1, List.rdrop_append_length]

/-- A request is sent under the identifier that was drawn for it. -/
theorem prepare_sends (s : Session) (request report : Option Message) :
    Sends [] s ((s.prepare request none).1.map (·.2)) (s.prepare request report).2.2 := by
  have hdraws : s.Draws [s.drawId.1] s.drawId.2 := IdCounter.Draws.draw s.fresh.ids
  have hrequest : Sends [s.drawId.1] s.drawId.2 ((s.prepare request none).1.map (·.2))
      (s.prepare request none).2.2 := by
    cases request with
    | none => exact .silent _ s.drawId.2
    | some m =>
      have hsent : Sends [s.drawId.1] s.drawId.2 _ _ :=
        encodeAll_sends [(m.withId s.drawId.1).addFlags .final] s.drawId.2
      simpa [prepare, Function.comp_def] using hsent
  obtain ⟨ids, hreport⟩ := (encodeAll_sends report.toList (s.prepare request none).2.2).draws
  have hsends := hrequest.append (Sends.after hreport (.silent ([] ++ ids) _))
  rw [(s.prepare_report request report).2]
  simp only [List.append_nil] at hsends
  exact .after hdraws hsends

theorem handleFrame_sends (registry : Registry σ) (now : Nat) {s : Session} (world : σ)
    (frame : Bytes) (hs : s.deferred = []) :
    Sends [] s ((handleFrame registry now s world frame).result.toOption.getD [])
      (handleFrame registry now s world frame).session := by
  obtain ⟨ids, hdraws, hids⟩ := handleMessage_draws registry now world (incoming frame) hs
  rw [handleFrame_eq]
  generalize handleMessage registry now s world (incoming frame) = turn at hdraws hids
  unfold Turn.encoded
  cases hresult : turn.result with
  | error e => exact .after hdraws (.silent ([] ++ ids) turn.session)
  | ok replies =>
    have hsends := encodeAll_sends replies turn.session
    rw [hids replies hresult] at hsends
    exact .after hdraws hsends

/-- What an operation sends has identifiers that it drew. -/
theorem operate_sends (registry : Registry σ) (now : Nat) {s : Session} (world : σ) (op : Operation)
    (hs : Reachable s) :
    Sends [] s (operate registry now s world op).result (operate registry now s world op).session := by
  cases op with
  | receive frame => exact handleFrame_sends registry now world frame hs.deferred_eq
  | send request report =>
    rw [operate_send]
    exact s.prepare_sends request report
  | sweep =>
    simp only [operate, sweep]
    split
    · exact .silent [] s
    · exact .silent [] s
  | draw =>
    have hdraws : s.Draws [s.drawId.1] s.drawId.2 := IdCounter.Draws.draw s.fresh.ids
    exact .after hdraws (.silent _ s.drawId.2)
  | inform peer => exact .silent [] s

theorem Reachable.operated {s : Session} (hs : Reachable s) (registry : Registry σ) (now : Nat)
    (world : σ) (op : Operation) : Reachable (operate registry now s world op).session := by
  cases op with
  | receive frame =>
    simp only [operate, handleFrame]
    split
    · exact hs.handled registry now world _
    · exact (hs.handled registry now world _).encoded _
  | send request report => exact hs.drawn.encoded _
  | sweep => exact hs.swept now
  | draw => exact hs.drawn
  | inform peer => exact hs.informed peer

/-! ## Runs -/

/-- What a run sends has identifiers that were drawn in it. -/
theorem feed_sends (registry : Registry σ) (ops : List (Nat × Operation)) {s : Session} (world : σ)
    (hs : Reachable s) :
    Sends [] s (feed (operate registry) ops s world).result.flatten
      (feed (operate registry) ops s world).session := by
  induction ops generalizing s world with
  | nil => exact .silent [] s
  | cons op ops ih =>
    obtain ⟨now, op⟩ := op
    have hfirst := operate_sends registry now world op hs
    have hrest := ih (operate registry now s world op).world (hs.operated registry now world op)
    exact hfirst.append hrest

/-- The run of an endpoint from its start. -/
def runFrom (registry : Registry σ) (settings : Settings) (peerNumber : Nat) (blobs : Uuid.Supply)
    (world : σ) (ops : List (Nat × Operation)) : Turn σ (List (List Bytes)) :=
  feed (operate registry) ops (Session.start settings peerNumber blobs) world

/-- The frames of a run have each an identifier of their own, from the series of the endpoint: a server
has the odd numbers and a client the even ones.  The counter is beyond them all. -/
structure Identified (role : Role) (run : Turn σ (List (List Bytes))) : Prop where
  nodup : (run.result.flatten.map Message.frameId?).Nodup
  of_mem : ∀ frame ∈ run.result.flatten, ∃ id, Message.frameId? frame = some id ∧
    0 < id.toInt ∧ id.toInt % 2 = firstId role % 2 ∧ id.toInt < run.session.fresh.ids.next

/-- The frames of a run have identifiers that are not used twice. -/
theorem runFrom_identified (registry : Registry σ) (settings : Settings) (peerNumber : Nat)
    (blobs : Uuid.Supply) (world : σ) (ops : List (Nat × Operation))
    (hlimit : (runFrom registry settings peerNumber blobs world ops).session.fresh.ids.isOverdrawn =
      false) :
    Identified settings.role (runFrom registry settings peerNumber blobs world ops) := by
  have hs := Reachable.start settings peerNumber blobs
  obtain ⟨ids, hframes, drawn, hdraws, hids⟩ := feed_sends registry ops world hs
  constructor
  · have hdistinct : ids.Nodup := by
      obtain ⟨used, hperm, hsublist⟩ := hids
      exact hperm.nodup_iff.1 ((hdraws.nodup hs.next_nonneg hlimit).sublist hsublist)
    rw [runFrom, hframes]
    exact hdistinct.map (fun _ _ => Option.some.inj)
  · intro frame hframe
    have hmem : Message.frameId? frame ∈ ids.map some := by
      rw [← hframes]
      exact List.mem_map_of_mem hframe
    obtain ⟨id, hid, hvalue⟩ := List.mem_map.1 hmem
    obtain ⟨i, hseries, hbelow⟩ := hdraws.exists_of_mem hs.next_nonneg hlimit (hids.subset hid)
    rw [next_start] at hseries
    have hfirst : 0 < firstId settings.role := by
      cases settings.role with
      | client => decide
      | server => decide
    simp only [IdCounter.step] at hseries
    exact ⟨id, hvalue.symm, by omega, by omega, hbelow⟩

/-- No two frames of an endpoint have the same identifier, and none has one of the other end's.  What a
run leaves out is nothing but the frames of the report behind a request. -/
theorem identifiers_distinct :
    (∀ (registry : Registry σ) now (s : Session) world request report,
      (s.prepare request report).1.map (·.2) =
        (operate registry now s world (.send request report)).result ++ s.trailing request report) ∧
    (∀ (registry : Registry σ) settings peerNumber blobs world ops,
      let run := runFrom registry settings peerNumber blobs world ops
      run.session.fresh.ids.isOverdrawn = false → Identified settings.role run) ∧
    (∀ (registry : Registry σ) settings peerNumber blobs world ops,
      ∀ (registry' : Registry τ) settings' peerNumber' blobs' world' ops',
      let server := runFrom registry settings peerNumber blobs world ops
      let client := runFrom registry' settings' peerNumber' blobs' world' ops'
      settings.role = .server → settings'.role = .client →
      server.session.fresh.ids.isOverdrawn = false → client.session.fresh.ids.isOverdrawn = false →
        ∀ frame ∈ server.result.flatten, ∀ frame' ∈ client.result.flatten,
          Message.frameId? frame ≠ Message.frameId? frame') := by
  refine ⟨?_, runFrom_identified, ?_⟩
  · intro registry now s world request report
    rw [operate_send]
    exact (s.prepare_report request report).1
  intro registry settings peerNumber blobs world ops registry' settings' peerNumber' blobs' world' ops'
    server client hserver hclient hlimit hlimit' frame hframe frame' hframe' heq
  have hodd := runFrom_identified registry settings peerNumber blobs world ops hlimit
  have heven := runFrom_identified registry' settings' peerNumber' blobs' world' ops' hlimit'
  rw [hserver] at hodd
  rw [hclient] at heven
  obtain ⟨id, hid, -, hremainder, -⟩ := hodd.of_mem frame hframe
  obtain ⟨id', hid', -, hremainder', -⟩ := heven.of_mem frame' hframe'
  rw [hid, hid'] at heq
  cases heq
  rw [hremainder] at hremainder'
  exact absurd hremainder' (by decide)

/-- A client opens a session and sends an object in two parts, with an unreadable frame between. -/
def openingThenStoring : List (Nat × Operation) :=
  let parts := twoParts 4 (Message.countingFresh.blobs.nth 1) [1, 2]
  [(0, .receive ((Message.request ⟨.requestSession, Shape.default _⟩).addFlags .acknowledge).encode),
    (5, .receive []), (10, .receive parts.1.encode), (20, .receive parts.2.encode)]

/-- The settings of a client that sends frames of at most 80 bytes. -/
def smallFrames : Settings :=
  Settings.client.withCapability Capability.maxWebSocketMessagePayloadSize.name (.long 80)

/-- A request with an object that is too large for a frame of 80 bytes. -/
def oneLarge : Message := Message.request (Message.storing [("a", List.replicate 60 7)])

/-- A report that the client hands over with its request, under an identifier of its own. -/
def lateReport : Message := Fault.notFound.toMessage 1 0

/-- A server answers with replies and fault reports, a client sends a referencer and its chunks, and a
report behind them. -/
theorem identifiers_distinct_chunked :
    ∃ server client : Turn Nat (List (List Bytes)),
      server = runFrom failingRegistry Settings.default 1 Message.countingFresh.blobs 0
        openingThenStoring ∧
      client = runFrom failingRegistry smallFrames 1 Message.countingFresh.blobs 0
        [(0, .send (some oneLarge) (some lateReport))] ∧
      server.result.flatten.length = 6 ∧ client.result.flatten.length = 4 ∧
      Identified .server server ∧ Identified .client client ∧
      ∀ frame ∈ server.result.flatten, ∀ frame' ∈ client.result.flatten,
        Message.frameId? frame ≠ Message.frameId? frame' := by
  let s := Session.start smallFrames 1 Message.countingFresh.blobs
  let sent := (oneLarge.withId s.drawId.1).addFlags .final
  have hmax : s.peer.capabilities.maxFrameSize = some 80 := by decide +kernel
  have hparts : sent.parts s.peer.capabilities.maxFrameSize s.drawId.2.fresh =
      Message.chunkedParts 80 sent (Message.holding (List.replicate 60 7)) s.drawId.2.fresh := by
    rw [hmax]
    exact Message.parts_of_single (by decide +kernel) (by decide +kernel) (by decide +kernel) rfl
  obtain ⟨hframes, hsession⟩ := s.prepare_request oneLarge
  have hserver : (runFrom failingRegistry Settings.default 1 Message.countingFresh.blobs 0
      openingThenStoring).session.fresh.ids.isOverdrawn = false := by decide +kernel
  have hclient : (runFrom failingRegistry smallFrames 1 Message.countingFresh.blobs 0
      [(0, .send (some oneLarge) (some lateReport))]).session.fresh.ids.isOverdrawn = false := by
    show (s.prepare (some oneLarge) (some lateReport)).2.2.fresh.ids.isOverdrawn = false
    have hfits : lateReport.fits (some 80) = true := by decide +kernel
    rw [(s.prepare_report _ _).2, hsession, hparts]
    simp only [Option.toList_some, encodeAll, encode, Message.frames, hmax,
      Message.parts_of_fits hfits]
    decide +kernel
  have hlength : (runFrom failingRegistry smallFrames 1 Message.countingFresh.blobs 0
      [(0, .send (some oneLarge) (some lateReport))]).result.flatten.length = 4 := by
    show [(operate failingRegistry 0 s 0
      (.send (some oneLarge) (some lateReport))).result].flatten.length = 4
    rw [operate_send, hframes, hparts]
    decide +kernel
  obtain ⟨-, hidentified, hdisjoint⟩ := @identifiers_distinct Nat Nat
  refine ⟨_, _, rfl, rfl, by decide +kernel, hlength, ?_, ?_, ?_⟩
  · exact hidentified failingRegistry Settings.default 1 _ 0 openingThenStoring hserver
  · exact hidentified failingRegistry smallFrames 1 _ 0 _ hclient
  · exact hdisjoint failingRegistry Settings.default 1 _ 0 openingThenStoring failingRegistry
      smallFrames 1 _ 0 _ rfl rfl hserver hclient

end Etp.Session
