import Etp.Proofs.Session.Ascending
import Etp.Proofs.Session.Capacity
import Etp.Session.Pump
import Mathlib.Data.List.Nodup

/-!
# Exchanges that take too long

A sweep drops the assemblies that were opened too long ago; when their later parts arrived does not matter
(`sweep_of_allots`, `sweep_of_not_allots`), and no later part changes when an assembly was opened
(`Arises`).  A session that is driven is swept before every frame, so a part is never put behind those of an
assembly that is overdue at the time (`overdue_dropped`).  The period is the one in force at the sweep: it
may have been agreed on, changed or lost in the run.
-/

namespace Etp

/-- An exchange may take so many seconds: the capability for this is set to an integer, of whichever kind. -/
def Capabilities.Allots (cs : Capabilities) (period : Nat) : Prop :=
  ∃ value, cs.get? Capability.multipartMessageTimeoutPeriod.name = some value ∧
    value.asInteger = some (period : Int)

theorem Capabilities.multipartTimeout_eq_some_iff {cs : Capabilities} {period : Nat} :
    cs.multipartTimeout = some period ↔ cs.Allots period := by
  unfold multipartTimeout integer? Allots
  cases cs.get? Capability.multipartMessageTimeoutPeriod.name with
  | none => simp
  | some value =>
    cases hinteger : value.asInteger with
    | none => simp [hinteger]
    | some seconds =>
      simp only [Option.bind_some, hinteger, Option.some.injEq, exists_eq_left']
      by_cases hsign : 0 ≤ seconds
      · rw [if_pos hsign, Option.some.injEq]
        omega
      · rw [if_neg hsign]
        constructor
        · intro h
          cases h
        · omega

/-- The assembly was opened more than the allotted seconds before now. -/
def Assembly.Overdue (period now : Nat) (a : Assembly) : Prop := a.openedAt + period * 1000 < now

instance (period now : Nat) (a : Assembly) : Decidable (a.Overdue period now) := Nat.decLt _ _

/-- The assembly is still the same one, opened at the same time, perhaps with further parts. -/
structure Assembly.Continues (before after : Assembly) : Prop where
  exchangeId_eq : before.exchangeId = after.exchangeId
  openedAt_eq : before.openedAt = after.openedAt
  parts_prefix : before.parts <+: after.parts

namespace Assembly.Continues

variable {a b c : Assembly}

theorem refl (a : Assembly) : a.Continues a := ⟨rfl, rfl, List.prefix_refl _⟩

theorem trans (h : a.Continues b) (h' : b.Continues c) : a.Continues c :=
  ⟨h.exchangeId_eq.trans h'.exchangeId_eq, h.openedAt_eq.trans h'.openedAt_eq,
    h.parts_prefix.trans h'.parts_prefix⟩

theorem extended (a : Assembly) (p : Message) : a.Continues { a with parts := a.parts ++ [p] } :=
  ⟨rfl, rfl, List.prefix_append _ _⟩

end Assembly.Continues

namespace Assemblies

theorem parts_of_mem {as : Assemblies} {a : Assembly} (h : a ∈ as.toList) :
    as.parts a.exchangeId = a.parts := by
  have hsome : (as.toList.find? (fun b => b.exchangeId == a.exchangeId)).isSome = true :=
    List.find?_isSome.2 ⟨a, h, beq_self_eq_true _⟩
  obtain ⟨found, hfound⟩ := Option.isSome_iff_exists.1 hsome
  have hid : found.exchangeId = a.exchangeId := by simpa using List.find?_some hfound
  obtain rfl : found = a :=
    List.inj_on_of_nodup_map as.distinct (List.mem_of_find?_eq_some hfound) h hid
  rw [parts, hfound]
  rfl

theorem exists_of_contains {as : Assemblies} {id : Int64} (h : as.contains id = true) :
    ∃ a ∈ as.toList, a.exchangeId = id := by
  simpa [contains] using h

/-- A part that is added leaves no assembly out, and changes none but by being put behind the parts of its
exchange. -/
theorem mem_push {as : Assemblies} {a : Assembly} (ha : a ∈ as.toList) (id : Int64) (part : Message)
    (now : Nat) : a.addPart id part ∈ (as.push id part now).toList := by
  cases hcontains : as.contains id with
  | true =>
    rw [toList_push_of_contains hcontains]
    exact List.mem_map_of_mem ha
  | false =>
    rw [Assembly.addPart, if_neg (contains_eq_false.1 hcontains a ha),
      toList_push_of_not_contains hcontains]
    exact List.mem_append_left _ ha

end Assemblies

namespace Session

variable {σ : Type}

/-! ## One sweep -/

/-- The assemblies that are overdue. -/
def overdue (s : Session) (period now : Nat) : List Assembly :=
  s.assemblies.toList.filter (fun a => a.Overdue period now)

/-- The assemblies that are not overdue. -/
def timely (s : Session) (period now : Nat) : Assemblies :=
  s.assemblies.filter (fun a => ¬ a.Overdue period now)

theorem not_overdue_iff (period now : Nat) (a : Assembly) :
    a.age now ≤ period * 1000 ↔ ¬ a.Overdue period now := by
  unfold Assembly.age Assembly.Overdue
  omega

/-- With a period in force, exactly the overdue assemblies are dropped, and they are counted. -/
theorem sweep_of_allots {s : Session} {period : Nat} (hperiod : s.peer.capabilities.Allots period)
    (hdeferred : s.deferred = []) (now : Nat) :
    s.sweep now = ((s.overdue period now).length, [.expired (s.overdue period now).length],
      s.holding (s.timely period now)) := by
  have htimeout := Capabilities.multipartTimeout_eq_some_iff.2 hperiod
  have hcurrent : s.assemblies.current now (period * 1000) = s.timely period now := by
    simp only [Assemblies.current, timely, not_overdue_iff]
  have hexpired : (s.assemblies.expired now (period * 1000)).length =
      (s.overdue period now).length := by
    simp only [Assemblies.expired, overdue, List.length_map, ← Nat.not_le, not_overdue_iff, not_not]
  simp only [sweep, htimeout, hcurrent, hexpired, hdeferred, List.filter_nil, holding]

/-- Without a period nothing happens. -/
theorem sweep_of_not_allots {s : Session} (hperiod : ∀ period, ¬ s.peer.capabilities.Allots period)
    (now : Nat) : s.sweep now = (0, [], s) := by
  have htimeout : s.peer.capabilities.multipartTimeout = none := by
    apply Option.eq_none_iff_forall_not_mem.2
    intro period hsome
    exact hperiod period (Capabilities.multipartTimeout_eq_some_iff.1 hsome)
  rw [sweep, htimeout]

/-- What is left of the assemblies after a sweep. -/
theorem mem_sweep {s : Session} (hdeferred : s.deferred = []) {now : Nat} {a : Assembly} :
    a ∈ (s.sweep now).2.2.assemblies.toList ↔ a ∈ s.assemblies.toList ∧
      ∀ period, s.peer.capabilities.Allots period → ¬ a.Overdue period now := by
  by_cases hperiod : ∃ period, s.peer.capabilities.Allots period
  · obtain ⟨period, hperiod⟩ := hperiod
    have hsame : ∀ other, s.peer.capabilities.Allots other ↔ other = period := by
      intro other
      rw [← Capabilities.multipartTimeout_eq_some_iff] at hperiod ⊢
      rw [hperiod, Option.some.injEq, eq_comm]
    rw [sweep_of_allots hperiod hdeferred]
    simp only [hsame, forall_eq]
    exact List.mem_filter.trans (and_congr_right (fun _ => decide_eq_true_iff))
  · have hnone := not_exists.1 hperiod
    rw [sweep_of_not_allots hnone]
    simp [hnone]

/-! ## What an input makes of the assemblies -/

/-- How an assembly came about that is held after an input: it was held before; or the input has opened it,
which had none of its exchange before; or the input has put a part behind the others, which does not change
when it was opened. -/
inductive Arises (before : Assemblies) (now : Nat) (input : Option Message) : Assembly → Prop
  | kept {a : Assembly} (ha : a ∈ before.toList) : Arises before now input a
  | opened {p : Message} (hp : input = some p) (hnew : before.contains p.exchangeId = false) :
    Arises before now input ⟨p.exchangeId, now, [p]⟩
  | extended {p : Message} {a : Assembly} (hp : input = some p) (ha : a ∈ before.toList)
    (hid : a.exchangeId = p.exchangeId) : Arises before now input { a with parts := a.parts ++ [p] }

theorem arises_heldAfter {now : Nat} {s : Session} {input : Option Message} {a : Assembly}
    (ha : a ∈ (s.heldAfter now input).toList) : Arises s.assemblies now input a := by
  unfold heldAfter at ha
  split at ha
  case h_1 => exact .kept ha
  case h_2 p =>
    split at ha
    case isFalse => exact .kept ha
    case isTrue htakes =>
      split at ha
      case isTrue => exact .kept (List.mem_filter.1 ha).1
      case isFalse =>
        cases hcontains : s.assemblies.contains p.exchangeId with
        | false =>
          rw [Assemblies.toList_push_of_not_contains hcontains] at ha
          rcases List.mem_append.1 ha with hold | hnew
          · exact .kept hold
          · rw [List.mem_singleton.1 hnew]
            exact .opened rfl hcontains
        | true =>
          rw [Assemblies.toList_push_of_contains hcontains] at ha
          obtain ⟨b, hb, rfl⟩ := List.mem_map.1 ha
          unfold Assembly.addPart
          split
          case isTrue hid => exact .extended rfl hb hid
          case isFalse => exact .kept hb

/-! ## Driving a session -/

/-- A frame that is taken is handled by the swept session.  Then the run has failed, or it goes on with what
follows. -/
theorem pump_frame (registry : Registry σ) (now : Nat) (frame : Bytes) (s : Session) (world : σ)
    (sink : Sink) :
    let swept := s.sweep now
    let turn := handleFrame registry now swept.2.2 world frame
    (∃ e sink', ∀ input, pump registry (⟨now, .ok frame⟩ :: input) s world sink =
      ({ turn with events := swept.2.1 ++ turn.events, result := .error e }, sink')) ∨
    ∃ sink', ∀ input, pump registry (⟨now, .ok frame⟩ :: input) s world sink =
      let rest := pump registry input turn.session turn.world sink'
      ({ rest.1 with events := swept.2.1 ++ turn.events ++ rest.1.events }, rest.2) := by
  intro swept turn
  cases hresult : turn.result with
  | error e =>
    left
    refine ⟨e, sink, fun input => ?_⟩
    simp only [pump]
    rw [hresult]
  | ok frames =>
    cases htaken : (sink.write frames).2 with
    | false =>
      left
      refine ⟨.transport Sink.full, (sink.write frames).1, fun input => ?_⟩
      simp only [pump]
      rw [hresult]
      simp only [htaken]
      rfl
    | true =>
      right
      refine ⟨(sink.write frames).1, fun input => ?_⟩
      simp only [pump]
      rw [hresult]
      simp only [htaken]
      rfl

/-- A run that has not failed is continued with the arrivals that follow. -/
theorem pump_append (registry : Registry σ) (arrivals later : List Arrival) (s : Session) (world : σ)
    (sink : Sink) (hresult : (pump registry arrivals s world sink).1.result = .ok ()) :
    pump registry (arrivals ++ later) s world sink =
      let run := pump registry arrivals s world sink
      let rest := pump registry later run.1.session run.1.world run.2
      ({ rest.1 with events := run.1.events ++ rest.1.events }, rest.2) := by
  induction arrivals generalizing s world sink with
  | nil => rfl
  | cons arrival arrivals ih =>
    obtain ⟨now, reason | frame⟩ := arrival
    · cases hresult
    · rcases pump_frame registry now frame s world sink with ⟨e, sink', hfails⟩ | ⟨sink', hgoes⟩
      · rw [hfails] at hresult
        cases hresult
      · rw [hgoes] at hresult
        have hrest := ih _ _ _ hresult
        rw [List.cons_append, hgoes, hgoes, hrest]
        simp only [List.append_assoc]

/-- One frame leads to the session that handled it. -/
theorem session_pump_frame (registry : Registry σ) (now : Nat) (frame : Bytes) (s : Session) (world : σ)
    (sink : Sink) :
    (pump registry [⟨now, .ok frame⟩] s world sink).1.session =
      (handleFrame registry now (s.sweep now).2.2 world frame).session := by
  rcases pump_frame registry now frame s world sink with ⟨e, sink', hfails⟩ | ⟨sink', hgoes⟩
  · rw [hfails]
  · rw [hgoes]
    rfl

theorem assemblies_handleFrame (registry : Registry σ) (now : Nat) (s : Session) (world : σ)
    (frame : Bytes) :
    (handleFrame registry now s world frame).session.assemblies = s.heldAfter now (incoming frame) := by
  obtain ⟨⟨fresh, hsession⟩, -⟩ := handleFrame_advances registry now s world frame
  rw [hsession]
  exact assemblies_handleMessage registry now s world (incoming frame)

theorem Reachable.pumped {s : Session} (hs : s.Reachable) (registry : Registry σ)
    (arrivals : List Arrival) (world : σ) (sink : Sink) :
    (pump registry arrivals s world sink).1.session.Reachable := by
  induction arrivals generalizing s world sink with
  | nil => exact hs
  | cons arrival arrivals ih =>
    obtain ⟨now, reason | frame⟩ := arrival
    · exact hs
    · have hnext := (hs.swept now).answered registry now world frame
      rcases pump_frame registry now frame s world sink with ⟨e, sink', hfails⟩ | ⟨sink', hgoes⟩
      · rw [hfails]
        exact hnext
      · rw [hgoes]
        exact ih hnext _ _

/-- Where an assembly comes from that is held after some arrivals.  It was held before them and has the age
that it had then; or one of them is its first part, which found none of its exchange, and its age counts
from then. -/
def OpenedIn (registry : Registry σ) (arrivals : List Arrival) (s : Session) (world : σ) (sink : Sink)
    (a : Assembly) : Prop :=
  (∃ b ∈ s.assemblies.toList, b.Continues a) ∨
  ∃ before frame after, arrivals = before ++ ⟨a.openedAt, .ok frame⟩ :: after ∧
    let found := ((pump registry before s world sink).1.session.sweep a.openedAt).2.2
    found.assemblies.contains a.exchangeId = false ∧
      ∃ p rest, incoming frame = some p ∧ p.exchangeId = a.exchangeId ∧ a.parts = p :: rest

section OpenedIn

variable {registry : Registry σ} {arrivals : List Arrival} {s t : Session} {world world' : σ}
  {sink sink' : Sink} {now : Nat} {frame : Bytes} {a b : Assembly}

/-- What the first frame makes of the assemblies, for one that is held later on. -/
theorem OpenedIn.of_first (hdeferred : s.deferred = [])
    (hb : Arises (s.sweep now).2.2.assemblies now (incoming frame) b) (hcontinues : b.Continues a) :
    OpenedIn registry (⟨now, .ok frame⟩ :: arrivals) s world sink a := by
  have hkept : ∀ c ∈ (s.sweep now).2.2.assemblies.toList, c ∈ s.assemblies.toList :=
    fun c hc => ((mem_sweep hdeferred).1 hc).1
  cases hb with
  | kept hold => exact .inl ⟨b, hkept b hold, hcontinues⟩
  | @opened p hp hnew =>
    obtain ⟨hid, htime, rest, hrest⟩ := hcontinues
    refine .inr ⟨[], frame, arrivals, ?_, ?_, p, rest, hp, hid, hrest.symm⟩
    · rw [← htime]
      rfl
    · rw [← hid, ← htime]
      exact hnew
  | @extended p c hp hold _ =>
    have hlonger := Assembly.Continues.extended c p
    exact .inl ⟨c, hkept c hold, hlonger.trans hcontinues⟩

/-- What the arrivals after the first frame make of the assemblies, seen from before it. -/
theorem OpenedIn.cons (hdeferred : s.deferred = [])
    (harises : ∀ b ∈ t.assemblies.toList,
      Arises (s.sweep now).2.2.assemblies now (incoming frame) b)
    (hgoes : ∀ input, (pump registry (⟨now, .ok frame⟩ :: input) s world sink).1.session =
      (pump registry input t world' sink').1.session)
    (ha : OpenedIn registry arrivals t world' sink' a) :
    OpenedIn registry (⟨now, .ok frame⟩ :: arrivals) s world sink a := by
  rcases ha with ⟨b, hb, hcontinues⟩ | ⟨before, later, after, rfl, hnew, hfirst⟩
  · exact .of_first hdeferred (harises b hb) hcontinues
  · refine .inr ⟨⟨now, .ok frame⟩ :: before, later, after, rfl, ?_, hfirst⟩
    simp only [hgoes]
    exact hnew

end OpenedIn

/-- In a run, no assembly comes from anywhere else. -/
theorem openedIn_pump (registry : Registry σ) (arrivals : List Arrival) {s : Session} (hs : s.Reachable)
    (world : σ) (sink : Sink) {a : Assembly}
    (ha : a ∈ (pump registry arrivals s world sink).1.session.assemblies.toList) :
    OpenedIn registry arrivals s world sink a := by
  induction arrivals generalizing s world sink with
  | nil => exact .inl ⟨a, ha, .refl a⟩
  | cons arrival arrivals ih =>
    obtain ⟨now, reason | frame⟩ := arrival
    · exact .inl ⟨a, ha, .refl a⟩
    · let t := (handleFrame registry now (s.sweep now).2.2 world frame).session
      have hnext : t.Reachable := (hs.swept now).answered registry now world frame
      have harises : ∀ b ∈ t.assemblies.toList,
          Arises (s.sweep now).2.2.assemblies now (incoming frame) b := by
        intro b hb
        rw [assemblies_handleFrame] at hb
        exact arises_heldAfter hb
      rcases pump_frame registry now frame s world sink with ⟨e, sink', hfails⟩ | ⟨sink', hgoes⟩
      · rw [hfails] at ha
        exact .of_first hs.deferred_eq (harises a ha) (.refl a)
      · rw [hgoes] at ha
        refine .cons hs.deferred_eq harises (fun input => ?_) (ih hnext _ _ ha)
        rw [hgoes]

/-! ## No part is late -/

/-- The parts of an exchange that are still there for a part which arrives now: all those of an assembly
that is not overdue, and else none. -/
def Awaits (s : Session) (now : Nat) (id : Int64) (parts : List Message) : Prop :=
  (∃ a ∈ s.assemblies.toList, a.exchangeId = id ∧ a.parts = parts ∧
    ∀ period, s.peer.capabilities.Allots period → ¬ a.Overdue period now) ∨
  parts = [] ∧ ∀ a ∈ s.assemblies.toList, a.exchangeId = id →
    ∃ period, s.peer.capabilities.Allots period ∧ a.Overdue period now

theorem awaits_sweep {s : Session} (hdeferred : s.deferred = []) (now : Nat) (id : Int64) :
    s.Awaits now id ((s.sweep now).2.2.assemblies.parts id) := by
  cases hcontains : (s.sweep now).2.2.assemblies.contains id with
  | true =>
    obtain ⟨a, ha, rfl⟩ := Assemblies.exists_of_contains hcontains
    obtain ⟨hmem, htimely⟩ := (mem_sweep hdeferred).1 ha
    exact .inl ⟨a, hmem, rfl, (Assemblies.parts_of_mem ha).symm, htimely⟩
  | false =>
    refine .inr ⟨Assemblies.parts_of_not_contains hcontains, fun a ha hid => ?_⟩
    by_contra hnone
    have htimely : ∀ period, s.peer.capabilities.Allots period → ¬ a.Overdue period now :=
      fun period hperiod hover => hnone ⟨period, hperiod, hover⟩
    exact Assemblies.contains_eq_false.1 hcontains a ((mem_sweep hdeferred).2 ⟨ha, htimely⟩) hid

/-- A sweep drops exactly the assemblies that were opened longer ago than the period in force allows, and
yields their number; everything else stays, and without a period all does.  In a run, every assembly is as
old as the part that opened it, whatever parts came later, and a frame meets the session swept at the time
of the frame: a part that is taken goes behind those of an assembly that is not overdue, or there are none
of its exchange. -/
theorem overdue_dropped (registry : Registry σ) {s : Session} (hs : s.Reachable) :
    (∀ now period, s.peer.capabilities.Allots period →
      (s.sweep now).1 = (s.overdue period now).length ∧
        (s.sweep now).2.2 = s.holding (s.timely period now)) ∧
      (∀ now, (∀ period, ¬ s.peer.capabilities.Allots period) →
        (s.sweep now).1 = 0 ∧ (s.sweep now).2.2 = s) ∧
      ∀ arrivals (world : σ) sink now frame,
        let run := (pump registry arrivals s world sink).1
        let swept := (run.session.sweep now).2.2
        let next := (pump registry (arrivals ++ [⟨now, .ok frame⟩]) s world sink).1.session
        run.result = .ok () →
          (∀ a ∈ run.session.assemblies.toList, OpenedIn registry arrivals s world sink a) ∧
            (∀ a ∈ next.assemblies.toList, Arises swept.assemblies now (incoming frame) a) ∧
            (incoming frame = none → next.assemblies = swept.assemblies) ∧
            ∀ p, incoming frame = some p →
              let parts := swept.assemblies.parts p.exchangeId
              (¬ swept.Takes p → next.assemblies = swept.assemblies) ∧
              (swept.Takes p → run.session.Awaits now p.exchangeId parts ∧
                if p.isFinal then
                  next.assemblies = swept.assemblies.erase p.exchangeId ∧
                    Concludes registry swept run.world p
                      (handleMessage registry now swept run.world (some p))
                else next.assemblies.parts p.exchangeId = parts ++ [p] ∧
                  ∀ a ∈ swept.assemblies.toList,
                    (if a.exchangeId = p.exchangeId then { a with parts := a.parts ++ [p] } else a) ∈
                      next.assemblies.toList) := by
  refine ⟨?_, ?_, ?_⟩
  · intro now period hperiod
    rw [sweep_of_allots hperiod hs.deferred_eq]
    exact ⟨rfl, rfl⟩
  · intro now hperiod
    rw [sweep_of_not_allots hperiod]
    exact ⟨rfl, rfl⟩
  · intro arrivals world sink now frame run swept next hresult
    have hrun : run.session.Reachable := hs.pumped registry arrivals world sink
    have hnext : next.assemblies = swept.heldAfter now (incoming frame) := by
      show (pump registry (arrivals ++ [⟨now, .ok frame⟩]) s world sink).1.session.assemblies = _
      rw [pump_append registry arrivals _ s world sink hresult]
      simp only
      rw [session_pump_frame, assemblies_handleFrame]
    refine ⟨fun a ha => openedIn_pump registry arrivals hs world sink ha, ?_, ?_, ?_⟩
    · intro a ha
      rw [hnext] at ha
      exact arises_heldAfter ha
    · intro hinput
      rw [hnext, hinput]
      rfl
    · intro p hinput parts
      rw [hinput, heldAfter] at hnext
      constructor
      · intro htakes
        rw [hnext, if_neg htakes]
      · intro htakes
        rw [if_pos htakes] at hnext
        refine ⟨awaits_sweep hrun.deferred_eq now p.exchangeId, ?_⟩
        split
        case isTrue hfinal =>
          rw [if_pos hfinal] at hnext
          exact ⟨hnext, concludes_of_takes registry now run.world htakes hfinal⟩
        case isFalse hfinal =>
          rw [if_neg hfinal] at hnext
          rw [hnext, Assemblies.parts_push]
          exact ⟨rfl, fun a ha => Assemblies.mem_push ha p.exchangeId p now⟩

/-- A request for a session in which an exchange may take a minute. -/
def hurriedRequest : Message :=
  let (name, version, client, protocols, objects, compression, formats, time, earliest, required, _) :=
    Shape.default Kind.requestSession.shape
  Message.request ⟨.requestSession, name, version, client, protocols, objects, compression, formats,
    time, earliest, required,
    KeyMap.ofList [(Capability.multipartMessageTimeoutPeriod.name, .long 60)], ()⟩

/-- The parts of a request to store two objects. -/
def slowParts : Message × Message × Message :=
  let first := keyedParts 4 "a" (Message.countingFresh.blobs.nth 1) [1, 2] false
  (first.1, first.2, (keyedParts 4 "b" (Message.countingFresh.blobs.nth 2) [3] true).1)

/-- The session is opened, two of the parts arrive, and a copy of the first one 49.99 seconds after it. -/
def slowArrivals : List Arrival :=
  [⟨0, .ok hurriedRequest.encode⟩, ⟨10, .ok slowParts.1.encode⟩, ⟨20, .ok slowParts.2.1.encode⟩,
    ⟨50000, .ok slowParts.1.encode⟩]

/-- The parts that have arrived. -/
def heldParts : List Message := [slowParts.1, slowParts.2.1, slowParts.1]

/-- The last part goes behind the others a minute after the first, and a millisecond later it is the only
one, although the copy of the first has not been there for long. -/
theorem overdue_dropped_slowParts :
    let start := Session.start Settings.default 1 Message.countingFresh.blobs
    let part := slowParts.2.2
    let run := (pump countingRegistry slowArrivals start 0 ⟨none, []⟩).1
    let next (now : Nat) := (pump countingRegistry (slowArrivals ++ [⟨now, .ok part.encode⟩]) start 0
      ⟨none, []⟩).1.session
    start.Reachable ∧ (∀ period, ¬ start.peer.capabilities.Allots period) ∧
      run.session.peer.capabilities.Allots 60 ∧ run.result = .ok () ∧
      run.session.Awaits 60010 4 heldParts ∧
      (next 60010).assemblies.parts 4 = heldParts ++ [part] ∧
      ⟨4, 10, heldParts ++ [part]⟩ ∈ (next 60010).assemblies.toList ∧
      run.session.Awaits 60011 4 [] ∧ (next 60011).assemblies.parts 4 = [part] := by
  intro start part run next
  have hs : start.Reachable := .start _ _ _
  have hresult : run.result = .ok () := by decide +kernel
  have hinput : incoming part.encode = some part := by decide +kernel
  have hid : part.exchangeId = 4 := by decide +kernel
  have hfinal : ¬ part.isFinal = true := by decide +kernel
  have hunset : start.peer.capabilities.multipartTimeout = none := by decide +kernel
  have hallots : run.session.peer.capabilities.Allots 60 :=
    Capabilities.multipartTimeout_eq_some_iff.1 (by decide +kernel)
  obtain ⟨-, -, hruns⟩ := overdue_dropped countingRegistry hs
  -- What the session awaits at a time decides what it has after the part.
  have hat : ∀ now parts, (run.session.sweep now).2.2.Takes part →
      (run.session.sweep now).2.2.assemblies.parts 4 = parts →
        run.session.Awaits now 4 parts ∧ (next now).assemblies.parts 4 = parts ++ [part] ∧
          ∀ a ∈ (run.session.sweep now).2.2.assemblies.toList,
            (if a.exchangeId = 4 then { a with parts := a.parts ++ [part] } else a) ∈
              (next now).assemblies.toList := by
    intro now parts htakes hparts
    obtain ⟨-, -, -, hpart⟩ := hruns slowArrivals 0 ⟨none, []⟩ now part.encode hresult
    simp only [run, next] at htakes hparts ⊢
    obtain ⟨hawaits, hnext⟩ := (hpart part hinput).2 htakes
    rw [if_neg hfinal, hid, hparts] at hnext
    rw [hid, hparts] at hawaits
    exact ⟨hawaits, hnext⟩
  obtain ⟨htimely, hbehind, hextended⟩ := hat 60010 heldParts (by decide +kernel) (by decide +kernel)
  obtain ⟨hlate, halone, -⟩ := hat 60011 [] (by decide +kernel) (by decide +kernel)
  have hheld : ⟨4, 10, heldParts⟩ ∈ (run.session.sweep 60010).2.2.assemblies.toList := by
    decide +kernel
  refine ⟨hs, ?_, hallots, hresult, htimely, hbehind, hextended _ hheld, hlate, halone⟩
  intro period hperiod
  rw [← Capabilities.multipartTimeout_eq_some_iff, hunset] at hperiod
  cases hperiod

end Session

end Etp
