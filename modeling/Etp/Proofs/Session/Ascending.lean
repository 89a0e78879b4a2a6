import Etp.Proofs.Message.Ascending
import Etp.Proofs.Session.Identifiers

/-!
# The order of identifiers on the wire

The frames of an endpoint have distinct identifiers, but these need not ascend: the replies to a frame get
their identifiers before they are taken apart, and so do the halves of a message.  `ascending_iff` says
exactly in which runs they do.
-/

namespace Etp.Session

variable {σ : Type}

/-- What a session sends for several messages, in terms of their parts. -/
theorem encodeAll_eq (ms : List Message) (s : Session) :
    let sent := Message.partsAll s.peer.capabilities.maxFrameSize ms s.fresh
    (encodeAll ms s).1 = sent.1.map (·.message.encode) ∧
      (encodeAll ms s).2.2 = { s with fresh := sent.2 } := by
  induction ms generalizing s with
  | nil => exact ⟨rfl, rfl⟩
  | cons m ms ih =>
    obtain ⟨hframes, hsession⟩ := ih (s.encode m).2.2
    refine ⟨?_, ?_⟩
    · simp only [encodeAll, Message.partsAll, List.map_append, hframes]
      rfl
    · simp only [encodeAll, hsession]
      rfl

/-- The replies to an input are in order. -/
def RepliesInOrder (turn : Turn σ (Except ConnectionError (List Message))) : Prop :=
  ∀ replies, turn.result = .ok replies →
    Message.AllInOrder turn.session.peer.capabilities.maxFrameSize replies turn.session.fresh

/-- The replies to all frames of a run are in order. -/
def RunInOrder (registry : Registry σ) : List (Nat × Bytes) → Session → σ → Prop
  | [], _, _ => True
  | (now, frame) :: inputs, s, world =>
    let turn := handleFrame registry now s world frame
    RepliesInOrder (handleMessage registry now s world (incoming frame)) ∧
      RunInOrder registry inputs turn.session turn.world

/-- The replies to an input have brought their identifiers along when they are encoded. -/
theorem assigned_replies (registry : Registry σ) (now : Nat) {s : Session} (world : σ)
    (input : Option Message) (hs : s.deferred = []) (hstart : 0 ≤ s.fresh.ids.next)
    (replies : List Message)
    (hreplies : (handleMessage registry now s world input).result = .ok replies)
    (hlimit : (handleMessage registry now s world input).session.fresh.ids.isOverdrawn = false) :
    Message.Assigned replies (handleMessage registry now s world input).session.fresh := by
  obtain ⟨ids, hdraws, hids⟩ := handleMessage_draws registry now world input hs
  rw [← hids replies hreplies] at hdraws
  refine ⟨hdraws.pairwise hstart hlimit, ?_, Int.le_trans hstart hdraws.le_next⟩
  intro id hid
  obtain ⟨i, -, hbelow⟩ := hdraws.exists_of_mem hstart hlimit hid
  exact hbelow

/-- The identifiers of the frames with which a session answers ascend exactly if the replies are in order. -/
theorem handleFrame_ascending_iff (registry : Registry σ) (now : Nat) {s : Session} (world : σ)
    (frame : Bytes) (hs : s.Reachable)
    (hlimit : (handleFrame registry now s world frame).session.fresh.ids.isOverdrawn = false) :
    ∃ ids : List Int64,
      ((handleFrame registry now s world frame).result.toOption.getD []).map Message.frameId? =
        ids.map some ∧
      s.fresh.ids.Within [] ids (handleFrame registry now s world frame).session.fresh.ids ∧
      (ids.Pairwise (· < ·) ↔ RepliesInOrder (handleMessage registry now s world (incoming frame))) := by
  obtain ⟨ids, hframes, hsupplies⟩ := handleFrame_sends registry now world frame hs.deferred_eq
  refine ⟨ids, hframes, hsupplies.within hs.next_nonneg hlimit, ?_⟩
  have hassigned := assigned_replies registry now world (incoming frame) hs.deferred_eq hs.next_nonneg
  rw [handleFrame_eq] at hframes hlimit
  generalize handleMessage registry now s world (incoming frame) = turn at *
  unfold Turn.encoded at hframes hlimit
  cases hresult : turn.result with
  | error e =>
    simp only [hresult, Except.toOption, Option.getD_none, List.map_nil] at hframes
    rw [List.map_eq_nil_iff.1 hframes.symm]
    refine iff_of_true .nil ?_
    intro replies hreplies
    rw [hresult] at hreplies
    cases hreplies
  | ok replies =>
    obtain ⟨hsent, hsession⟩ := encodeAll_eq replies turn.session
    simp only [hresult, hsent, hsession, Except.toOption, Option.getD_some, List.map_map]
      at hframes hlimit
    have hids : ids = Message.partIds (Message.partsAll turn.session.peer.capabilities.maxFrameSize
        replies turn.session.fresh).1 := by
      refine List.map_injective_iff.2 (fun _ _ => Option.some.inj) ?_
      rw [← hframes, Message.partIds, List.map_map]
      exact List.map_congr_left (fun p _ => Message.frameId?_encode p.message)
    have hle := (Message.partsAll_supplied turn.session.peer.capabilities.maxFrameSize replies
      turn.session.fresh).le_next
    have horder := Message.pairwise_partsAll_iff
      (hassigned replies hresult (IdCounter.isOverdrawn_of_le hle hlimit)) hlimit
    rw [hids, horder]
    constructor
    · intro hall replies' hreplies'
      rw [hresult] at hreplies'
      cases hreplies'
      exact hall
    · exact fun hinOrder => hinOrder replies hresult

theorem Reachable.answered {s : Session} (hs : s.Reachable) (registry : Registry σ) (now : Nat)
    (world : σ) (frame : Bytes) : (handleFrame registry now s world frame).session.Reachable :=
  hs.operated registry now world (.receive frame)

/-- The identifiers of all frames with which a session answers in a run ascend, read in the order in which
the frames are sent, exactly if the replies to each frame are in order. -/
theorem ascending_iff (registry : Registry σ) (inputs : List (Nat × Bytes)) {s : Session}
    (world : σ) (hs : s.Reachable)
    (hlimit : (feed (handleFrame registry) inputs s world).session.fresh.ids.isOverdrawn = false) :
    ∃ ids : List Int64,
      ((feed (handleFrame registry) inputs s world).result.flatMap (·.toOption.getD [])).map
          Message.frameId? = ids.map some ∧
      s.fresh.ids.Within [] ids (feed (handleFrame registry) inputs s world).session.fresh.ids ∧
      (ids.Pairwise (· < ·) ↔ RunInOrder registry inputs s world) := by
  induction inputs generalizing s world with
  | nil =>
    refine ⟨[], rfl, ⟨Int.le_refl _, ?_⟩, iff_of_true .nil trivial⟩
    intro id hid
    cases hid
  | cons input inputs ih =>
    obtain ⟨now, frame⟩ := input
    obtain ⟨later, hlater, hwithin', horder'⟩ := ih (handleFrame registry now s world frame).world
      (hs.answered registry now world frame) hlimit
    have hlimit' := IdCounter.isOverdrawn_of_le hwithin'.le_next hlimit
    obtain ⟨ids, hids, hwithin, horder⟩ := handleFrame_ascending_iff registry now world frame hs hlimit'
    refine ⟨ids ++ later, ?_, ?_, ?_⟩
    · simp only [feed, List.flatMap_cons, List.map_append, hids, hlater]
    · exact hwithin.append hwithin'
    · show _ ↔ RepliesInOrder _ ∧ RunInOrder registry inputs _ _
      rw [hwithin.pairwise_append_iff hwithin' (by simp) (by simp) (by simp), horder, horder',
        and_iff_left (a := RunInOrder _ _ _ _) (.inr (by simp))]

/-- A handler that answers a request to delete dataspaces with three names. -/
def removingHandler : Handler Nat := fun body _ peer count =>
  if body.kind = .deleteDataspaces then
    ⟨.ok (.reply ⟨.deleteDataspacesResponse,
      KeyMap.ofList [("a", "eml:///1"), ("b", "eml:///2"), ("c", "eml:///3")], ()⟩), peer, count + 1⟩
  else ⟨.ok .empty, peer, count⟩

/-- A registry that has this handler for all protocols. -/
def removingRegistry : Registry Nat where
  handler _ := some removingHandler

/-- A server that sends frames of at most 25 bytes. -/
def narrowStart : Session :=
  Session.start
    (Settings.default.withCapability Capability.maxWebSocketMessagePayloadSize.name (.long 25)) 1
    Message.countingFresh.blobs

/-- A client opens a session and has dataspaces deleted. -/
def removal : List (Nat × Bytes) :=
  [(0, (Message.request ⟨.requestSession, Shape.default _⟩).encode),
    (10, (Message.request ⟨.deleteDataspaces, Shape.default _⟩).encode)]

/-- Each of the three names travels by itself: the reply is halved, and then its first half is. -/
theorem ascending_iff_removal :
    narrowStart.Reachable ∧
      (feed (handleFrame removingRegistry) removal narrowStart 0).session.fresh.ids.isOverdrawn = false ∧
      ∃ ids : List Int64,
        ((feed (handleFrame removingRegistry) removal narrowStart 0).result.flatMap
          (·.toOption.getD [])).map Message.frameId? = ids.map some ∧ ids.length = 3 ∧
        (ids.Pairwise (· < ·) ↔ RunInOrder removingRegistry removal narrowStart 0) := by
  have hreachable : narrowStart.Reachable := .start _ 1 _
  have hlimit : (feed (handleFrame removingRegistry) removal narrowStart
      0).session.fresh.ids.isOverdrawn = false := by decide +kernel
  obtain ⟨ids, hids, -, horder⟩ := ascending_iff removingRegistry removal 0 hreachable hlimit
  refine ⟨hreachable, hlimit, ids, hids, ?_, horder⟩
  rw [← List.length_map some, ← hids]
  decide +kernel

/-- The last of the three frames has an identifier that was drawn before that of the second. -/
theorem not_ascending_removal :
    narrowStart.Reachable ∧
      ((feed (handleFrame removingRegistry) removal narrowStart 0).result.flatMap
        (·.toOption.getD [])).map Message.frameId? = [1, 5, 3].map some ∧
      ¬ ([1, 5, 3] : List Int64).Pairwise (· < ·) :=
  ⟨.start _ 1 _, by decide +kernel, by decide⟩

end Etp.Session
