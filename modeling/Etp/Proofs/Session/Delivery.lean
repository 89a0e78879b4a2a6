import Etp.Proofs.Session.Underway

/-!
# What handlers receive of a message in parts

A receiver collects chunks and the referencers they belong to, and gives every other part of a multipart
message to its handler at once.  So what was collected reaches a handler only if the final part is
collected too.  `delivered_iff` says when that is so: the entries of a message arrive, each of them once,
and nothing is left behind exactly if no part is a chunk or the last one is.
-/

namespace Etp

/-! ## Leaves that are collected -/

namespace Leaf

/-- Whether the content travels in chunks. -/
def isChunked : Leaf → Bool
  | whole _ => false
  | chunked _ _ _ => true

/-- The entries of the message. -/
def entries (l : Leaf) : List Entry := l.origin.body.entries

/-- What is sent whole and what travels in chunks make up everything. -/
theorem entries_perm (leaves : List Leaf) :
    ((leaves.filter (fun l => !l.isChunked)).flatMap entries ++
      (leaves.filter isChunked).flatMap entries).Perm (leaves.flatMap entries) := by
  rw [← List.flatMap_append]
  refine List.Perm.flatMap_right entries ?_
  exact (List.perm_append_comm).trans (List.filter_append_perm isChunked leaves)

/-- A choice between parts that does not cut through a leaf is one between leaves. -/
theorem filter_messages {leaves : List Leaf} {f : Message → Bool} {g : Leaf → Bool}
    (h : ∀ l ∈ leaves, ∀ p ∈ l.messages, f p = g l) :
    (leaves.flatMap messages).filter f = (leaves.filter g).flatMap messages := by
  induction leaves with
  | nil => rfl
  | cons l leaves ih =>
    have hl := h l List.mem_cons_self
    have hrest := ih (fun k hk => h k (List.mem_cons_of_mem _ hk))
    rw [List.flatMap_cons, List.filter_append, hrest]
    cases hg : g l with
    | true =>
      have hall : l.messages.filter f = l.messages :=
        List.filter_eq_self.2 (fun p hp => by rw [hl p hp, hg])
      rw [hall, List.filter_cons_of_pos hg, List.flatMap_cons]
    | false =>
      have hnone : l.messages.filter f = [] :=
        List.filter_eq_nil_iff.2 (fun p hp => by simp [hl p hp, hg])
      rw [hnone, List.filter_cons_of_neg (by simp [hg]), List.nil_append]

@[simp] theorem isEmpty_flatMap_messages (leaves : List Leaf) :
    (leaves.flatMap messages).isEmpty = leaves.isEmpty := by
  cases leaves with
  | nil => rfl
  | cons => rfl

/-- What is sent whole is sent as it is. -/
theorem messages_of_whole {leaves : List Leaf} (h : ∀ l ∈ leaves, l.isChunked = false) :
    leaves.flatMap messages = leaves.map origin := by
  induction leaves with
  | nil => rfl
  | cons l leaves ih =>
    have hl := h l List.mem_cons_self
    rw [List.flatMap_cons, List.map_cons, ih (fun k hk => h k (List.mem_cons_of_mem _ hk))]
    cases l with
    | whole m => rfl
    | chunked m blob chunks => cases hl

theorem Valid.isChunkable {l : Leaf} (h : l.Valid) (hchunked : l.isChunked = true) :
    l.origin.body.isChunkable = true := by
  cases l with
  | whole m => cases hchunked
  | chunked m blob chunks =>
    obtain ⟨object, hobjects, _⟩ := h
    exact (Body.objects_eq_some_iff.1 hobjects).1

theorem Valid.isReferencer_of_isChunked {l : Leaf} (h : l.Valid) (hchunked : l.isChunked = true) :
    l.carrier.isReferencer = true := by
  cases l with
  | whole m => cases hchunked
  | chunked m blob chunks => exact h.isReferencer_carrier

/-- Content that travels in chunks travels in at least one. -/
theorem Valid.exists_chunk {l : Leaf} (h : l.Valid) (hchunked : l.isChunked = true) :
    ∃ p ∈ l.messages, p.isChunk = true := by
  cases l with
  | whole m => cases hchunked
  | chunked m blob chunks =>
    have hvalid := h
    obtain ⟨object, _, _, hcarries⟩ := h
    obtain ⟨before, last, hchunks, _, _⟩ := hcarries.ends
    have hlast : last ∈ chunks := by simp [hchunks]
    exact ⟨last, List.mem_cons_of_mem _ hlast, hvalid.isChunk_of_mem hlast⟩

end Leaf

namespace Message.Spread

variable {m : Message} {leaves : List Leaf}

theorem isChunk_carrier (h : Spread m leaves) (hcut : m.body.kind.collection ≠ none) {l : Leaf}
    (hl : l ∈ leaves) : l.carrier.isChunk = false := by
  rw [Message.isChunk, Body.isChunk, h.kind_carrier hl]
  exact Kind.isChunk_of_collection hcut

/-- A part that is sent whole is no referencer, since its objects have no blob identifiers. -/
theorem isReferencer_whole (h : Spread m leaves) (hsplit : leaves ≠ [.whole m])
    (hblob : ∀ o ∈ m.body.dataObjects, o.blob = none) {origin : Message}
    (hl : .whole origin ∈ leaves) : origin.isReferencer = false := by
  cases hreferencer : origin.isReferencer with
  | false => rfl
  | true =>
    have hchunkable := isChunkable_of_isReferencer hreferencer
    have hreference := (isReferencer_iff hchunkable).1 hreferencer
    have hentries := h.entries_ne_nil hsplit _ hl
    rw [show (Leaf.whole origin).origin = origin from rfl,
      Body.entries_eq_contents hchunkable] at hentries
    have hcontents : origin.body.contents ≠ [] := fun hnil => hentries (by rw [hnil]; rfl)
    obtain ⟨c, hc⟩ := List.exists_mem_of_ne_nil _ hcontents
    have hmem : c ∈ m.body.contents := by
      rw [← h.flatMap_contents]
      exact List.mem_flatMap.2 ⟨_, hl, hc⟩
    have hnone := hblob c.2 (Body.mem_dataObjects hmem)
    have hsome := hreference c hc
    simp [DataObject.isReference, hnone] at hsome

/-- A receiver collects the parts of a leaf if its content travels in chunks, and none of them
otherwise. -/
theorem isCollected_eq (h : Spread m leaves) (hmultipart : m.isMultipart = false)
    (hcut : m.body.kind.collection ≠ none) (hblob : ∀ o ∈ m.body.dataObjects, o.blob = none) :
    ∀ l ∈ leaves, ∀ p ∈ l.messages, Session.isCollected p = l.isChunked := by
  intro l hl p hp
  by_cases hsplit : leaves = [.whole m]
  · rw [hsplit] at hl
    rw [List.mem_singleton.1 hl] at hp ⊢
    rw [List.mem_singleton.1 hp, Session.isCollected,
      show (Leaf.whole m).carrier = m from rfl, hmultipart]
    rfl
  · rw [Session.isCollected, h.isMultipart hsplit p (List.mem_flatMap.2 ⟨l, hl, hp⟩),
      Bool.true_and]
    cases l with
    | whole origin =>
      rw [List.mem_singleton.1 hp, h.isChunk_carrier hcut hl]
      exact h.isReferencer_whole hsplit hblob hl
    | chunked origin blob chunks =>
      have hvalid := h.valid _ hl
      rcases List.mem_cons.1 hp with rfl | hp
      · rw [hvalid.isReferencer_carrier, Bool.or_true]
        rfl
      · rw [hvalid.isChunk_of_mem hp]
        rfl

/-- A final part is a chunk if it belongs to content that travels in chunks. -/
theorem isChunk_of_isFinal (h : Spread m leaves) (hcut : m.body.kind.collection ≠ none) {l : Leaf}
    (hl : l ∈ leaves) {p : Message} (hp : p ∈ l.messages) (hfinal : p.isFinal = true) :
    p.isChunk = l.isChunked := by
  rcases List.mem_cons.1 hp with rfl | hp
  · rw [h.isChunk_carrier hcut hl]
    cases l with
    | whole => rfl
    | chunked origin blob chunks =>
      rw [show (Leaf.chunked origin blob chunks).carrier = origin.referencer blob from rfl,
        isFinal_referencer] at hfinal
      cases hfinal
  · rw [(h.valid l hl).isChunk_of_mem hp]
    cases l with
    | whole => cases hp
    | chunked => rfl

/-- No part is a chunk if no content travels in chunks. -/
theorem forall_not_isChunk (h : Spread m leaves) (hcut : m.body.kind.collection ≠ none) :
    (∀ p ∈ leaves.flatMap Leaf.messages, p.isChunk = false) ↔ leaves.filter Leaf.isChunked = [] := by
  rw [List.filter_eq_nil_iff]
  constructor
  · intro hnone l hl hchunked
    obtain ⟨p, hp, hchunk⟩ := (h.valid l hl).exists_chunk hchunked
    rw [hnone p (List.mem_flatMap.2 ⟨l, hl, hp⟩)] at hchunk
    cases hchunk
  · intro hnone p hp
    obtain ⟨l, hl, hp⟩ := List.mem_flatMap.1 hp
    have hwhole : l.isChunked = false := by simpa using hnone l hl
    cases l with
    | whole origin =>
      rw [List.mem_singleton.1 hp]
      exact h.isChunk_carrier hcut hl
    | chunked => cases hwhole

end Message.Spread

namespace Message

/-- No part is a chunk, or the last one is. -/
def ChunksLast (parts : List Part) : Prop :=
  (∀ p ∈ parts, p.message.isChunk = false) ∨ ∃ p ∈ parts.getLast?, p.message.isChunk = true

instance (parts : List Part) : Decidable (ChunksLast parts) :=
  inferInstanceAs (Decidable (_ ∨ _))

theorem Outcome.chunksLast_iff {m : Message} {limit : Option Nat} {fresh : Fresh}
    {leaves : List Leaf} {before : List Message} {last : Message}
    (h : Outcome m fresh (m.parts limit fresh) leaves) (hcut : m.body.kind.collection ≠ none)
    (hsplit : leaves.flatMap Leaf.messages = before ++ [last]) :
    ChunksLast (m.parts limit fresh).1 ↔
      leaves.filter Leaf.isChunked = [] ∨ last.isChunk = true := by
  have hnone : (∀ p ∈ (m.parts limit fresh).1, p.message.isChunk = false) ↔
      leaves.filter Leaf.isChunked = [] :=
    (h.forall_message (P := fun p => p.isChunk = false)).trans (h.spread.forall_not_isChunk hcut)
  have hlast : (m.parts limit fresh).1.getLast? = some last.asPart := by
    rw [h.parts_eq, hsplit, List.map_append]
    exact List.getLast?_concat
  rw [ChunksLast, hnone, hlast]
  simp [asPart]

end Message

/-! ## Delivery -/

namespace Session

variable {σ : Type}

/-- The entries of the messages that handlers were given. -/
def deliveredEntries (events : List Event) : List Entry :=
  (calls events).flatMap (fun c => c.2.entries)

/-- What came of a message in parts: the entries that arrived, in messages of its kind and with its
other fields, and whether parts stay behind. -/
structure Delivered {α : Type} (m : Message) (entries : List Entry) (behind : Bool)
    (run : Turn σ α) : Prop where
  calls_eq : ∀ c ∈ calls run.events,
    c.1.protocol = m.header.protocol ∧ c.2.cleared = m.body.cleared
  entries_eq : deliveredEntries run.events = entries
  contains_eq : run.session.assemblies.contains m.exchangeId = behind

/-- A message on its way, part by part, to a session that gives it to a handler. -/
structure Transfer (registry : Registry σ) (handler : Handler σ) (m : Message)
    (leaves : List Leaf) : Prop where
  spread : m.Spread leaves
  mergeable : Mergeable m.body leaves
  collection : m.body.kind.collection ≠ none
  isFinal : m.isFinal = true
  incoming : ∀ p ∈ leaves.flatMap Leaf.messages, Incoming registry handler m.exchangeId p
  isCollected_eq : ∀ l ∈ leaves, ∀ p ∈ l.messages, isCollected p = l.isChunked

namespace Transfer

variable {registry : Registry σ} {handler : Handler σ} {m : Message} {leaves : List Leaf}

theorem filter_isCollected (h : Transfer registry handler m leaves) :
    (leaves.flatMap Leaf.messages).filter isCollected =
      (leaves.filter Leaf.isChunked).flatMap Leaf.messages :=
  Leaf.filter_messages h.isCollected_eq

theorem filter_not_isCollected (h : Transfer registry handler m leaves) :
    (leaves.flatMap Leaf.messages).filter (fun p => !isCollected p) =
      (leaves.filter (fun l => !l.isChunked)).map Leaf.origin := by
  have hfilter := Leaf.filter_messages (f := fun p => !isCollected p) (g := fun l => !l.isChunked)
    (fun l hl p hp => congrArg not (h.isCollected_eq l hl p hp))
  rw [hfilter]
  exact Leaf.messages_of_whole (fun l hl => by simpa using (List.mem_filter.1 hl).2)

/-- The final part is collected if and only if it is a chunk. -/
theorem last_part (h : Transfer registry handler m leaves) :
    ∃ before last, leaves.flatMap Leaf.messages = before ++ [last] ∧
      (∀ p ∈ before, p.isFinal = false) ∧ last.isFinal = true ∧
      isCollected last = last.isChunk := by
  have hends := h.spread.ends
  rw [h.isFinal] at hends
  obtain ⟨before, last, hsplit, hbefore, hlast⟩ := hends
  refine ⟨before, last, hsplit, hbefore, hlast, ?_⟩
  have hmem : last ∈ leaves.flatMap Leaf.messages := by simp [hsplit]
  obtain ⟨l, hl, hp⟩ := List.mem_flatMap.1 hmem
  rw [h.isCollected_eq l hl last hp, h.spread.isChunk_of_isFinal h.collection hl hp hlast]

/-- The chunks and their referencers become one message with the entries that they carry. -/
theorem reassemble_collected (h : Transfer registry handler m leaves)
    (hchunked : leaves.filter Leaf.isChunked ≠ []) :
    ∃ header body, Message.reassemble ((leaves.flatMap Leaf.messages).filter isCollected) =
        some ⟨header, body⟩ ∧
      header.protocol = m.header.protocol ∧ body.cleared = m.body.cleared ∧
      body.entries = (leaves.filter Leaf.isChunked).flatMap Leaf.entries := by
  have hvalid : ∀ l ∈ leaves.filter Leaf.isChunked, l.Valid ∧ l.isChunked = true := by
    intro l hl
    obtain ⟨hl, hlchunked⟩ := List.mem_filter.1 hl
    exact ⟨h.spread.valid l hl, hlchunked⟩
  have hmergeable := h.mergeable.sublist (List.filter_sublist (p := Leaf.isChunked))
  rw [h.filter_isCollected]
  obtain ⟨l, rest, hcons⟩ := List.exists_cons_of_ne_nil hchunked
  have hl : l ∈ leaves := List.mem_of_mem_filter (hcons ▸ List.mem_cons_self)
  rw [hcons] at hvalid hmergeable ⊢
  have hkind := Body.kind_eq_of_cleared (h.spread.cleared_eq l hl)
  have hchunkable : m.body.isChunkable = true := by
    rw [Body.isChunkable, ← hkind]
    exact (hvalid l List.mem_cons_self).1.isChunkable (hvalid l List.mem_cons_self).2
  have hreferencer : ∀ k ∈ l :: rest, k.carrier.isReferencer = true := by
    intro k hk
    exact (hvalid k hk).1.isReferencer_of_isChunked (hvalid k hk).2
  obtain ⟨body, hbody, hcleared, hcontents⟩ := hmergeable.reassemble_eq hchunkable hreferencer
  refine ⟨_, body, hbody, ?_, hcleared, ?_⟩
  · exact (h.spread.isPartOf _ (List.mem_flatMap.2 ⟨l, hl, List.mem_cons_self⟩)).protocol_eq
  · have hbodyChunkable : body.isChunkable = true := by
      rw [Body.isChunkable, Body.kind_eq_of_cleared hcleared]
      exact hchunkable
    rw [Body.entries_eq_contents hbodyChunkable, hcontents, List.map_flatMap]
    apply List.flatMap_congr
    intro k hk
    obtain ⟨hkvalid, hkchunked⟩ := hvalid k hk
    exact (Body.entries_eq_contents (hkvalid.isChunkable hkchunked)).symm

/-- A message that a handler is given in a call has the kind and the fields of the one that was sent. -/
theorem call_of_whole (h : Transfer registry handler m leaves) :
    ∀ c ∈ (leaves.filter (fun l => !l.isChunked)).map (call ∘ Leaf.origin),
      c.1.protocol = m.header.protocol ∧ c.2.cleared = m.body.cleared := by
  intro c hc
  obtain ⟨l, hl, rfl⟩ := List.mem_map.1 hc
  obtain ⟨hl, hwhole⟩ := List.mem_filter.1 hl
  refine ⟨?_, h.spread.cleared_eq l hl⟩
  have hpart := h.spread.isPartOf _ (List.mem_flatMap.2 ⟨l, hl, List.mem_cons_self⟩)
  cases l with
  | whole origin => exact hpart.protocol_eq
  | chunked => cases hwhole

variable {s : Session} {inputs : List (Nat × Bytes)} {before : List Message} {last : Message}

/-- What was collected stays behind, unless it ends with the final part. -/
theorem delivered_dispatching (h : Transfer registry handler m leaves) (hopen : s.Open)
    (hroom : s.HasRoom) (hpeer : handler.KeepsPeer)
    (hnew : s.assemblies.contains m.exchangeId = false) (world : σ)
    (hinputs : inputs.map Prod.snd = (leaves.flatMap Leaf.messages).map Message.encode)
    (hsplit : leaves.flatMap Leaf.messages = before ++ [last])
    (hbefore : ∀ p ∈ before, p.isFinal = false) (hcollected : isCollected last = false) :
    Delivered m ((leaves.filter (fun l => !l.isChunked)).flatMap Leaf.entries)
      (!(leaves.filter Leaf.isChunked).isEmpty)
      (feed (handleFrame registry) inputs s world) := by
  have hincoming := h.incoming
  have hwhole := h.filter_not_isCollected
  have hheld := h.filter_isCollected
  rw [hsplit] at hinputs hincoming hwhole hheld
  obtain ⟨hcontains, hcalls⟩ := feed_dispatching hopen hroom hpeer world hnew hinputs
    (fun p hp => ⟨hincoming p (List.mem_append_left _ hp), hbefore p hp⟩)
    (hincoming last (by simp)) hcollected
  rw [hwhole, List.map_map] at hcalls
  refine ⟨?_, ?_, ?_⟩
  · rw [hcalls]
    exact h.call_of_whole
  · rw [deliveredEntries, hcalls, List.flatMap_map]
    rfl
  · rw [List.filter_append, List.filter_cons_of_neg (by simp [hcollected]), List.filter_nil,
      List.append_nil] at hheld
    rw [hcontains, hheld, Leaf.isEmpty_flatMap_messages]

/-- What was collected arrives with the final part, if this one is collected. -/
theorem delivered_completing (h : Transfer registry handler m leaves) (hopen : s.Open)
    (hroom : s.HasRoom) (hpeer : handler.KeepsPeer)
    (hnew : s.assemblies.contains m.exchangeId = false) (world : σ)
    (hinputs : inputs.map Prod.snd = (leaves.flatMap Leaf.messages).map Message.encode)
    (hsplit : leaves.flatMap Leaf.messages = before ++ [last])
    (hbefore : ∀ p ∈ before, p.isFinal = false) (hfinal : last.isFinal = true)
    (hcollected : isCollected last = true) :
    Delivered m ((leaves.filter (fun l => !l.isChunked)).flatMap Leaf.entries ++
        (leaves.filter Leaf.isChunked).flatMap Leaf.entries) false
      (feed (handleFrame registry) inputs s world) := by
  have hincoming := h.incoming
  have hwhole := h.filter_not_isCollected
  have hlast : last ∈ leaves.flatMap Leaf.messages := by simp [hsplit]
  have hchunked : leaves.filter Leaf.isChunked ≠ [] := by
    intro hnil
    have hheld : last ∈ (leaves.flatMap Leaf.messages).filter isCollected :=
      List.mem_filter.2 ⟨hlast, hcollected⟩
    rw [h.filter_isCollected, hnil] at hheld
    cases hheld
  obtain ⟨header, body, hreassemble, hprotocol, hcleared, hentries⟩ :=
    h.reassemble_collected hchunked
  have hcore : body.kind.protocol ≠ .core := by
    rw [Body.kind_eq_of_cleared hcleared]
    exact Kind.protocol_of_collection h.collection
  have hhandler : registry.find? header.protocol = some handler := by
    rw [hprotocol, ← (h.spread.isPartOf last hlast).protocol_eq]
    exact (hincoming last hlast).handled
  rw [hsplit] at hinputs hincoming hwhole hreassemble
  obtain ⟨hcontains, hcalls⟩ := feed_completing hopen hroom hpeer world hnew hinputs
    (fun p hp => ⟨hincoming p (List.mem_append_left _ hp), hbefore p hp⟩)
    (hincoming last (by simp)) hcollected hfinal hreassemble hcore hhandler
  rw [List.filter_append, List.filter_cons_of_neg (by simp [hcollected]), List.filter_nil,
    List.append_nil] at hwhole
  rw [hwhole, List.map_map] at hcalls
  refine ⟨?_, ?_, hcontains⟩
  · rw [hcalls]
    intro c hc
    rcases List.mem_append.1 hc with hc | hc
    · exact h.call_of_whole c hc
    · rw [List.mem_singleton.1 hc]
      exact ⟨hprotocol, hcleared⟩
  · rw [deliveredEntries, hcalls, List.flatMap_append, List.flatMap_map, List.flatMap_singleton]
    exact congrArg _ hentries

/-- What was collected has entries. -/
theorem entries_collected (h : Transfer registry handler m leaves) :
    (leaves.filter Leaf.isChunked).flatMap Leaf.entries = [] ↔
      leaves.filter Leaf.isChunked = [] := by
  constructor
  · intro hnil
    apply List.eq_nil_iff_forall_not_mem.2
    intro l hl
    have hempty : l.entries = [] := List.flatMap_eq_nil_iff.1 hnil l hl
    obtain ⟨hl, hchunked⟩ := List.mem_filter.1 hl
    have hsplit : leaves ≠ [.whole m] := by
      rintro rfl
      rw [List.mem_singleton.1 hl] at hchunked
      cases hchunked
    exact h.spread.entries_ne_nil hsplit l hl hempty
  · intro hnil
    rw [hnil]
    rfl

end Transfer

/-- A message that nothing keeps from a handler of a session but the way in which it is cut.  The blob
identifiers that are drawn for its parts are distinct. -/
structure Deliverable (registry : Registry σ) (handler : Handler σ) (m : Message)
    (limit : Option Nat) (fresh : Fresh) (s : Session) : Prop where
  named : m.Named
  cuttable : m.body.cuttableSize ≠ none
  exchangeId_ne : m.exchangeId ≠ 0
  isFinal : m.isFinal = true
  not_multipart : m.isMultipart = false
  blob_eq : ∀ o ∈ m.body.dataObjects, o.blob = none
  sent : Message.Sent (m.parts limit fresh).1
  withinLimit : ∀ p ∈ (m.parts limit fresh).1, p.message.body.WithinLimit
  distinct : (fresh.blobs.taken (m.parts limit fresh).2.blobs).Nodup
  isOpen : s.Open
  hasRoom : s.HasRoom
  isNew : s.assemblies.contains m.exchangeId = false
  handled : registry.find? m.header.protocol = some handler
  keepsPeer : handler.KeepsPeer

namespace Deliverable

variable {registry : Registry σ} {handler : Handler σ} {m : Message} {limit : Option Nat}
  {fresh : Fresh} {s : Session} {leaves : List Leaf}

theorem collection (h : Deliverable registry handler m limit fresh s) :
    m.body.kind.collection ≠ none := by
  intro hnone
  refine h.cuttable ?_
  rw [Body.cuttableSize, hnone]
  rfl

/-- The parts are decoded as they were, and come in under the protocol of the handler. -/
theorem transfer (h : Deliverable registry handler m limit fresh s)
    (houtcome : m.Outcome fresh (m.parts limit fresh) leaves) :
    Transfer registry handler m leaves where
  spread := houtcome.spread
  mergeable := houtcome.mergeable (fun o ho _ => h.blob_eq o ho)
    ⟨h.distinct, fun blob _ o ho => by simp [h.blob_eq o ho]⟩
  collection := h.collection
  isFinal := h.isFinal
  incoming := by
    intro p hp
    have hpart := houtcome.spread.isPartOf p hp
    have hnamed := hpart.named h.named
    have hlimit : ∀ p ∈ leaves.flatMap Leaf.messages, p.body.WithinLimit :=
      houtcome.forall_message.1 h.withinLimit
    have hcore : p.header.protocol ≠ Protocol.core.id := by
      rw [hpart.protocol_eq, h.named.protocol_eq]
      exact Protocol.id_ne_core (Kind.protocol_of_collection h.collection)
    refine ⟨hnamed.decode_eq (hlimit p hp), hnamed.not_core hcore, ?_, hpart.exchangeId_eq h.exchangeId_ne⟩
    rw [hpart.protocol_eq]
    exact h.handled
  isCollected_eq := houtcome.spread.isCollected_eq h.not_multipart h.collection h.blob_eq

end Deliverable

/-- What of a message in parts reaches its handler, and what stays behind.  Every call has a message of
the kind that was sent, with the same fields apart from the entries.  All entries arrive, each of them
once and as it was, and no part stays behind, exactly if no part is a chunk or the last one is. -/
theorem delivered_iff {registry : Registry σ} {handler : Handler σ} {m : Message}
    {limit : Option Nat} {fresh : Fresh} {s : Session}
    (h : Deliverable registry handler m limit fresh s) (world : σ) {inputs : List (Nat × Bytes)}
    (hinputs : inputs.map Prod.snd = (m.frames limit fresh).1) :
    let run := feed (handleFrame registry) inputs s world
    (∀ c ∈ calls run.events,
        c.1.protocol = m.header.protocol ∧ c.2.cleared = m.body.cleared) ∧
      ((deliveredEntries run.events).Perm m.body.entries ↔
        Message.ChunksLast (m.parts limit fresh).1) ∧
      (run.session.assemblies.contains m.exchangeId = false ↔
        Message.ChunksLast (m.parts limit fresh).1) := by
  obtain ⟨leaves, houtcome⟩ := Message.parts_spread h.sent
  have htransfer := h.transfer houtcome
  rw [houtcome.frames_eq] at hinputs
  obtain ⟨before, last, hsplit, hbefore, hlast, hcollected⟩ := htransfer.last_part
  have hchunksLast := houtcome.chunksLast_iff h.collection hsplit
  have hperm := Leaf.entries_perm leaves
  have hall : leaves.flatMap Leaf.entries = m.body.entries := houtcome.spread.flatMap_entries
  rw [hall] at hperm
  cases hchunk : last.isChunk with
  | true =>
    have hdelivered := htransfer.delivered_completing h.isOpen h.hasRoom h.keepsPeer h.isNew world
      hinputs hsplit hbefore hlast (hcollected.trans hchunk)
    have harrives := hchunksLast.2 (.inr hchunk)
    refine ⟨hdelivered.calls_eq, iff_of_true ?_ harrives,
      iff_of_true hdelivered.contains_eq harrives⟩
    rw [hdelivered.entries_eq]
    exact hperm
  | false =>
    have hdelivered := htransfer.delivered_dispatching h.isOpen h.hasRoom h.keepsPeer h.isNew world
      hinputs hsplit hbefore (hcollected.trans hchunk)
    have harrives : Message.ChunksLast (m.parts limit fresh).1 ↔
        leaves.filter Leaf.isChunked = [] := by
      rw [hchunksLast, hchunk]
      simp
    refine ⟨hdelivered.calls_eq, ?_, ?_⟩
    · rw [hdelivered.entries_eq, harrives, ← htransfer.entries_collected]
      constructor
      · intro harrived
        have hlength := (harrived.trans hperm.symm).length_eq
        rw [List.length_append] at hlength
        exact List.length_eq_zero_iff.1 (by omega)
      · intro hnil
        rw [hnil, List.append_nil] at hperm
        exact hperm
    · rw [hdelivered.contains_eq, harrives]
      simp

/-- Frames that arrive one every ten milliseconds. -/
def paced (frames : List Bytes) : List (Nat × Bytes) := frames.mapIdx (fun i frame => (10 * i, frame))

/-- What is to be shown of a request that is sent to the opened session in frames of 80 bytes. -/
theorem deliverable_openedSession {m : Message} {result : List Part × Fresh}
    (hparts : m.parts (some 80) Message.countingFresh = result) (hnamed : m.Named)
    (hprotocol : m.header.protocol = Protocol.store.id) (hcut : m.body.cuttableSize ≠ none)
    (hexchange : m.exchangeId ≠ 0) (hfinal : m.isFinal = true) (hmultipart : m.isMultipart = false)
    (hblob : ∀ o ∈ m.body.dataObjects, o.blob = none) (hsent : Message.Sent result.1)
    (hlimit : ∀ p ∈ result.1, p.message.body.WithinLimit)
    (hdistinct : (Message.countingFresh.blobs.taken result.2.blobs).Nodup) :
    Deliverable countingRegistry countingHandler m (some 80) Message.countingFresh
      openedSession := by
  subst hparts
  have hempty : openedSession.assemblies.toList = [] := by decide +kernel
  have hnew : openedSession.assemblies.contains m.exchangeId = false := by
    rw [Assemblies.contains, hempty]
    rfl
  have hhandler : countingRegistry.find? m.header.protocol = some countingHandler := by
    rw [hprotocol]
    rfl
  exact ⟨hnamed, hcut, hexchange, hfinal, hmultipart, hblob, hsent, hlimit, hdistinct,
    openedSession_isOpen, openedSession_hasRoom, hnew, hhandler, fun _ _ _ _ => rfl⟩

/-- Two objects that travel in chunks arrive with the last chunk. -/
theorem delivered_twoLarge :
    let frames := (Message.twoLarge.frames (some 80) Message.countingFresh).1
    let run := feed (handleFrame countingRegistry) (paced frames) openedSession 0
    Deliverable countingRegistry countingHandler Message.twoLarge (some 80) Message.countingFresh
        openedSession ∧
      (deliveredEntries run.events).Perm Message.twoLarge.body.entries ∧
      run.session.assemblies.contains Message.twoLarge.exchangeId = false := by
  have hparts := Message.parts_twoLarge
  have hdeliverable := deliverable_openedSession hparts ⟨rfl, rfl⟩ rfl (by decide +kernel)
    (by decide +kernel) (by decide +kernel) (by decide +kernel) (by decide +kernel)
    (by decide +kernel) (by decide +kernel) (by decide +kernel)
  have hlast : Message.ChunksLast (Message.twoLarge.parts (some 80) Message.countingFresh).1 := by
    rw [hparts]
    decide +kernel
  have hpaced : (paced (Message.twoLarge.frames (some 80) Message.countingFresh).1).map Prod.snd =
      (Message.twoLarge.frames (some 80) Message.countingFresh).1 := by
    rw [Message.frames, hparts]
    decide +kernel
  obtain ⟨-, harrives, hends⟩ := delivered_iff hdeliverable 0 hpaced
  exact ⟨hdeliverable, harrives.2 hlast, hends.2 hlast⟩

/-- A request with an object that is too large for a frame of 80 bytes, and a small one after it. -/
def largeThenSmall : Message :=
  Message.request (Message.storing [("a", List.replicate 60 7), ("b", [9])])

theorem parts_largeThenSmall :
    largeThenSmall.parts (some 80) Message.countingFresh =
      let first := Message.chunkedParts 80
        (largeThenSmall.firstHalf (Message.storing [("a", List.replicate 60 7)]))
        (Message.holding (List.replicate 60 7)) Message.countingFresh.drawId.2
      let second := largeThenSmall.secondHalf (Message.storing [("b", [9])])
        Message.countingFresh.drawId.1
      (first.1 ++ [second.asPart], first.2) := by
  have hsize : largeThenSmall.body.cuttableSize = some (0 + 2) := by decide +kernel
  have hsplit : largeThenSmall.body.split 1 =
      some (Message.storing [("a", List.replicate 60 7)], Message.storing [("b", [9])]) := by
    decide +kernel
  rw [Message.parts_of_cut (by decide +kernel) (by decide +kernel) hsize hsplit]
  simp only
  rw [Message.parts_of_single (by decide +kernel) (by decide +kernel) (by decide +kernel) rfl,
    Message.parts_of_fits (by decide +kernel)]

/-- The small object is the final part and goes to the handler at once.  The large one, all of whose
chunks arrived before, never does. -/
theorem delivered_largeThenSmall :
    let frames := (largeThenSmall.frames (some 80) Message.countingFresh).1
    let run := feed (handleFrame countingRegistry) (paced frames) openedSession 0
    Deliverable countingRegistry countingHandler largeThenSmall (some 80) Message.countingFresh
        openedSession ∧
      (calls run.events).map Prod.snd = [Message.storing [("b", [9])]] ∧
      ¬ (deliveredEntries run.events).Perm largeThenSmall.body.entries ∧
      run.session.assemblies.contains largeThenSmall.exchangeId = true := by
  have hparts := parts_largeThenSmall
  have hdeliverable := deliverable_openedSession hparts ⟨rfl, rfl⟩ rfl (by decide +kernel)
    (by decide +kernel) (by decide +kernel) (by decide +kernel) (by decide +kernel)
    (by decide +kernel) (by decide +kernel) (by decide +kernel)
  intro frames run
  have hcalls : (calls run.events).map Prod.snd = [Message.storing [("b", [9])]] := by
    simp only [run, frames]
    rw [Message.frames, hparts]
    decide +kernel
  have hends : run.session.assemblies.contains largeThenSmall.exchangeId = true := by
    simp only [run, frames]
    rw [Message.frames, hparts]
    decide +kernel
  refine ⟨hdeliverable, hcalls, ?_, hends⟩
  intro harrives
  have hlength := harrives.length_eq
  rw [deliveredEntries, ← List.flatMap_map, hcalls] at hlength
  revert hlength
  decide +kernel

end Session

end Etp
