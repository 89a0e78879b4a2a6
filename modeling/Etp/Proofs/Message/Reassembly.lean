import Etp.Message.Reassembly
import Etp.Proofs.Message.Spread
import Mathlib.Data.List.Basic
import Mathlib.Data.List.Flatten

/-!
# Parts are put together again

A receiver sees the parts of a message and nothing of the tree they come from.  It finds the objects in
the referencers and, by the blob identifiers, the content in the chunks.  `Mergeable` says which leaves
it can put together in this way: the objects go on ascending by their keys, and the blob identifiers are
distinct and not those of other objects.  Leaves of one message always go on ascending
(`Spread.mergeable`), and leaving some of them out does no harm (`Mergeable.sublist`), which matters to a
receiver that does not collect all parts.
-/

namespace Etp

/-! ## Objects and their chunks -/

namespace Content

/-- Whether the keys ascend depends on the keys only. -/
theorem pairwise_of_keys {as bs : List Content} (hkeys : as.map (·.1) = bs.map (·.1))
    (has : as.Pairwise Before) : bs.Pairwise Before := by
  let keyBefore : Option String → Option String → Prop :=
    fun k l => ∀ a b, k = some a → l = some b → a < b
  have hpairs : (as.map (·.1)).Pairwise keyBefore := List.pairwise_map.2 has
  rw [hkeys] at hpairs
  have hbs := List.pairwise_map.1 hpairs
  exact hbs

end Content

namespace DataObject

/-- An object without content stays as it is, if no chunk is meant for it. -/
theorem fill_of_unused {chunks : List Chunk} {o : DataObject} (hdata : o.data = [])
    (hunused : ∀ c ∈ chunks, o.blob ≠ some c.blob) : o.fill chunks = o := by
  have hown : chunks.filter (fun c => o.blob == some c.blob) = [] := by
    apply List.filter_eq_nil_iff.2
    intro c hc
    simpa using hunused c hc
  unfold fill
  rw [hown, hdata]
  simpa [hdata] using o.withContent_self

/-- An object receives the content of the chunks that are meant for it. -/
theorem fill_of_own {chunks own : List Chunk} {o : DataObject} {blob : Uuid} (hblob : o.blob = none)
    (hdata : o.data ≠ [])
    (hown : chunks.filter (fun c => some blob == some c.blob) = own)
    (hcontent : own.flatMap Chunk.data = o.data) :
    (o.withContent (some blob) []).fill chunks = o := by
  have hsome : o.data.isEmpty = false := by simpa using hdata
  have hself := o.withContent_self
  rw [hblob] at hself
  simp only [fill, blob_withContent, data_withContent, hown, hcontent, List.nil_append, hsome,
    Bool.false_eq_true, if_false]
  exact hself

end DataObject

/-! ## Referencers -/

/-- A chunk has no entries by which it could be cut. -/
theorem Kind.isChunk_of_collection {k : Kind} (h : k.collection ≠ none) : k.isChunk = false := by
  cases k with
  | storeChunk => exact absurd rfl h
  | storeQueryChunk => exact absurd rfl h
  | _ => rfl

theorem Body.cuttableSize_of_isChunk {b : Body} (h : b.isChunk = true) : b.cuttableSize = none := by
  apply Option.map_eq_none_iff.2
  by_contra hcollection
  have hchunk : b.isChunk = false := Kind.isChunk_of_collection hcollection
  rw [h] at hchunk
  cases hchunk

theorem Body.isChunk_of_isChunkable {b : Body} (h : b.isChunkable = true) : b.isChunk = false := by
  obtain ⟨k, v⟩ := b
  cases k with
  | putDataObjects => rfl
  | getDataObjectsResponse => rfl
  | findDataObjectsResponse => rfl
  | _ => cases h

namespace Message

theorem isChunk_of_isReferencer {m : Message} (h : m.isReferencer = true) : m.isChunk = false := by
  simp only [isReferencer, Bool.and_eq_true, Bool.not_eq_true'] at h
  exact h.1

theorem isReferencer_of_isChunk {m : Message} (h : m.isChunk = true) : m.isReferencer = false := by
  simp [isReferencer, h]

/-- What a referencer is, by its objects. -/
theorem isReferencer_iff {m : Message} (h : m.body.isChunkable = true) :
    m.isReferencer = true ↔ ∀ c ∈ m.body.contents, c.2.isReference = true := by
  have hobjects := Body.objects_eq_some_iff.2 ⟨h, rfl⟩
  simp [isReferencer, isChunk, Body.isChunk_of_isChunkable h, hobjects]

theorem isChunkable_of_isReferencer {m : Message} (h : m.isReferencer = true) :
    m.body.isChunkable = true := by
  cases hobjects : m.body.objects with
  | none => simp [isReferencer, hobjects] at h
  | some objects => exact (Body.objects_eq_some_iff.1 hobjects).1

/-- Parts make up no message exactly if none of them is a referencer. -/
theorem reassemble_eq_none_iff {parts : List Message} :
    reassemble parts = none ↔ ∀ p ∈ parts, p.isReferencer = false := by
  unfold reassemble
  split
  case h_1 hnone => simpa [List.filter_eq_nil_iff] using hnone
  case h_2 first later hsome =>
    have hfirst : first ∈ parts.filter isReferencer := hsome ▸ List.mem_cons_self
    obtain ⟨hmem, hreferencer⟩ := List.mem_filter.1 hfirst
    constructor
    · exact fun h => nomatch h
    · intro hnone
      rw [hnone first hmem] at hreferencer
      cases hreferencer

/-- Referencers of one kind are merged in their order, if their keys go on ascending. -/
theorem merged_spec {first : Body} {later : List Message} (hchunkable : first.isChunkable = true)
    (hcleared : ∀ m ∈ later, m.body.cleared = first.cleared)
    (hbefore : (first.contents ++ later.flatMap (·.body.contents)).Pairwise Content.Before) :
    (merged first later).cleared = first.cleared ∧
      (merged first later).contents = first.contents ++ later.flatMap (·.body.contents) := by
  induction later generalizing first with
  | nil => simp [merged]
  | cons m later ih =>
    rw [List.flatMap_cons, ← List.append_assoc] at hbefore
    have hm := hcleared m List.mem_cons_self
    obtain ⟨body, habsorb, hbody, hcontents⟩ :=
      Body.absorb_spec hchunkable hm (List.pairwise_append.1 hbefore).1
    have hstep : merged first (m :: later) = merged body later := by
      simp [merged, habsorb]
    have hbodyChunkable : body.isChunkable = true := by
      rw [Body.isChunkable, Body.kind_eq_of_cleared hbody]
      exact hchunkable
    have hlater : ∀ m ∈ later, m.body.cleared = body.cleared := fun m' hm' =>
      (hcleared m' (List.mem_cons_of_mem _ hm')).trans hbody.symm
    rw [← hcontents] at hbefore
    obtain ⟨hrest, hall⟩ := ih hbodyChunkable hlater hbefore
    rw [hstep]
    refine ⟨hrest.trans hbody, ?_⟩
    rw [hall, hcontents, List.flatMap_cons, List.append_assoc]

end Message

/-! ## What a receiver finds in the parts -/

namespace Leaf

/-- The data objects of the message, with their keys. -/
def contents (l : Leaf) : List Content := l.origin.body.contents

/-- The pieces of content in the chunks. -/
def pieces (l : Leaf) : List Chunk := l.chunks.filterMap (·.body.chunk?)

theorem Valid.isChunk_of_mem {l : Leaf} (h : l.Valid) {c : Message} (hc : c ∈ l.chunks) :
    c.isChunk = true := by
  cases l with
  | whole m => cases hc
  | chunked m blob chunks =>
    obtain ⟨object, _, _, hcarries⟩ := h
    obtain ⟨chunk, hchunk, _⟩ := hcarries.blob_eq c hc
    rw [Message.isChunk, Body.isChunk_eq, hchunk]
    rfl

theorem Valid.blob_of_mem_pieces {l : Leaf} (h : l.Valid) {c : Chunk} (hc : c ∈ l.pieces) :
    l.blob? = some c.blob := by
  cases l with
  | whole m => cases hc
  | chunked m blob chunks =>
    obtain ⟨object, _, _, hcarries⟩ := h
    obtain ⟨p, hp, hchunk⟩ := List.mem_filterMap.1 hc
    obtain ⟨chunk, hchunk', hblob⟩ := hcarries.blob_eq p hp
    rw [hchunk] at hchunk'
    cases hchunk'
    rw [hblob]
    rfl

theorem cleared_carrier (l : Leaf) : l.carrier.body.cleared = l.origin.body.cleared := by
  cases l with
  | whole m => rfl
  | chunked m blob chunks => exact Body.cleared_mapObjects _ _

/-- A carrier keeps the keys. -/
theorem keys_carrier (l : Leaf) : l.carrier.body.contents.map (·.1) = l.contents.map (·.1) := by
  cases l with
  | whole m => rfl
  | chunked m blob chunks =>
    simp [carrier, contents, origin, Message.referencer, Message.addFlags, Message.setFinal,
      Message.withFlags, Body.contents_mapObjects]

/-- The carrier of a message that is sent in chunks is a referencer. -/
theorem Valid.isReferencer_carrier {m : Message} {blob : Uuid} {chunks : List Message}
    (h : (chunked m blob chunks).Valid) : (chunked m blob chunks).carrier.isReferencer = true := by
  obtain ⟨object, hobjects, _, _⟩ := h
  obtain ⟨hchunkable, _⟩ := Body.objects_eq_some_iff.1 hobjects
  have hcarrier : (m.referencer blob).body.isChunkable = true := by
    rw [Body.isChunkable, show (m.referencer blob).body.kind = m.body.kind from
      Body.kind_mapObjects _ _]
    exact hchunkable
  apply (Message.isReferencer_iff hcarrier).2
  intro c hc
  have hc : c ∈ (m.body.mapObjects (fun o => o.withContent (some blob) [])).contents := hc
  rw [Body.contents_mapObjects] at hc
  obtain ⟨c', _, rfl⟩ := List.mem_map.1 hc
  rfl

/-- Among the pieces of all leaves, those under the identifier of a leaf are its own. -/
theorem filter_pieces {leaves : List Leaf} (hvalid : ∀ l ∈ leaves, l.Valid)
    (hdistinct : (leaves.filterMap blob?).Nodup) {l : Leaf} (hl : l ∈ leaves) {blob : Uuid}
    (hblob : l.blob? = some blob) :
    (leaves.flatMap pieces).filter (fun c => some blob == some c.blob) = l.pieces := by
  induction leaves with
  | nil => cases hl
  | cons l' leaves ih =>
    have hvalid' := hvalid l' List.mem_cons_self
    have hrest : ∀ k ∈ leaves, k.Valid := fun k hk => hvalid k (List.mem_cons_of_mem _ hk)
    rw [List.flatMap_cons, List.filter_append]
    rcases List.mem_cons.1 hl with rfl | hl
    · rw [List.filterMap_cons_some hblob] at hdistinct
      have hown : l.pieces.filter (fun c => some blob == some c.blob) = l.pieces := by
        apply List.filter_eq_self.2
        intro c hc
        rw [← hblob, hvalid'.blob_of_mem_pieces hc, beq_self_eq_true]
      have hothers : (leaves.flatMap pieces).filter (fun c => some blob == some c.blob) = [] := by
        apply List.filter_eq_nil_iff.2
        intro c hc heq
        obtain ⟨k, hk, hck⟩ := List.mem_flatMap.1 hc
        have hkblob := (hrest k hk).blob_of_mem_pieces hck
        rw [← beq_iff_eq.1 heq] at hkblob
        exact (List.nodup_cons.1 hdistinct).1 (List.mem_filterMap.2 ⟨k, hk, hkblob⟩)
      rw [hown, hothers, List.append_nil]
    · have hmem : blob ∈ leaves.filterMap blob? := List.mem_filterMap.2 ⟨l, hl, hblob⟩
      have hnone : l'.pieces.filter (fun c => some blob == some c.blob) = [] := by
        apply List.filter_eq_nil_iff.2
        intro c hc heq
        have hblob' := hvalid'.blob_of_mem_pieces hc
        rw [← beq_iff_eq.1 heq] at hblob'
        rw [List.filterMap_cons_some hblob'] at hdistinct
        exact (List.nodup_cons.1 hdistinct).1 hmem
      have hdistinct' : (leaves.filterMap blob?).Nodup :=
        hdistinct.sublist ((List.sublist_cons_self l' leaves).filterMap blob?)
      rw [hnone, List.nil_append]
      exact ih hrest hdistinct' hl

/-- The referencers among the parts are the carriers, if these are referencers. -/
theorem filter_isReferencer {leaves : List Leaf} (hvalid : ∀ l ∈ leaves, l.Valid)
    (hreferencer : ∀ l ∈ leaves, l.carrier.isReferencer = true) :
    (leaves.flatMap messages).filter Message.isReferencer = leaves.map carrier := by
  induction leaves with
  | nil => rfl
  | cons l leaves ih =>
    have hcarrier := hreferencer l List.mem_cons_self
    have hchunks : l.chunks.filter Message.isReferencer = [] := by
      apply List.filter_eq_nil_iff.2
      intro c hc
      have hchunk := (hvalid l List.mem_cons_self).isChunk_of_mem hc
      rw [Message.isReferencer_of_isChunk hchunk]
      exact Bool.false_ne_true
    have hrest := ih (fun k hk => hvalid k (List.mem_cons_of_mem _ hk))
      (fun k hk => hreferencer k (List.mem_cons_of_mem _ hk))
    rw [List.flatMap_cons, List.filter_append, hrest, messages, List.filter_cons, if_pos hcarrier,
      hchunks]
    rfl

/-- The chunks among the parts hold the pieces. -/
theorem filterMap_chunk? {leaves : List Leaf}
    (hreferencer : ∀ l ∈ leaves, l.carrier.isReferencer = true) :
    (leaves.flatMap messages).filterMap (·.body.chunk?) = leaves.flatMap pieces := by
  rw [List.filterMap_flatMap]
  apply List.flatMap_congr
  intro l hl
  have hcarrier := Message.isChunk_of_isReferencer (hreferencer l hl)
  rw [Message.isChunk, Body.isChunk_eq] at hcarrier
  have hnone : l.carrier.body.chunk? = none := by simpa using hcarrier
  simp only [messages, List.filterMap_cons, hnone]
  rfl

end Leaf

/-! ## Merging -/

/-- Leaves that a receiver can put together, if all their parts arrive.  The messages at the leaves
agree with `base` apart from the entries. -/
structure Mergeable (base : Body) (leaves : List Leaf) : Prop where
  valid : ∀ l ∈ leaves, l.Valid
  cleared_eq : ∀ l ∈ leaves, l.origin.body.cleared = base.cleared
  ascending : (leaves.flatMap Leaf.contents).Pairwise Content.Before
  distinct : (leaves.filterMap Leaf.blob?).Nodup
  unused : ∀ blob ∈ leaves.filterMap Leaf.blob?, ∀ c ∈ leaves.flatMap Leaf.contents,
    c.2.blob ≠ some blob
  inline : ∀ c ∈ leaves.flatMap Leaf.contents, c.2.data ≠ [] → c.2.blob = none

namespace Mergeable

variable {base : Body} {leaves leaves' : List Leaf}

theorem sublist (h : Mergeable base leaves) (hsub : leaves'.Sublist leaves) :
    Mergeable base leaves' := by
  have hcontents := (hsub.flatMap Leaf.contents).subset
  have hblobs := hsub.filterMap Leaf.blob?
  refine ⟨?_, ?_, ?_, ?_, ?_, ?_⟩
  · exact fun l hl => h.valid l (hsub.subset hl)
  · exact fun l hl => h.cleared_eq l (hsub.subset hl)
  · exact h.ascending.sublist (hsub.flatMap Leaf.contents)
  · exact h.distinct.sublist hblobs
  · exact fun blob hblob c hc => h.unused blob (hblobs.subset hblob) c (hcontents hc)
  · exact fun c hc => h.inline c (hcontents hc)

/-- Every object of a carrier gets its content back. -/
theorem fill_carrier (h : Mergeable base leaves) {l : Leaf} (hl : l ∈ leaves)
    (hreferencer : l.carrier.isReferencer = true) :
    l.carrier.body.contents.map (Prod.map id (DataObject.fill (leaves.flatMap Leaf.pieces))) =
      l.contents := by
  have hmem : ∀ c ∈ l.contents, c ∈ leaves.flatMap Leaf.contents := fun c hc =>
    List.mem_flatMap.2 ⟨l, hl, hc⟩
  cases l with
  | whole m =>
    refine (List.map_congr_left (fun c hc => ?_)).trans (List.map_id _)
    -- The object names chunks of its own; none of those that arrive are meant for it.
    have hreference : c.2.isReference = true := by
      have hm := Message.isChunkable_of_isReferencer hreferencer
      exact (Message.isReferencer_iff hm).1 hreferencer c hc
    simp only [DataObject.isReference, Bool.and_eq_true, List.isEmpty_iff] at hreference
    refine Prod.ext rfl (DataObject.fill_of_unused hreference.2 (fun piece hpiece => ?_))
    obtain ⟨k, hk, hpiece⟩ := List.mem_flatMap.1 hpiece
    have hblob := (h.valid k hk).blob_of_mem_pieces hpiece
    exact h.unused piece.blob (List.mem_filterMap.2 ⟨k, hk, hblob⟩) c (hmem c hc)
  | chunked m blob chunks =>
    obtain ⟨object, hobjects, hdata, hcarries⟩ := h.valid _ hl
    obtain ⟨_, hobject⟩ := Body.objects_eq_some_iff.1 hobjects
    have hblob? : (Leaf.chunked m blob chunks).blob? = some blob := rfl
    have hown := Leaf.filter_pieces h.valid h.distinct hl hblob?
    have hcontents : (m.referencer blob).body.contents =
        m.body.contents.map (Prod.map id (fun o => o.withContent (some blob) [])) :=
      Body.contents_mapObjects _ _
    rw [show Leaf.carrier (.chunked m blob chunks) = m.referencer blob from rfl, hcontents,
      List.map_map]
    refine (List.map_congr_left (fun c hc => ?_)).trans (List.map_id _)
    have hc' : c.2 = object := by
      have hmem' : c.2 ∈ m.body.contents.map (·.2) := List.mem_map_of_mem hc
      rw [← hobject] at hmem'
      exact List.mem_singleton.1 hmem'
    have hblob : c.2.blob = none := h.inline c (hmem c hc) (hc' ▸ hdata)
    refine Prod.ext rfl (DataObject.fill_of_own hblob (hc' ▸ hdata) hown ?_)
    rw [hc']
    exact hcarries.data_eq

/-- What is put together has the objects of all leaves, and the header of the first part. -/
theorem reassemble_eq {l : Leaf} (h : Mergeable base (l :: leaves))
    (hchunkable : base.isChunkable = true)
    (hreferencer : ∀ k ∈ l :: leaves, k.carrier.isReferencer = true) :
    ∃ body, Message.reassemble ((l :: leaves).flatMap Leaf.messages) =
        some ⟨l.carrier.header, body⟩ ∧
      body.cleared = base.cleared ∧ body.contents = (l :: leaves).flatMap Leaf.contents := by
  have hcarriers := Leaf.filter_isReferencer h.valid hreferencer
  have hpieces := Leaf.filterMap_chunk? hreferencer
  have hcleared : ∀ k ∈ l :: leaves, k.carrier.body.cleared = base.cleared := fun k hk =>
    k.cleared_carrier.trans (h.cleared_eq k hk)
  have hfirst := hcleared l List.mem_cons_self
  have hkind : l.carrier.body.isChunkable = true := by
    rw [Body.isChunkable, Body.kind_eq_of_cleared hfirst]
    exact hchunkable
  have hlater : ∀ m ∈ leaves.map Leaf.carrier, m.body.cleared = l.carrier.body.cleared := by
    intro m hm
    obtain ⟨k, hk, rfl⟩ := List.mem_map.1 hm
    exact (hcleared k (List.mem_cons_of_mem _ hk)).trans hfirst.symm
  have hjoin : l.carrier.body.contents ++
      (leaves.map Leaf.carrier).flatMap (·.body.contents) =
        (l :: leaves).flatMap (fun k => k.carrier.body.contents) := by
    rw [List.flatMap_map, List.flatMap_cons]
  have hbefore : (l.carrier.body.contents ++
      (leaves.map Leaf.carrier).flatMap (·.body.contents)).Pairwise Content.Before := by
    refine Content.pairwise_of_keys ?_ h.ascending
    rw [hjoin, List.map_flatMap, List.map_flatMap]
    exact List.flatMap_congr (fun k _ => k.keys_carrier.symm)
  obtain ⟨hrest, hcontents⟩ := Message.merged_spec hkind hlater hbefore
  let fill := DataObject.fill ((l :: leaves).flatMap Leaf.pieces)
  refine ⟨(Message.merged l.carrier.body (leaves.map Leaf.carrier)).mapObjects fill, ?_, ?_, ?_⟩
  · simp only [Message.reassemble, hcarriers, List.map_cons, hpieces]
    rfl
  · rw [Body.cleared_mapObjects, hrest, hfirst]
  · calc
      _ = ((l :: leaves).flatMap (fun k => k.carrier.body.contents)).map (Prod.map id fill) := by
        rw [Body.contents_mapObjects, hcontents, hjoin]
      _ = (l :: leaves).flatMap (fun k => k.carrier.body.contents.map (Prod.map id fill)) :=
        List.map_flatMap
      _ = (l :: leaves).flatMap Leaf.contents :=
        List.flatMap_congr (fun k hk => h.fill_carrier hk (hreferencer k hk))

end Mergeable

/-! ## The parts of one message -/

namespace Body

/-- The data objects, if the body has any whose content may travel in chunks. -/
def dataObjects (b : Body) : List DataObject := b.objects.getD []

theorem mem_dataObjects {b : Body} {c : Content} (hc : c ∈ b.contents) : c.2 ∈ b.dataObjects := by
  have hchunkable : b.isChunkable = true := by
    cases ho : b.kind.objects with
    | none => simp [contents, ho] at hc
    | some o => simp [isChunkable, ho]
  rw [dataObjects, objects_eq_some_iff.2 ⟨hchunkable, rfl⟩]
  exact List.mem_map_of_mem hc

/-- No data object has both content of its own and a blob identifier. -/
def Inline (b : Body) : Prop := ∀ o ∈ b.dataObjects, o.data ≠ [] → o.blob = none

instance (b : Body) : Decidable b.Inline :=
  inferInstanceAs (Decidable (∀ o ∈ b.dataObjects, o.data ≠ [] → o.blob = none))

/-- The blob identifiers taken from a supply are distinct, and the body has none of them. -/
structure FreshBlobs (b : Body) (s later : Uuid.Supply) : Prop where
  distinct : (s.taken later).Nodup
  unused : ∀ blob ∈ s.taken later, ∀ o ∈ b.dataObjects, o.blob ≠ some blob

end Body

namespace Message

variable {m : Message} {leaves : List Leaf}

theorem Outcome.mergeable {fresh : Fresh} {result : List Part × Fresh}
    (h : Outcome m fresh result leaves) (hinline : m.body.Inline)
    (hblobs : m.body.FreshBlobs fresh.blobs result.2.blobs) : Mergeable m.body leaves := by
  have htaken := h.draws.taken_eq
  have hcontents : leaves.flatMap Leaf.contents = m.body.contents := h.spread.flatMap_contents
  refine ⟨h.spread.valid, h.spread.cleared_eq, ?_, ?_, ?_, ?_⟩
  · rw [hcontents]
    exact m.body.pairwise_contents
  · rw [← htaken]
    exact hblobs.distinct
  · rw [hcontents, ← htaken]
    exact fun blob hblob c hc => hblobs.unused blob hblob c.2 (Body.mem_dataObjects hc)
  · rw [hcontents]
    exact fun c hc => hinline c.2 (Body.mem_dataObjects hc)

namespace Spread

/-- The first part of a leaf is of the kind of the message. -/
theorem kind_carrier (h : Spread m leaves) {l : Leaf} (hl : l ∈ leaves) :
    l.carrier.body.kind = m.body.kind :=
  Body.kind_eq_of_cleared (l.cleared_carrier.trans (h.cleared_eq l hl))

/-- If there is nothing but chunks and referencers, the carriers are the referencers. -/
theorem isReferencer_carrier (h : Spread m leaves) (hchunkable : m.isChunkable = true)
    (honly : ∀ p ∈ leaves.flatMap Leaf.messages, p.isChunk = true ∨ p.isReferencer = true) :
    ∀ l ∈ leaves, l.carrier.isReferencer = true := by
  intro l hl
  have hnot : l.carrier.isChunk = false := by
    refine Body.isChunk_of_isChunkable ?_
    rw [Body.isChunkable, h.kind_carrier hl]
    exact hchunkable
  rcases honly _ (List.mem_flatMap.2 ⟨l, hl, List.mem_cons_self⟩) with hchunk | hreferencer
  · rw [hnot] at hchunk
    cases hchunk
  · exact hreferencer

/-- Only messages with data objects are sent in chunks. -/
theorem isChunkable (h : Spread m leaves) (hsplit : leaves ≠ [.whole m])
    (hchunk : ∃ p ∈ leaves.flatMap Leaf.messages, p.isChunk = true) : m.isChunkable = true := by
  obtain ⟨p, hp, hchunk⟩ := hchunk
  obtain ⟨l, hl, hp⟩ := List.mem_flatMap.1 hp
  have hkind := Body.kind_eq_of_cleared (h.cleared_eq l hl)
  rcases List.mem_cons.1 hp with rfl | hp
  · -- The first part of a leaf is of the kind of the message, which has entries.
    have hentries := Body.collection_of_entries (h.entries_ne_nil hsplit l hl)
    rw [isChunk, Body.isChunk, h.kind_carrier hl, ← hkind,
      Kind.isChunk_of_collection hentries] at hchunk
    cases hchunk
  · cases l with
    | whole => cases hp
    | chunked origin blob chunks =>
      obtain ⟨object, hobjects, _⟩ := h.valid _ hl
      have horigin := (Body.objects_eq_some_iff.1 hobjects).1
      rw [Message.isChunkable, Body.isChunkable, ← hkind]
      exact horigin

/-- A message that is sent as chunks and referencers is put together again. -/
theorem reassemble_eq (h : Spread m leaves) (hmergeable : Mergeable m.body leaves)
    (hsplit : leaves ≠ [.whole m]) (hchunkable : m.isChunkable = true)
    (honly : ∀ p ∈ leaves.flatMap Leaf.messages, p.isChunk = true ∨ p.isReferencer = true) :
    reassemble (leaves.flatMap Leaf.messages) = some ⟨m.header.opening, m.body⟩ := by
  have hreferencer := h.isReferencer_carrier hchunkable honly
  obtain ⟨l, rest, rfl, hheader⟩ := h.opens hsplit
  obtain ⟨body, hbody, hcleared, hcontents⟩ := hmergeable.reassemble_eq hchunkable hreferencer
  have hall : body.contents = m.body.contents := hcontents.trans h.flatMap_contents
  rw [hbody, hheader, Body.ext_contents hchunkable hcleared.symm hall.symm]

end Spread

/-- A message whose objects travel in chunks arrives: the frames are read back as the parts, and the
parts are put together to the same body, under the header of the first part. -/
theorem reassemble_decode_frames {m : Message} {limit : Option Nat} {fresh : Fresh}
    (hnamed : m.Named) (hchunkable : m.isChunkable = true) (hinline : m.body.Inline)
    (hsent : Sent (m.parts limit fresh).1)
    (hchunk : ∃ p ∈ (m.parts limit fresh).1, p.message.isChunk = true)
    (honly : ∀ p ∈ (m.parts limit fresh).1,
      p.message.isChunk = true ∨ p.message.isReferencer = true)
    (hlimit : ∀ p ∈ (m.parts limit fresh).1, p.message.body.WithinLimit)
    (hblobs : m.body.FreshBlobs fresh.blobs (m.parts limit fresh).2.blobs) :
    let sent := (m.parts limit fresh).1.map Part.message
    (m.frames limit fresh).1.mapM decode = .ok (sent.map some) ∧
      reassemble sent =
        some ⟨{ m.header with flags := (m.header.flags.union .multipart).remove .final }, m.body⟩ := by
  obtain ⟨leaves, houtcome⟩ := parts_spread hsent
  have hspread := houtcome.spread
  have honly : ∀ p ∈ leaves.flatMap Leaf.messages, p.isChunk = true ∨ p.isReferencer = true :=
    houtcome.forall_message.1 honly
  have hlimit : ∀ p ∈ leaves.flatMap Leaf.messages, p.body.WithinLimit :=
    houtcome.forall_message.1 hlimit
  have hchunk : ∃ p ∈ leaves.flatMap Leaf.messages, p.isChunk = true :=
    houtcome.exists_message.1 hchunk
  have hsplit : leaves ≠ [.whole m] := by
    -- The message itself is no chunk, so it was not sent as it is.
    rintro rfl
    obtain ⟨p, hp, hchunk⟩ := hchunk
    rw [Leaf.flatMap_messages_whole] at hp
    rw [List.mem_singleton.1 hp, isChunk, Body.isChunk_of_isChunkable hchunkable] at hchunk
    cases hchunk
  simp only [houtcome.messages_eq, houtcome.frames_eq]
  constructor
  · exact mapM_decode (fun p hp => (hspread.isPartOf p hp).named hnamed) hlimit
  · exact hspread.reassemble_eq (houtcome.mergeable hinline hblobs) hsplit hchunkable honly

/-- An object without a name that holds some content. -/
def holding (data : Bytes) : DataObject :=
  DataObject.withContent Schema.dataObject.default none data

/-- A body that stores objects under the given keys, each with its content. -/
def storing (objects : List (String × Bytes)) : Body :=
  ⟨.putDataObjects, KeyMap.ofList (objects.map (fun o => (o.1, holding o.2))), false, ()⟩

/-- A final request with a body. -/
def request (body : Body) : Message := ((ofBody body).withId 4).addFlags .final

/-- A sender whose blob identifiers differ in their last byte. -/
def countingFresh : Fresh :=
  ⟨⟨6⟩, ⟨fun n => ⟨List.replicate 15 0 ++ [UInt8.ofNat n], by simp⟩, 0⟩⟩

/-- A request with two objects that are each too large for a frame of 80 bytes. -/
def twoLarge : Message :=
  request (storing [("a", List.replicate 60 7), ("b", List.replicate 70 8)])

theorem parts_twoLarge :
    twoLarge.parts (some 80) countingFresh =
      let first := chunkedParts 80 (twoLarge.firstHalf (storing [("a", List.replicate 60 7)]))
        (holding (List.replicate 60 7)) countingFresh.drawId.2
      let second := chunkedParts 80
        (twoLarge.secondHalf (storing [("b", List.replicate 70 8)]) countingFresh.drawId.1)
        (holding (List.replicate 70 8)) first.2
      (first.1 ++ second.1, second.2) := by
  have hsize : twoLarge.body.cuttableSize = some (0 + 2) := by decide +kernel
  have hsplit : twoLarge.body.split 1 = some (storing [("a", List.replicate 60 7)],
      storing [("b", List.replicate 70 8)]) := by decide +kernel
  rw [parts_of_cut (by decide +kernel) (by decide +kernel) hsize hsplit]
  simp only
  rw [parts_of_single (by decide +kernel) (by decide +kernel) (by decide +kernel) rfl,
    parts_of_single (by decide +kernel) (by decide +kernel) (by decide +kernel) rfl]

/-- Two objects that travel in chunks, one after the other. -/
theorem reassemble_decode_frames_twoLarge :
    (twoLarge.frames (some 80) countingFresh).1.length = 8 ∧
      (let sent := (twoLarge.parts (some 80) countingFresh).1.map Part.message
      (twoLarge.frames (some 80) countingFresh).1.mapM decode = .ok (sent.map some) ∧
        reassemble sent = some ⟨{ twoLarge.header with
          flags := (twoLarge.header.flags.union .multipart).remove .final }, twoLarge.body⟩) := by
  have hparts := parts_twoLarge
  constructor
  · rw [frames, hparts]
    decide +kernel
  · refine reassemble_decode_frames ⟨rfl, rfl⟩ rfl ?_ ?_ ?_ ?_ ?_ ?_
    · decide +kernel
    · rw [hparts]
      decide +kernel
    · rw [hparts]
      decide +kernel
    · rw [hparts]
      decide +kernel
    · rw [hparts]
      decide +kernel
    · rw [hparts]
      exact ⟨by decide +kernel, by decide +kernel⟩

end Message

end Etp
