import Etp.Proofs.Message.Reassembly
import Mathlib.Data.List.Forall2

/-!
# The order in which parts arrive

Referencers and the chunks of several objects may arrive in any mixture.  What a receiver makes of them
depends only on the order of the referencers among themselves, and of the chunks under one blob identifier
among themselves (`SameStreams`): an object takes its content from the chunks under its own identifier, and
everything else comes from the referencers.

The main statement is `reassemble_interleaved`.
-/

namespace Etp

/-! ## Objects -/

namespace DataObject

/-- The content of the chunks that are meant for the object. -/
def content (o : DataObject) (chunks : List Chunk) : Bytes :=
  (chunks.filter (fun c => o.blob == some c.blob)).flatMap Chunk.data

/-- What becomes of an object: it has its own content and that of its chunks.  With content it needs no
blob identifier any more, and without content it keeps the one it has. -/
structure FilledFrom (chunks : List Chunk) (before after : DataObject) : Prop where
  data_eq : after.data = before.data ++ before.content chunks
  blob_of_data : after.data ≠ [] → after.blob = none
  blob_of_no_data : after.data = [] → after.blob = before.blob
  rest_eq : after = before.withContent after.blob after.data

theorem fill_filledFrom (chunks : List Chunk) (o : DataObject) : FilledFrom chunks o (o.fill chunks) := by
  have hblob : (o.fill chunks).blob = if (o.fill chunks).data.isEmpty then o.blob else none := rfl
  refine ⟨rfl, ?_, ?_, rfl⟩
  · intro hdata
    rw [hblob, List.isEmpty_eq_false_iff.2 hdata]
    rfl
  · intro hnone
    rw [hblob, hnone]
    rfl

/-- The chunks of other objects do not matter to an object. -/
theorem fill_congr {chunks chunks' : List Chunk}
    (h : ∀ blob, chunks'.filter (fun c => c.blob == blob) = chunks.filter (fun c => c.blob == blob))
    (o : DataObject) : o.fill chunks' = o.fill chunks := by
  have hown : chunks'.filter (fun c => o.blob == some c.blob) =
      chunks.filter (fun c => o.blob == some c.blob) := by
    cases o.blob with
    | none => simp
    | some blob =>
      have hmeant : (fun c : Chunk => some blob == some c.blob) = fun c => c.blob == blob := by
        funext c
        exact Bool.beq_comm
      rw [hmeant]
      exact h blob
  simp only [fill, hown]

end DataObject

/-- All objects of a body are filled, each in its place. -/
theorem Body.contents_filled (chunks : List Chunk) (b : Body) :
    List.Forall₂ (fun before after => after.1 = before.1 ∧ before.2.FilledFrom chunks after.2)
      b.contents (b.mapObjects (DataObject.fill chunks)).contents := by
  rw [contents_mapObjects]
  apply List.forall₂_map_right_iff.2
  apply List.forall₂_same.2
  intro c _
  exact ⟨rfl, c.2.fill_filledFrom chunks⟩

/-! ## Parts -/

namespace Message

/-- Whether the message is a chunk under a blob identifier. -/
def isChunkOf (blob : Uuid) (p : Message) : Bool := p.body.chunk?.any (fun c => c.blob == blob)

/-- The pieces of content in the chunks among some parts. -/
def piecesOf (parts : List Message) : List Chunk := parts.filterMap (·.body.chunk?)

theorem isChunkOf_iff {blob : Uuid} {p : Message} :
    isChunkOf blob p = true ↔ ∃ c, p.body.chunk? = some c ∧ c.blob = blob := by
  simp [isChunkOf, Option.any_eq_true]

theorem filter_piecesOf (parts : List Message) (blob : Uuid) :
    (piecesOf parts).filter (fun c => c.blob == blob) = piecesOf (parts.filter (isChunkOf blob)) := by
  unfold piecesOf
  rw [List.filter_filterMap, List.filterMap_filter]
  apply List.filterMap_congr
  intro p _
  unfold isChunkOf
  cases p.body.chunk? with
  | none => rfl
  | some c => exact Option.filter_some

/-- Two lists hold the same referencers in the same order, and under each blob identifier the same chunks
in the same order.  How these are mixed, and what else there is, is left open. -/
structure SameStreams (parts parts' : List Message) : Prop where
  referencers_eq : parts'.filter isReferencer = parts.filter isReferencer
  chunks_eq : ∀ blob, parts'.filter (isChunkOf blob) = parts.filter (isChunkOf blob)

/-- The blob identifiers of the chunks among some parts. -/
def blobsOf (parts : List Message) : List Uuid := (piecesOf parts).map Chunk.blob

theorem filter_isChunkOf_of_not_mem {parts : List Message} {blob : Uuid} (h : blob ∉ blobsOf parts) :
    parts.filter (isChunkOf blob) = [] := by
  apply List.filter_eq_nil_iff.2
  intro p hp hchunk
  obtain ⟨c, hc, hblob⟩ := isChunkOf_iff.1 hchunk
  exact h (List.mem_map.2 ⟨c, List.mem_filterMap.2 ⟨p, hp, hc⟩, hblob⟩)

/-- Only the blob identifiers that occur have to be compared. -/
theorem sameStreams_iff {parts parts' : List Message} :
    SameStreams parts parts' ↔
      parts'.filter isReferencer = parts.filter isReferencer ∧
        ∀ blob ∈ blobsOf parts ++ blobsOf parts',
          parts'.filter (isChunkOf blob) = parts.filter (isChunkOf blob) := by
  constructor
  · exact fun h => ⟨h.referencers_eq, fun blob _ => h.chunks_eq blob⟩
  · rintro ⟨hreferencers, hchunks⟩
    refine ⟨hreferencers, fun blob => ?_⟩
    by_cases hblob : blob ∈ blobsOf parts ++ blobsOf parts'
    · exact hchunks blob hblob
    · rw [List.mem_append, not_or] at hblob
      rw [filter_isChunkOf_of_not_mem hblob.1, filter_isChunkOf_of_not_mem hblob.2]

instance (parts parts' : List Message) : Decidable (SameStreams parts parts') :=
  decidable_of_iff _ sameStreams_iff.symm

/-- Parts in another mixture make up the same message. -/
theorem SameStreams.reassemble_eq {parts parts' : List Message} (h : SameStreams parts parts') :
    reassemble parts' = reassemble parts := by
  have hpieces : ∀ blob, (piecesOf parts').filter (fun c => c.blob == blob) =
      (piecesOf parts).filter (fun c => c.blob == blob) := by
    intro blob
    rw [filter_piecesOf, filter_piecesOf, h.chunks_eq blob]
  have hfill : DataObject.fill (piecesOf parts') = DataObject.fill (piecesOf parts) :=
    funext (DataObject.fill_congr hpieces)
  unfold piecesOf at hfill
  simp only [reassemble, h.referencers_eq, hfill]

/-- Parts make up the same message as long as the referencers, and the chunks under each blob identifier,
come in the same order.  They make up none exactly if there is no referencer.  Otherwise the message has the
header of the first referencer, and every object of the merged referencers has its own content and that of
its chunks; with content it has no blob identifier, and without content it keeps the one it has. -/
theorem reassemble_interleaved {parts parts' : List Message} (h : SameStreams parts parts') :
    reassemble parts' = reassemble parts ∧
      (reassemble parts = none ↔ ∀ p ∈ parts, p.isReferencer = false) ∧
      ∀ first later, parts.filter isReferencer = first :: later →
        ∃ body, reassemble parts = some ⟨first.header, body⟩ ∧
          body.cleared = (merged first.body later).cleared ∧
          List.Forall₂ (fun before after =>
              after.1 = before.1 ∧ before.2.FilledFrom (piecesOf parts) after.2)
            (merged first.body later).contents body.contents := by
  refine ⟨h.reassemble_eq, reassemble_eq_none_iff, ?_⟩
  intro first later hreferencers
  refine ⟨(merged first.body later).mapObjects (DataObject.fill (piecesOf parts)), ?_, ?_, ?_⟩
  · simp only [reassemble, hreferencers]
    rfl
  · exact Body.cleared_mapObjects _ _
  · exact Body.contents_filled (piecesOf parts) _

/-- An object whose content travels under a blob identifier. -/
def awaiting (blob : Uuid) : DataObject := DataObject.withContent Schema.dataObject.default (some blob) []

/-- A request that names the blobs of some objects. -/
def naming (objects : List (String × Uuid)) : Message :=
  request ⟨.putDataObjects, KeyMap.ofList (objects.map (fun o => (o.1, awaiting o.2))), false, ()⟩

/-- A piece of the content of a blob. -/
def piece (blob : Uuid) (data : Bytes) : Message := request ⟨.storeChunk, blob, data, false, ()⟩

/-- Two referencers that share a key and a blob, one of another kind, and three chunks; and the same in
another order, with a message that is no part. -/
def mixtures : List Message × List Message :=
  let blob := countingFresh.blobs.nth
  let first := naming [("a", blob 0), ("b", blob 1)]
  let second := naming [("b", blob 0), ("c", blob 2)]
  let other := request ⟨.getDataObjectsResponse, KeyMap.ofList [("d", awaiting (blob 0))], ()⟩
  ([first, piece (blob 0) [1], other, piece (blob 1) [2], second, piece (blob 0) [3]],
    [piece (blob 1) [2], piece (blob 0) [1], first, request ⟨.ping, Shape.default _⟩, other,
      piece (blob 0) [3], second])

/-- Both mixtures give three objects: two have the content of one blob, and one still waits for its own. -/
theorem reassemble_interleaved_mixtures :
    SameStreams mixtures.1 mixtures.2 ∧ reassemble mixtures.2 = reassemble mixtures.1 ∧
      ∃ first later body, mixtures.1.filter isReferencer = first :: later ∧
        reassemble mixtures.1 = some ⟨first.header, body⟩ ∧
        body.contents.map (fun c => (c.1, c.2.blob, c.2.data)) =
          [(some "a", none, [1, 3]), (some "b", none, [1, 3]),
            (some "c", some (countingFresh.blobs.nth 2), [])] := by
  have hsame : SameStreams mixtures.1 mixtures.2 := by decide +kernel
  obtain ⟨heq, -, hmerged⟩ := reassemble_interleaved hsame
  have hreferencers : mixtures.1.filter isReferencer =
      mixtures.1[0] :: [mixtures.1[2], mixtures.1[4]] := by decide +kernel
  obtain ⟨body, hbody, -, -⟩ := hmerged _ _ hreferencers
  have hcontents : (reassemble mixtures.1).map
      (fun m => m.body.contents.map (fun c => (c.1, c.2.blob, c.2.data))) =
        some [(some "a", none, [1, 3]), (some "b", none, [1, 3]),
          (some "c", some (countingFresh.blobs.nth 2), [])] := by decide +kernel
  rw [hbody] at hcontents
  exact ⟨hsame, heq, _, _, body, hreferencers, hbody, Option.some.inj hcontents⟩

end Message

end Etp
