import Etp.Proofs.List
import Etp.Proofs.Message.Accounting
import Etp.Proofs.Message.Margin
import Mathlib.Algebra.Order.Floor.Div

/-!
# The pieces of a content

The content of a data object that is sent in chunks is cut into pieces of one size, of which the last
ones may be shorter or empty: their number is computed from the size of the whole body.  `Slices` says
how the content is spread over the chunks, and `chunks_sliced` that a message with a single object is
sent that way, whatever its identifiers are and however small the limit is above the margin.

The numbers are unbounded here.  `chunkAt?` computes a chunk with words of a machine, and fails where a
sum or a product is no word or a position is outside the content; `mapM_chunkAt?` says that it never does.
-/

namespace Etp

/-! ## Kinds whose objects may travel in chunks -/

namespace Kind

variable {k : Kind}

theorem isPlural_of_objects (h : k.objects.isSome = true) : k.isPlural = true := by
  cases k with
  | putDataObjects => decide
  | getDataObjectsResponse => decide
  | findDataObjectsResponse => decide
  | _ => cases h

theorem exists_chunk_of_objects (h : k.objects.isSome = true) (c : Chunk) :
    ∃ b, c.toBody? k.protocol.id = some b := by
  cases k with
  | putDataObjects => exact ⟨_, rfl⟩
  | getDataObjectsResponse => exact ⟨_, rfl⟩
  | findDataObjectsResponse => exact ⟨_, rfl⟩
  | _ => cases h

end Kind

/-- Every chunk has a body in a protocol that exchanges data objects. -/
theorem Chunk.exists_bodies {b : Body} (h : b.isChunkable = true) (chunks : List Chunk) :
    ∃ bodies, chunks.mapM (·.toBody? b.protocolId) = some bodies ∧
      bodies.map Body.chunk? = chunks.map some := by
  choose body hbody using Kind.exists_chunk_of_objects h
  refine ⟨chunks.map body, mapM_eq_some_map (fun c _ => hbody c), ?_⟩
  rw [List.map_map]
  apply List.map_congr_left
  intro c _
  exact Chunk.chunk?_of_toBody? (hbody c)

namespace Message

/-! ## Pieces -/

/-- How a content is spread over chunks: in pieces of at most `size` bytes that follow each other, under
one blob identifier, of which only the last one is marked as the last one. -/
structure Slices (blob : Uuid) (size count : Nat) (data : Bytes) (chunks : List Chunk) : Prop where
  length_eq : chunks.length = count
  blob_eq : ∀ c ∈ chunks, c.blob = blob
  data_eq : chunks.flatMap Chunk.data = data
  length_le : ∀ c ∈ chunks, c.data.length ≤ size
  isLast_eq : chunks.map Chunk.isLast = List.replicate (count - 1) false ++ [true]

theorem isLast_chunksOf (blob : Uuid) (size : Nat) {count : Nat} (hcount : 0 < count) (data : Bytes) :
    (chunksOf blob size count data).map Chunk.isLast = List.replicate (count - 1) false ++ [true] := by
  obtain ⟨n, rfl⟩ : ∃ n, count = n + 1 := ⟨count - 1, by omega⟩
  have hbefore : (List.range n).map (fun i => i + 1 == n + 1) = List.replicate n false := by
    refine List.eq_replicate_iff.2 ⟨by simp, ?_⟩
    intro mark hmark
    obtain ⟨i, hi, rfl⟩ := List.mem_map.1 hmark
    have hi := List.mem_range.1 hi
    rw [beq_eq_false_iff_ne]
    omega
  rw [chunksOf, List.map_map, List.range_succ, List.map_append, Nat.add_sub_cancel]
  exact congrArg₂ (· ++ ·) hbefore (by simp)

theorem slices_chunksOf (blob : Uuid) {size count : Nat} {data : Bytes} (hcount : 0 < count)
    (hreach : data.length ≤ count * size) :
    Slices blob size count data (chunksOf blob size count data) where
  length_eq := by simp [chunksOf]
  blob_eq := fun _ hc => blob_of_mem_chunksOf hc
  data_eq := data_chunksOf blob hreach
  length_le := fun _ hc => length_data_of_mem_chunksOf hc
  isLast_eq := isLast_chunksOf blob size hcount data

/-! ## Pieces as a machine computes them -/

/-- A number, if it is a word of a machine with `word` different words. -/
def checked (word n : Nat) : Option Nat := if n < word then some n else none

theorem checked_of_lt {word n : Nat} (h : n < word) : checked word n = some n := if_pos h

/-- The bytes between two positions, if these are in order and not beyond the end. -/
def slice? (data : Bytes) (start stop : Nat) : Option Bytes :=
  if start ≤ stop ∧ stop ≤ data.length then some ((data.drop start).take (stop - start)) else none

/-- The chunk with a number, computed with words of a machine. -/
def chunkAt? (word : Nat) (blob : Uuid) (size count : Nat) (data : Bytes) (i : Nat) :
    Option Chunk := do
  let offset ← checked word (i * size)
  let start := min offset data.length
  let reach ← checked word (start + size)
  let stop := min reach data.length
  let piece ← slice? data start stop
  let number ← checked word (i + 1)
  some ⟨blob, piece, number == count⟩

theorem slice?_piece (data : Bytes) (offset size : Nat) :
    slice? data (min offset data.length) (min (min offset data.length + size) data.length) =
      some ((data.drop offset).take size) := by
  rw [slice?, if_pos (by omega)]
  by_cases hoffset : offset ≤ data.length
  · rw [Nat.min_eq_left hoffset, Option.some.injEq, List.take_eq_take_iff, List.length_drop]
    omega
  · have hend : data.length ≤ offset := by omega
    rw [Nat.min_eq_right hend, List.drop_of_length_le hend, List.drop_length, List.take_nil,
      List.take_nil]

/-- No computation of a chunk overflows, and no position is outside the content. -/
theorem mapM_chunkAt? {word size count : Nat} (blob : Uuid) (data : Bytes) (hcount : count < word)
    (hoffset : ∀ i < count, i * size < word) (hreach : data.length + size < word) :
    (List.range count).mapM (chunkAt? word blob size count data) =
      some (chunksOf blob size count data) := by
  have heach : ∀ i ∈ List.range count, chunkAt? word blob size count data i =
      some ⟨blob, (data.drop (i * size)).take size, i + 1 == count⟩ := by
    intro i hi
    have hi := List.mem_range.1 hi
    have hstart : min (i * size) data.length + size < word := by omega
    simp only [chunkAt?, checked_of_lt (hoffset i hi), checked_of_lt hstart, slice?_piece,
      checked_of_lt (Nat.lt_of_le_of_lt hi hcount), Option.bind_eq_bind, Option.bind_some]
  exact mapM_eq_some_map heach

/-- A piece begins within what is cut into pieces. -/
theorem mul_lt_of_lt_ceilDiv {length size i : Nat} (hsize : 0 < size) (hi : i < length ⌈/⌉ size) :
    i * size < length := by
  by_contra hbeyond
  have hle : length ⌈/⌉ size ≤ i := by
    rw [ceilDiv_le_iff_le_mul hsize, Nat.mul_comm]
    omega
  omega

theorem ceilDiv_le_self (length : Nat) {size : Nat} (hsize : 0 < size) :
    length ⌈/⌉ size ≤ length :=
  (ceilDiv_le_iff_le_mul hsize).2 (Nat.le_mul_of_pos_left length hsize)

theorem ceilDiv_pos {length size : Nat} (hlength : 0 < length) (hsize : 0 < size) :
    0 < length ⌈/⌉ size := by
  by_contra hnone
  have hle : length ≤ size * 0 := (ceilDiv_le_iff_le_mul hsize).1 (by omega)
  omega

/-! ## The chunks of a message -/

/-- A message with a single object is sent as a referencer, or a report in its place, and chunks. -/
theorem parts_of_object {m : Message} {max : Nat} {object : DataObject} {fresh : Fresh}
    {bodies : List Body} (hobjects : m.body.objects = some [object]) (hdata : object.data ≠ [])
    (hmargin : chunkMargin < max) (hlarge : max < m.encode.length)
    (hbodies : (chunksOf fresh.drawBlob.1 (max - chunkMargin)
      (m.body.write.length ⌈/⌉ (max - chunkMargin)) object.data).mapM
        (·.toBody? m.header.protocol) = some bodies) :
    m.parts (some max) fresh =
      let first := onePart (some max) (m.referencer fresh.drawBlob.1) fresh.drawBlob.2
      let others := chunkParts (some max) m.exchangeId m.isFinal bodies first.2
      (first.1 ++ others.1, others.2) := by
  have hfits : m.fits (some max) = false := by
    simp only [fits, decide_eq_false_iff_not]
    omega
  have hplural : m.isPlural = true :=
    Kind.isPlural_of_objects (Body.objects_eq_some_iff.1 hobjects).1
  have hroom : ¬ ((decide (max - chunkMargin = 0) || object.data.isEmpty) = true) := by
    simp only [Bool.or_eq_true, decide_eq_true_eq, List.isEmpty_iff, not_or]
    exact ⟨by omega, hdata⟩
  rw [parts_of_single hfits hplural (Body.cuttableSize_of_objects hobjects) hobjects, chunkedParts]
  simp only
  rw [Nat.ceilDiv_eq_add_pred_div] at hbodies
  rw [if_neg hroom, hbodies]

/-- A message with a single data object whose frame is too large is sent as a referencer, or a report
that it is too large, and as many chunks as the size of the body makes necessary.  They hold the content,
piece by piece, and none of them is refused.  On a machine in whose words twice the size of the frame can
be counted, no computation of a chunk fails. -/
theorem chunks_sliced {m : Message} {max : Nat} {object : DataObject} (fresh : Fresh)
    (hobjects : m.body.objects = some [object]) (hprotocol : m.header.protocol = m.body.protocolId)
    (hdata : object.data ≠ []) (hmargin : chunkMargin < max) (hlarge : max < m.encode.length) :
    let blob := fresh.drawBlob.1
    let size := max - chunkMargin
    let count := m.body.write.length ⌈/⌉ size
    ∃ (chunks : List Message) (contents : List Chunk),
      (m.parts (some max) fresh).1 =
        (onePart (some max) (m.referencer blob) fresh.drawBlob.2).1 ++ chunks.map asPart ∧
      chunks.map (·.body.chunk?) = contents.map some ∧
      Slices blob size count object.data contents ∧
      (∀ c ∈ chunks, c.encode.length ≤ max) ∧
      ∀ word, 2 * m.encode.length ≤ word →
        (List.range count).mapM (chunkAt? word blob size count object.data) = some contents := by
  intro blob size count
  have hchunkable := (Body.objects_eq_some_iff.1 hobjects).1
  let contents := chunksOf blob size count object.data
  obtain ⟨bodies, hbodies, hchunks⟩ := Chunk.exists_bodies hchunkable contents
  rw [← hprotocol] at hbodies
  have hparts := parts_of_object hobjects hdata hmargin hlarge hbodies
  have hsize : 0 < size := Nat.sub_pos_of_lt hmargin
  have hlength : object.data.length ≤ m.body.write.length :=
    Body.length_data_le hobjects (List.mem_singleton.2 rfl)
  have hpos : 0 < m.body.write.length :=
    Nat.lt_of_lt_of_le (List.length_pos_of_ne_nil hdata) hlength
  have hreach : object.data.length ≤ count * size :=
    Nat.le_trans hlength (le_ceil_mul m.body.write.length hsize)
  have hsent : Sent (chunkParts (some max) m.exchangeId m.isFinal bodies
      (onePart (some max) (m.referencer blob) fresh.drawBlob.2).2).1 := by
    refine chunkParts_fit hbodies ?_
    intro c hc
    have hpiece : c.data.length ≤ size := length_data_of_mem_chunksOf hc
    omega
  obtain ⟨chunks, hframed, hmessages, -⟩ := chunkParts_sent hsent
  have hemitted : (m.parts (some max) fresh).1 =
      (onePart (some max) (m.referencer blob) fresh.drawBlob.2).1 ++ chunks.map asPart := by
    rw [hparts, ← hmessages]
  refine ⟨chunks, contents, hemitted, ?_, ?_, ?_, ?_⟩
  · rw [← hchunks, ← hframed.body_eq, List.map_map]
    rfl
  · exact slices_chunksOf blob (ceilDiv_pos hpos hsize) hreach
  · intro c hc
    have hmem : c.asPart ∈ (m.parts (some max) fresh).1 := by
      rw [hemitted]
      exact List.mem_append_right _ (List.mem_map_of_mem hc)
    have hfits : c.fits (some max) = true := (parts_accounted (some max) m fresh).bounded _ hmem
    exact of_decide_eq_true hfits
  · intro word hword
    have hframe : m.body.write.length ≤ m.encode.length := by
      rw [encode, List.length_append]
      exact Nat.le_add_left _ _
    have hcount := ceilDiv_le_self m.body.write.length hsize
    refine mapM_chunkAt? blob object.data ?_ ?_ ?_
    · omega
    · intro i hi
      have hoffset := mul_lt_of_lt_ceilDiv hsize hi
      omega
    · omega

/-- A request with one object of 60 bytes, whose identifiers are as long as they can be. -/
def farObject : Message :=
  ((request (storing [("a", List.replicate 60 7)])).withId Int64.maxValue).withCorrelation
    Int64.minValue

/-- The body has 77 bytes, so there are four chunks of at most 20 bytes, and the last one is empty. -/
theorem chunks_sliced_farObject :
    farObject.body.write.length = 77 ∧
      ∃ (chunks : List Message) (contents : List Chunk),
        (farObject.parts (some 70) countingFresh).1 =
          (farObject.referencer countingFresh.drawBlob.1).asPart :: chunks.map asPart ∧
        chunks.map (·.body.chunk?) = contents.map some ∧
        contents.map (fun c => (c.data.length, c.isLast)) =
          [(20, false), (20, false), (20, false), (0, true)] ∧
        ∀ c ∈ chunks, c.encode.length ≤ 70 := by
  have hlarge : 70 < farObject.encode.length := by decide +kernel
  have hcount : farObject.body.write.length ⌈/⌉ (70 - chunkMargin) = 4 := by decide +kernel
  obtain ⟨chunks, contents, hparts, hchunks, -, hfits, hcomputed⟩ :=
    @chunks_sliced farObject 70 (holding (List.replicate 60 7)) countingFresh rfl rfl
      (by decide) (by decide) hlarge
  have hcomputed := hcomputed (2 ^ 64) (by decide +kernel)
  have hcontents : contents = chunksOf countingFresh.drawBlob.1 20 4 (List.replicate 60 7) := by
    rw [hcount] at hcomputed
    refine Option.some.inj (hcomputed.symm.trans ?_)
    decide +kernel
  have hcarrier : (onePart (some 70) (farObject.referencer countingFresh.drawBlob.1)
      countingFresh.drawBlob.2).1 = [(farObject.referencer countingFresh.drawBlob.1).asPart] := by
    decide +kernel
  rw [hcarrier] at hparts
  refine ⟨by decide +kernel, chunks, contents, hparts, hchunks, ?_, hfits⟩
  rw [hcontents]
  decide +kernel

end Message

end Etp
