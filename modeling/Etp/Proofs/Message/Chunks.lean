import Etp.Message.Parts
import Etp.Proofs.Body.Entries
import Etp.Proofs.Message.Flags
import Etp.Proofs.Message.ReadBack

/-!
# The chunks of a data object

The content of a data object that is too large for one frame is cut into pieces.  Their number is
computed from the size of the whole body, which is at least the size of the content, so nothing of the
content is left over.  `Carries` says what the chunks of an object are to a receiver, and
`chunkedParts_sent` that these chunks, behind a referencer, are what the sender makes of a message with
a single object, unless it refuses.
-/

namespace Etp

open Wire

/-! ## The written form of a content is not shorter than the content -/

theorem length_le_writeList {α : Type} (write : α → Bytes) {as : List α} {a : α} (ha : a ∈ as) :
    (write a).length ≤ (writeList write as).length := by
  obtain ⟨before, after, rfl⟩ := List.append_of_mem ha
  simp only [writeList, List.flatMap_append, List.flatMap_cons, List.length_append]
  omega

theorem Field.length_write_le {s t : Shape} (place : Field s t) (v : s.Val) :
    (t.write (place.get v)).length ≤ (s.write v).length := by
  induction place with
  | here =>
    simp only [Shape.write, Field.get, List.length_append]
    omega
  | there place ih =>
    have hrest := ih v.2
    simp only [Shape.write, Field.get, List.length_append]
    omega

theorem DataObject.length_data_le (o : DataObject) :
    o.data.length ≤ (Schema.dataObject.write o).length := by
  have hfield := Field.length_write_le
    (Field.there (.there (.there .here)) : Field Schema.dataObject .bytes) o
  have hbytes : o.data.length ≤ (writeBytes o.data).length := by
    simp [writeBytes]
  exact Nat.le_trans hbytes hfield

theorem Objects.length_write_le {s : Shape} (o : Objects s) (v : s.Val) {object : DataObject}
    (hobject : object ∈ o.toList v) :
    (Schema.dataObject.write object).length ≤ (s.write v).length := by
  cases o with
  | listed place =>
    exact Nat.le_trans (length_le_writeList Schema.dataObject.write hobject)
      (place.length_write_le v)
  | keyed place =>
    obtain ⟨e, he, rfl⟩ := List.mem_map.1 hobject
    have hentry := length_le_writeList
      (fun e : String × DataObject => writeText e.1 ++ Schema.dataObject.write e.2) he
    rw [List.length_append] at hentry
    exact Nat.le_trans (Nat.le_of_add_left_le hentry) (place.length_write_le v)

theorem Body.length_data_le {b : Body} {objects : List DataObject} {object : DataObject}
    (hobjects : b.objects = some objects) (hobject : object ∈ objects) :
    object.data.length ≤ b.write.length := by
  obtain ⟨o, _, rfl⟩ := Option.map_eq_some_iff.1 hobjects
  exact Nat.le_trans object.length_data_le (o.length_write_le b.value hobject)

/-! ## Bodies of chunks -/

theorem Body.isChunk_eq (b : Body) : b.isChunk = b.chunk?.isSome := by
  obtain ⟨k, v⟩ := b
  cases k <;> rfl

theorem Chunk.protocolId_of_toBody? {c : Chunk} {protocol : Int32} {b : Body}
    (h : c.toBody? protocol = some b) : b.protocolId = protocol := by
  rcases toBody?_cases h with ⟨hstore, rfl⟩ | ⟨hquery, rfl⟩
  · exact hstore.symm
  · exact hquery.symm

/-- The bodies of some chunks hold these chunks, in their order. -/
theorem Chunk.bodies_of_mapM {protocol : Int32} {chunks : List Chunk} {bodies : List Body}
    (h : chunks.mapM (·.toBody? protocol) = some bodies) :
    bodies.filterMap Body.chunk? = chunks ∧
      ∀ b ∈ bodies, b.protocolId = protocol ∧ ∃ c ∈ chunks, b.chunk? = some c := by
  induction chunks generalizing bodies with
  | nil =>
    obtain rfl : bodies = [] := by simpa using h.symm
    simp
  | cons c chunks ih =>
    simp only [List.mapM_cons, Option.bind_eq_bind, Option.bind_eq_some_iff, Option.pure_def,
      Option.some.injEq] at h
    obtain ⟨b, hb, rest, hrest, rfl⟩ := h
    obtain ⟨hchunks, hbodies⟩ := ih hrest
    have hchunk := Chunk.chunk?_of_toBody? hb
    refine ⟨by rw [List.filterMap_cons_some hchunk, hchunks], ?_⟩
    intro b' hb'
    rcases List.mem_cons.1 hb' with rfl | hb'
    · exact ⟨protocolId_of_toBody? hb, c, List.mem_cons_self, hchunk⟩
    · obtain ⟨hprotocol, c', hc', hchunk'⟩ := hbodies b' hb'
      exact ⟨hprotocol, c', List.mem_cons_of_mem _ hc', hchunk'⟩

/-! ## Pieces of a content -/

namespace Message

theorem blob_of_mem_chunksOf {blob : Uuid} {size count : Nat} {data : Bytes} {c : Chunk}
    (hc : c ∈ chunksOf blob size count data) : c.blob = blob := by
  obtain ⟨i, _, rfl⟩ := List.mem_map.1 hc
  rfl

/-- The pieces make up the content as far as they reach. -/
theorem flatMap_pieces (size count : Nat) (data : Bytes) :
    (List.range count).flatMap (fun i => (data.drop (i * size)).take size) =
      data.take (count * size) := by
  induction count with
  | zero => simp
  | succ count ih =>
    rw [List.range_succ, List.flatMap_append, ih, Nat.add_mul, Nat.one_mul, List.take_add]
    simp

theorem data_chunksOf (blob : Uuid) {size count : Nat} {data : Bytes}
    (h : data.length ≤ count * size) :
    (chunksOf blob size count data).flatMap Chunk.data = data := by
  have hpieces := flatMap_pieces size count data
  rw [List.take_of_length_le h] at hpieces
  rw [chunksOf, List.flatMap_map]
  exact hpieces

theorem le_ceil_mul (length : Nat) {size : Nat} (hsize : 0 < size) :
    length ≤ (length + size - 1) / size * size := by
  have hdiv := Nat.div_add_mod (length + size - 1) size
  have hmod := Nat.mod_lt (length + size - 1) hsize
  rw [Nat.mul_comm] at hdiv
  omega

/-! ## Messages around pieces -/

/-- Nothing was refused. -/
def Sent (parts : List Part) : Prop := ∀ p ∈ parts, p.isRefusal = false

instance (parts : List Part) : Decidable (Sent parts) :=
  inferInstanceAs (Decidable (∀ p ∈ parts, p.isRefusal = false))

theorem sent_append {first second : List Part} :
    Sent (first ++ second) ↔ Sent first ∧ Sent second :=
  List.forall_mem_append

theorem not_sent_refusal (fault : Fault) (correlationId : Int64) (fresh : Fresh) :
    ¬ Sent (refusal fault correlationId fresh).1 := by
  intro hsent
  have hpart := hsent _ (List.mem_singleton.2 rfl)
  cases hpart

/-- The part that a message is. -/
def asPart (m : Message) : Part := ⟨m, false⟩

theorem onePart_sent {limit : Option Nat} {m : Message} {fresh : Fresh}
    (hsent : Sent (onePart limit m fresh).1) : onePart limit m fresh = ([m.asPart], fresh) := by
  unfold onePart at hsent ⊢
  by_cases hfits : m.fits limit = true
  · rw [if_pos hfits]
    rfl
  · rw [if_neg hfits] at hsent
    exact absurd hsent (not_sent_refusal _ _ _)

/-- The last of some messages is final or not, and none before it is. -/
def EndsWith (isFinal : Bool) (ms : List Message) : Prop :=
  ∃ before last, ms = before ++ [last] ∧ (∀ m ∈ before, m.isFinal = false) ∧
    last.isFinal = isFinal

theorem EndsWith.single (m : Message) : EndsWith m.isFinal [m] :=
  ⟨[], m, rfl, by simp, rfl⟩

theorem EndsWith.append {isFinal : Bool} {as bs : List Message} (ha : EndsWith false as)
    (hb : EndsWith isFinal bs) : EndsWith isFinal (as ++ bs) := by
  obtain ⟨before, a, rfl, hbefore, hfinal⟩ := ha
  obtain ⟨between, b, rfl, hbetween, hlast⟩ := hb
  refine ⟨before ++ [a] ++ between, b, by simp, ?_, hlast⟩
  intro m hm
  rcases List.mem_append.1 hm with hm | hm
  · rcases List.mem_append.1 hm with hm | hm
    · exact hbefore m hm
    · rw [List.mem_singleton.1 hm]
      exact hfinal
  · exact hbetween m hm

/-- The first of several messages, the last of which is final, is final only if it is the only one. -/
theorem EndsWith.of_cons {p : Message} {ps : List Message} (h : EndsWith true (p :: ps)) :
    (p.isFinal = true ∧ ps = []) ∨ (p.isFinal = false ∧ EndsWith true ps) := by
  obtain ⟨before, last, hsplit, hbefore, hlast⟩ := h
  cases before with
  | nil =>
    obtain ⟨rfl, rfl⟩ := List.cons.inj hsplit
    exact .inl ⟨hlast, rfl⟩
  | cons q before =>
    obtain ⟨rfl, rfl⟩ := List.cons.inj hsplit
    exact .inr ⟨hbefore p List.mem_cons_self, before, last, rfl,
      fun m hm => hbefore m (List.mem_cons_of_mem _ hm), hlast⟩

section OfChunk

variable (body : Body) (id exchangeId : Int64) (isLast : Bool)

theorem named_ofChunk : (ofChunk body id exchangeId isLast).Named := ⟨rfl, rfl⟩

@[simp] theorem isFinal_ofChunk : (ofChunk body id exchangeId isLast).isFinal = isLast := by
  cases isLast with
  | false => simp [ofChunk, Message.isFinal, withFlags]
  | true => simp [ofChunk, Message.isFinal, withFlags]

@[simp] theorem isMultipart_ofChunk : (ofChunk body id exchangeId isLast).isMultipart = true := by
  cases isLast with
  | false => simp [ofChunk, isMultipart, withFlags]
  | true => simp [ofChunk, isMultipart, withFlags]

@[simp] theorem wantsAcknowledge_ofChunk :
    (ofChunk body id exchangeId isLast).wantsAcknowledge = false := by
  cases isLast with
  | false => simp [ofChunk, wantsAcknowledge, withFlags]
  | true => simp [ofChunk, wantsAcknowledge, withFlags]

theorem exchangeId_ofChunk (hexchange : exchangeId ≠ 0) :
    (ofChunk body id exchangeId isLast).exchangeId = exchangeId := by
  simp [ofChunk, Message.exchangeId, withFlags, withCorrelation, hexchange]

end OfChunk

/-- Messages around some bodies in one exchange, of which the last may end it. -/
structure Framed (exchangeId : Int64) (isFinal : Bool) (bodies : List Body)
    (messages : List Message) : Prop where
  body_eq : messages.map Message.body = bodies
  framed : ∀ c ∈ messages, ∃ id isLast, c = ofChunk c.body id exchangeId isLast
  ends : bodies ≠ [] → EndsWith isFinal messages

theorem chunkParts_cons (limit : Option Nat) (exchangeId : Int64) (isFinal : Bool) (body : Body)
    (bodies : List Body) (fresh : Fresh) :
    chunkParts limit exchangeId isFinal (body :: bodies) fresh =
      let first := onePart limit
        (ofChunk body fresh.drawId.1 exchangeId (isFinal && bodies.isEmpty)) fresh.drawId.2
      let others := chunkParts limit exchangeId isFinal bodies first.2
      (first.1 ++ others.1, others.2) := rfl

theorem chunkParts_sent {limit : Option Nat} {exchangeId : Int64} {isFinal : Bool}
    {bodies : List Body} {fresh : Fresh}
    (hsent : Sent (chunkParts limit exchangeId isFinal bodies fresh).1) :
    ∃ messages, Framed exchangeId isFinal bodies messages ∧
      (chunkParts limit exchangeId isFinal bodies fresh).1 = messages.map asPart ∧
      (chunkParts limit exchangeId isFinal bodies fresh).2.blobs = fresh.blobs := by
  induction bodies generalizing fresh with
  | nil => exact ⟨[], ⟨rfl, by simp, by simp⟩, rfl, rfl⟩
  | cons body bodies ih =>
    simp only [chunkParts_cons] at hsent ⊢
    obtain ⟨hone, hothers⟩ := sent_append.1 hsent
    rw [onePart_sent hone] at hothers ⊢
    obtain ⟨messages, hframed, hparts, hblobs⟩ := ih hothers
    let m := ofChunk body fresh.drawId.1 exchangeId (isFinal && bodies.isEmpty)
    refine ⟨m :: messages, ⟨?_, ?_, ?_⟩, ?_, ?_⟩
    · rw [List.map_cons, hframed.body_eq]
      rfl
    · intro c hc
      rcases List.mem_cons.1 hc with rfl | hc
      · exact ⟨_, _, rfl⟩
      · exact hframed.framed c hc
    · intro _
      have hfirst := EndsWith.single m
      rw [isFinal_ofChunk] at hfirst
      -- Only the last chunk of all is marked as final.
      cases bodies with
      | nil =>
        obtain rfl : messages = [] := List.map_eq_nil_iff.1 hframed.body_eq
        simpa using hfirst
      | cons next bodies =>
        have hrest := hframed.ends (List.cons_ne_nil _ _)
        simp only [List.isEmpty_cons, Bool.and_false] at hfirst
        exact hfirst.append hrest
    · rw [hparts]
      rfl
    · rw [hblobs]
      rfl

/-- What the chunks of a content are to a receiver: messages of the exchange of `m`, each with a
piece of the content under `blob`, the last of which ends the exchange if `m` does. -/
structure Carries (m : Message) (blob : Uuid) (data : Bytes) (chunks : List Message) : Prop where
  framed : ∀ c ∈ chunks, ∃ id isLast, c = ofChunk c.body id m.exchangeId isLast
  protocol_eq : ∀ c ∈ chunks, c.body.protocolId = m.header.protocol
  blob_eq : ∀ c ∈ chunks, ∃ chunk, c.body.chunk? = some chunk ∧ chunk.blob = blob
  data_eq : (chunks.filterMap (·.body.chunk?)).flatMap Chunk.data = data
  ends : EndsWith m.isFinal chunks

/-- The chunks of a content, if none of them is refused, are sent one after the other. -/
theorem chunkParts_carries {limit : Option Nat} {m : Message} {object : DataObject} {blob : Uuid}
    {size : Nat} {bodies : List Body} {fresh : Fresh} (hobjects : m.body.objects = some [object])
    (hdata : object.data ≠ []) (hsize : size ≠ 0)
    (hbodies : (chunksOf blob size ((m.body.write.length + size - 1) / size) object.data).mapM
      (·.toBody? m.header.protocol) = some bodies)
    (hsent : Sent (chunkParts limit m.exchangeId m.isFinal bodies fresh).1) :
    ∃ chunks, Carries m blob object.data chunks ∧
      (chunkParts limit m.exchangeId m.isFinal bodies fresh).1 = chunks.map asPart ∧
      (chunkParts limit m.exchangeId m.isFinal bodies fresh).2.blobs = fresh.blobs := by
  obtain ⟨chunks, hframed, hparts, hblobs⟩ := chunkParts_sent hsent
  refine ⟨chunks, ?_, hparts, hblobs⟩
  obtain ⟨hchunks, heach⟩ := Chunk.bodies_of_mapM hbodies
  have hlength := Body.length_data_le hobjects (List.mem_singleton.2 rfl)
  have hreach := Nat.le_trans hlength (le_ceil_mul m.body.write.length (Nat.pos_of_ne_zero hsize))
  have hmem : ∀ c ∈ chunks, c.body ∈ bodies := fun c hc =>
    hframed.body_eq ▸ List.mem_map_of_mem hc
  refine ⟨hframed.framed, fun c hc => (heach _ (hmem c hc)).1, ?_, ?_, hframed.ends ?_⟩
  · intro c hc
    obtain ⟨chunk, hchunk, heq⟩ := (heach _ (hmem c hc)).2
    exact ⟨chunk, heq, blob_of_mem_chunksOf hchunk⟩
  · rw [← data_chunksOf blob hreach, ← hchunks, ← hframed.body_eq, List.filterMap_map]
    rfl
  · -- Content that is not empty makes at least one chunk.
    intro hnone
    subst hnone
    have hcontent := data_chunksOf blob hreach
    rw [← hchunks] at hcontent
    exact hdata hcontent.symm

theorem chunkedParts_sent {max : Nat} {m : Message} {object : DataObject} {fresh : Fresh}
    (hobjects : m.body.objects = some [object]) (hsent : Sent (chunkedParts max m object fresh).1) :
    ∃ chunks, object.data ≠ [] ∧ Carries m fresh.drawBlob.1 object.data chunks ∧
      (chunkedParts max m object fresh).1 =
        (m.referencer fresh.drawBlob.1 :: chunks).map asPart ∧
      (chunkedParts max m object fresh).2.blobs = fresh.drawBlob.2.blobs := by
  unfold chunkedParts at hsent ⊢
  simp only at hsent ⊢
  split at hsent
  case isTrue => exact absurd hsent (not_sent_refusal _ _ _)
  case isFalse hroom =>
    rw [if_neg hroom]
    simp only [Bool.or_eq_true, decide_eq_true_eq, List.isEmpty_iff, not_or] at hroom
    split at hsent
    case h_1 => exact absurd hsent (not_sent_refusal _ _ _)
    case h_2 bodies hbodies =>
      obtain ⟨hfirst, hothers⟩ := sent_append.1 hsent
      rw [onePart_sent hfirst] at hothers ⊢
      obtain ⟨chunks, hcarries, hparts, hblobs⟩ :=
        chunkParts_carries hobjects hroom.2 hroom.1 hbodies hothers
      refine ⟨chunks, hroom.2, hcarries, ?_, hblobs⟩
      rw [hparts]
      rfl

end Message

end Etp
