import Etp.Proofs.Message.Chunks

/-!
# The margin of a chunk

The frame of a chunk has, besides the content, two identifiers of at most nine bytes, a blob identifier
and five fields of one byte, and the length of the content.  All of this is within `chunkMargin`
(`length_encode_ofChunk_le`), so a chunk whose content leaves the margin free is never refused
(`chunkParts_fit`).
-/

namespace Etp

namespace Wire

/-- A variable-length integer has at most nine bytes. -/
theorem length_writeVarint_le (n : Nat) : (writeVarint n).length ≤ 9 := by
  unfold writeVarint
  split
  · simp
  · split
    · simp
    · split
      · simp
      · simp

/-- A byte string has, in front of it, its length. -/
theorem length_writeBytes_le (bytes : Bytes) : (writeBytes bytes).length ≤ 9 + bytes.length := by
  have hcount := length_writeVarint_le bytes.length
  simp only [writeBytes, List.length_append]
  omega

end Wire

open Wire

/-- A header whose protocol, number and flags are small has two fields that may be longer. -/
theorem Header.length_write_le {h : Header} (hprotocol : (writeInt32 h.protocol).length = 1)
    (hnumber : (writeInt32 h.number).length = 1) (hflags : (writeInt32 h.flags.bits).length = 1) :
    h.write.length ≤ 21 := by
  have hcorrelation : (writeInt64 h.correlationId).length ≤ 9 := length_writeVarint_le _
  have hid : (writeInt64 h.messageId).length ≤ 9 := length_writeVarint_le _
  simp only [write, List.length_append, hprotocol, hnumber, hflags]
  omega

/-- The written form of the fields of a chunk. -/
theorem Chunk.length_write_le {c : Chunk} {protocol : Int32} {b : Body}
    (h : c.toBody? protocol = some b) : b.write.length ≤ 26 + c.data.length := by
  have hwrite : b.write = c.blob.bytes ++ (writeBytes c.data ++ (writeBool c.isLast ++ [])) := by
    rcases toBody?_cases h with ⟨-, rfl⟩ | ⟨-, rfl⟩
    · rfl
    · rfl
  have hdata := length_writeBytes_le c.data
  simp only [hwrite, List.length_append, c.blob.length_eq, writeBool, List.length_singleton,
    List.length_nil]
  omega

namespace Message

/-- The frame of a chunk is longer than its content by no more than the margin. -/
theorem length_encode_ofChunk_le {c : Chunk} {protocol : Int32} {body : Body}
    (h : c.toBody? protocol = some body) (id exchangeId : Int64) (isFinal : Bool) :
    (ofChunk body id exchangeId isFinal).encode.length ≤ c.data.length + chunkMargin := by
  have hnumbers : (writeInt32 body.protocolId).length = 1 ∧
      (writeInt32 body.kind.number).length = 1 := by
    rcases Chunk.toBody?_cases h with ⟨-, rfl⟩ | ⟨-, rfl⟩
    · exact ⟨rfl, rfl⟩
    · exact ⟨rfl, rfl⟩
  have hflags : (writeInt32 (ofChunk body id exchangeId isFinal).header.flags.bits).length = 1 := by
    cases isFinal with
    | false =>
      show (writeInt32 Flags.multipart.bits).length = 1
      decide
    | true =>
      show (writeInt32 (Flags.multipart.union .final).bits).length = 1
      decide
  have hheader := Header.length_write_le (h := (ofChunk body id exchangeId isFinal).header)
    hnumbers.1 hnumbers.2 hflags
  have hbody : (ofChunk body id exchangeId isFinal).body.write.length ≤ 26 + c.data.length :=
    Chunk.length_write_le h
  simp only [encode, List.length_append, chunkMargin]
  omega

theorem length_data_of_mem_chunksOf {blob : Uuid} {size count : Nat} {data : Bytes} {c : Chunk}
    (hc : c ∈ chunksOf blob size count data) : c.data.length ≤ size := by
  obtain ⟨i, _, rfl⟩ := List.mem_map.1 hc
  exact List.length_take_le size _

/-- Chunks that leave the margin free are not refused. -/
theorem chunkParts_fit {max : Nat} {exchangeId : Int64} {isFinal : Bool} {protocol : Int32}
    {chunks : List Chunk} {bodies : List Body} {fresh : Fresh}
    (hbodies : chunks.mapM (·.toBody? protocol) = some bodies)
    (hsize : ∀ c ∈ chunks, c.data.length + chunkMargin ≤ max) :
    Sent (chunkParts (some max) exchangeId isFinal bodies fresh).1 := by
  induction chunks generalizing bodies fresh with
  | nil =>
    obtain rfl : bodies = [] := by simpa using hbodies.symm
    simp [chunkParts, Sent]
  | cons c chunks ih =>
    simp only [List.mapM_cons, Option.bind_eq_bind, Option.bind_eq_some_iff, Option.pure_def,
      Option.some.injEq] at hbodies
    obtain ⟨body, hbody, rest, hrest, rfl⟩ := hbodies
    obtain ⟨hfirst, hothers⟩ := List.forall_mem_cons.1 hsize
    let m := ofChunk body fresh.drawId.1 exchangeId (isFinal && rest.isEmpty)
    have hlength := length_encode_ofChunk_le hbody fresh.drawId.1 exchangeId (isFinal && rest.isEmpty)
    have hfits : m.fits (some max) = true := by
      simp only [fits, decide_eq_true_eq]
      exact Nat.le_trans hlength hfirst
    have hone : onePart (some max) m fresh.drawId.2 = ([⟨m, false⟩], fresh.drawId.2) := by
      rw [onePart, if_pos hfits]
    rw [chunkParts_cons]
    simp only
    rw [hone]
    exact sent_append.2 ⟨by simp [Sent], ih hrest hothers⟩

end Message

end Etp
