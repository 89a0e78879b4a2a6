import Etp.Proofs.Message.ReadBack

/-!
# Written forms end by themselves

Nothing marks where a header ends and its body begins, nor where a field ends.  A reader must find the
end itself, and it does not look further: what it makes of some bytes stays the same when more bytes
follow them (`Reader.Extends`).  So a value that is read from the beginning of a written form is read from
the whole of it as well, and since reading the whole leaves nothing, the beginning was the whole
(`Reads.cut_error`).

The main statement is `self_delimiting`.
-/

namespace Etp

open Wire Wire.Reader

namespace Wire

/-- The supply with more bytes behind its own. -/
def Supply.before (supply : Supply) (more : Bytes) : Supply := ⟨supply.bytes ++ more, supply.allowance⟩

namespace Reader

variable {α β : Type}

/-- What the reader makes of some bytes stays the same when more bytes follow. -/
def Extends (reader : Reader α) : Prop :=
  ∀ supply a left, reader supply = .ok (a, left) →
    ∀ more, reader (supply.before more) = .ok (a, left.before more)

/-! ## Elementary reads -/

theorem extends_pure (a : α) : (pure a : Reader α).Extends := by
  intro supply b left h more
  cases h
  rfl

theorem extends_fail (e : DecodeError) : (fail e : Reader α).Extends := by
  intro supply a left h
  cases h

theorem Extends.bind {first : Reader α} {next : α → Reader β} (hfirst : first.Extends)
    (hnext : ∀ a, (next a).Extends) : (first >>= next).Extends := by
  intro supply b left h more
  cases hvalue : first supply with
  | error e =>
    rw [bind_apply_error hvalue] at h
    cases h
  | ok result =>
    obtain ⟨a, middle⟩ := result
    rw [bind_apply_ok hvalue] at h
    rw [bind_apply_ok (hfirst supply a middle hvalue more)]
    exact hnext a middle b left h more

theorem Extends.map {reader : Reader α} (h : reader.Extends) (f : α → β) :
    (reader >>= fun a => (Pure.pure (f a) : Reader β)).Extends :=
  h.bind (fun a => extends_pure (f a))

theorem extends_claim (size : Nat) : (claim size).Extends := by
  intro supply a left h more
  unfold claim at h
  split at h
  case isTrue hsize =>
    cases h
    exact if_pos hsize
  case isFalse => cases h

theorem extends_byte : byte.Extends := by
  intro supply a left h more
  obtain ⟨bytes, allowance⟩ := supply
  cases bytes with
  | nil => cases h
  | cons b bytes =>
    cases h
    rfl

theorem extends_tag : tag.Extends := (extends_claim 1).bind (fun _ => extends_byte)

theorem extends_take (count : Nat) : (take count).Extends := by
  intro supply a left h more
  obtain ⟨bytes, allowance⟩ := supply
  unfold take at h
  split at h
  case isTrue hlength =>
    cases h
    have hcount : count ≤ bytes.length := by
      simp only [List.length_take] at hlength
      omega
    have htaken : (bytes ++ more).take count = bytes.take count := List.take_append_of_le_length hcount
    have hleft : (bytes ++ more).drop count = bytes.drop count ++ more :=
      List.drop_append_of_le_length hcount
    simp only [take, Supply.before, htaken, hleft, hlength, dite_true]
  case isFalse => cases h

theorem extends_entriesAfter (size : Nat) {entry : Reader α} (hentry : entry.Extends) (count : Nat)
    (taken : List α) : (entriesAfter size entry count taken).Extends := by
  induction count generalizing taken with
  | zero =>
    intro supply as left h more
    cases h
    rfl
  | succ count ih =>
    intro supply as left h more
    simp only [entriesAfter] at h ⊢
    cases hvalue : entry { supply with allowance := supply.allowance + size } with
    | error e =>
      rw [hvalue] at h
      cases h
    | ok result =>
      obtain ⟨a, middle⟩ := result
      rw [hvalue] at h
      have hmore := hentry _ a middle hvalue more
      simp only [Supply.before] at hmore ⊢
      rw [hmore]
      exact ih (a :: taken) middle as left h more

theorem extends_entries (size : Nat) {entry : Reader α} (hentry : entry.Extends) (count : Nat) :
    (entries size entry count).Extends :=
  (extends_claim _).bind (fun _ => extends_entriesAfter size hentry count [])

/-- Only the beginning of a written form cannot be read. -/
theorem Reads.cut_error {reader : Reader α} {written cut : Bytes} {a : α} {cost : Cost}
    (h : reader.Reads written a cost) (hextends : reader.Extends) (hcut : cut <+: written)
    (hstrict : cut ≠ written) : ∃ e, reader.run cut = .error e := by
  obtain ⟨more, rfl⟩ := hcut
  unfold run
  cases hvalue : reader ⟨cut, byteLimit⟩ with
  | error e => exact ⟨e, rfl⟩
  | ok result =>
    obtain ⟨b, left⟩ := result
    -- Then the whole is read too, and `more` is left of it; but nothing is left of the whole.
    have hmore := hextends _ b left hvalue more
    have hwhole := h [] byteLimit
    rw [List.append_nil] at hwhole
    simp only [Supply.before] at hmore
    rw [hwhole] at hmore
    split at hmore
    case isTrue =>
      injection hmore with hmore
      have hleft : [] = left.bytes ++ more := congrArg (fun r => r.2.bytes) hmore
      rw [(List.append_eq_nil_iff.1 hleft.symm).2, List.append_nil] at hstrict
      exact absurd rfl hstrict
    case isFalse => cases hmore

/-- What a byte string begins with: the value, and how many bytes it takes. -/
def counted (reader : Reader α) (bytes : Bytes) : Except DecodeError (α × Nat) :=
  (reader.run bytes).map (fun read => (read.1, bytes.length - read.2.length))

theorem Reads.counted_eq {reader : Reader α} {written : Bytes} {a : α} {cost : Cost}
    (h : reader.Reads written a cost) (hlimit : cost.need ≤ byteLimit) (rest : Bytes) :
    reader.counted (written ++ rest) = .ok (a, written.length) := by
  rw [counted, h.run_eq rest, if_pos hlimit]
  simp [Except.map]

end Reader

/-! ## Fields -/

theorem extends_fixedWidth (count : Nat) : (fixedWidth count).Extends := (extends_take count).map _

/-- Here a reader looks ahead, but only to word its refusal. -/
theorem extends_refuseWider {α : Type} (width : Width) (signed : Bool) (found : IntegerKind) :
    (refuseWider width signed found : Reader α).Extends := by
  intro supply a left h
  cases h

theorem extends_readVarint (width : Width) (signed : Bool) : (readVarint width signed).Extends := by
  refine (extends_claim width.room).bind (fun _ => extends_byte.bind (fun tag => ?_))
  split
  · exact extends_pure _
  split
  · exact extends_fixedWidth 2
  split
  · exact extends_fixedWidth 4
  split
  · cases width with
    | w32 => exact extends_refuseWider _ _ _
    | w64 => exact extends_fixedWidth 8
  split
  · exact extends_refuseWider _ _ _
  · exact extends_refuseWider _ _ _

theorem extends_readInt32 : readInt32.Extends := (extends_readVarint .w32 true).map _

theorem extends_readInt64 : readInt64.Extends := (extends_readVarint .w64 true).map _

theorem extends_readLength : readLength.Extends := extends_readVarint .w64 false

theorem extends_readList {α : Type} (size : Nat) {entry : Reader α} (hentry : entry.Extends) :
    (readList size entry).Extends :=
  extends_readLength.bind (fun count => extends_entries size hentry count)

theorem extends_readBytes : readBytes.Extends :=
  extends_readLength.bind (fun count =>
    (extends_claim count).bind (fun _ => (extends_take count).map _))

theorem extends_readText (count : Nat) : (readText count).Extends := by
  refine (extends_take count).bind (fun bytes => ?_)
  split
  · exact extends_pure _
  · exact extends_fail _

theorem extends_readTextField : readTextField.Extends :=
  extends_readLength.bind (fun count => (extends_claim count).bind (fun _ => extends_readText count))

theorem extends_readVariant (highest : Nat) : (readVariant highest).Extends := by
  refine (extends_readVarint .w32 false).bind (fun found => ?_)
  split
  · exact extends_pure _
  · exact extends_fail _

theorem extends_readBool : readBool.Extends := by
  refine extends_tag.bind (fun b => ?_)
  split
  · exact extends_pure _
  split
  · exact extends_pure _
  · exact extends_fail _

theorem extends_readOption {α : Type} {item : Reader α} (hitem : item.Extends) :
    (readOption item).Extends := by
  refine extends_tag.bind (fun b => ?_)
  split
  · exact extends_pure _
  split
  · exact hitem.map some
  · exact extends_fail _

theorem extends_readDouble : readDouble.Extends :=
  (extends_claim 8).bind (fun _ => (extends_fixedWidth 8).map _)

theorem extends_readSingle : readSingle.Extends :=
  (extends_claim 4).bind (fun _ => (extends_fixedWidth 4).map _)

theorem extends_readUuid : readUuid.Extends :=
  (extends_claim 16).bind (fun _ => (extends_take 16).map _)

theorem extends_readDataValueContent (kind : Fin 11) : (readDataValueContent kind).Extends := by
  unfold readDataValueContent
  split
  · exact extends_pure _
  · exact extends_readBool.map _
  · exact extends_readInt32.map _
  · exact extends_readInt64.map _
  · exact extends_readDouble.map _
  · exact extends_readSingle.map _
  · exact extends_readTextField.map _
  · exact (extends_readList 8 extends_readInt64).map _
  · exact (extends_readList 8 extends_readDouble).map _
  · exact (extends_readList 24 extends_readTextField).map _
  · exact extends_readBytes.map _

theorem extends_readIndexValueContent (kind : Fin 3) : (readIndexValueContent kind).Extends := by
  unfold readIndexValueContent
  split
  · exact extends_pure _
  · exact extends_readInt64.map _
  · exact extends_readDouble.map _

end Wire

/-! ## Records -/

theorem Shape.extends_read (s : Shape) : s.read.Extends := by
  induction s with
  | int => exact extends_readInt32
  | long => exact extends_readInt64
  | bool => exact extends_readBool
  | text => exact extends_readTextField
  | bytes => exact extends_readBytes
  | uuid => exact extends_readUuid
  | value => exact (extends_readVariant 10).bind extends_readDataValueContent
  | index => exact (extends_readVariant 2).bind extends_readIndexValueContent
  | choice first others => exact extends_readVariant others.length
  | option item ih => exact extends_readOption ih
  | list entry ih => exact extends_readList entry.entrySize ih
  | map entry ih =>
    exact (extends_readList _ (extends_readTextField.bind (fun key => ih.map (Prod.mk key)))).map _
  | empty => exact extends_pure ()
  | field name head rest ihHead ihRest => exact ihHead.bind (fun a => ihRest.map (Prod.mk a))

theorem Header.extends_read : Header.read.Extends :=
  extends_readInt32.bind (fun _ => extends_readInt32.bind (fun _ => extends_readInt64.bind (fun _ =>
    extends_readInt64.bind (fun _ => extends_readInt32.map _))))

theorem Body.extends_read (k : Kind) : (Body.read k).Extends := k.shape.extends_read.map _

/-! ## Frames -/

namespace Message

/-- A negative protocol marks a frame that is not complete, whatever follows the header. -/
theorem decode_append_of_negative {m : Message} (hprotocol : m.header.protocol < 0) (rest : Bytes) :
    decode (m.encode ++ rest) = .ok none := by
  simp only [decode, run_encode_append, if_pos hprotocol]

/-- A payload that breaks off is not read as the announced body. -/
theorem decode_cut {m : Message} (hnamed : m.Named ∨ m.NamedInCore) (hlimit : m.body.WithinLimit)
    {cut : Bytes} (hcut : cut <+: m.body.write) (hstrict : cut ≠ m.body.write) :
    ∃ e, Body.decode m.header.protocol m.header.number cut = .error e := by
  rcases hnamed with hown | hcore
  · obtain ⟨e, he⟩ := (m.body.read_reads hlimit.representable).cut_error
      (Body.extends_read m.body.kind) hcut hstrict
    refine ⟨.decode e, ?_⟩
    simp [Body.decode, Body.readAnnounced, hown.find?_eq, he, Except.map]
  · exact ⟨_, Body.decode_unknown hcore.unknown cut⟩

/-- Headers, and bodies of every kind, end by themselves: what follows the written form does not matter,
as many bytes are read as were written, and no strict beginning of the written form can be read.  So bytes
behind a frame do not change what the frame means, and a payload that breaks off is not taken for the
announced body. -/
theorem self_delimiting :
    (∀ h : Header,
      (∀ rest, Header.read.counted (h.write ++ rest) = .ok (h, h.write.length)) ∧
      ∀ cut, cut <+: h.write → cut ≠ h.write → ∃ e, Header.read.run cut = .error e) ∧
    (∀ b : Body, b.WithinLimit →
      (∀ rest, (Body.read b.kind).counted (b.write ++ rest) = .ok (b, b.write.length)) ∧
      ∀ cut, cut <+: b.write → cut ≠ b.write → ∃ e, (Body.read b.kind).run cut = .error e) ∧
    (∀ m : Message, m.Named ∨ m.NamedInCore → m.body.WithinLimit →
      (∀ rest, decode (m.encode ++ rest) =
        .ok (if m.header.protocol < 0 then none else some m)) ∧
      ∀ cut, cut <+: m.body.write → cut ≠ m.body.write →
        ∃ e, Body.decode m.header.protocol m.header.number cut = .error e) := by
  refine ⟨?_, ?_, ?_⟩
  · intro h
    have hreads := Header.read_reads h
    exact ⟨hreads.counted_eq (by decide), fun cut => hreads.cut_error Header.extends_read⟩
  · intro b hlimit
    have hreads := b.read_reads hlimit.representable
    exact ⟨hreads.counted_eq hlimit, fun cut => hreads.cut_error (Body.extends_read b.kind)⟩
  · intro m hnamed hlimit
    refine ⟨?_, fun cut => decode_cut hnamed hlimit⟩
    intro rest
    by_cases hprotocol : m.header.protocol < 0
    · rw [if_pos hprotocol, decode_append_of_negative hprotocol]
    · have hnonneg := Int32.not_lt.1 hprotocol
      rw [if_neg hprotocol]
      rcases hnamed with hown | hcore
      · exact hown.decode_append hlimit rest
      · exact hcore.decode_append hnonneg hlimit rest

/-- Samples with one value of every kind that a channel may hold. -/
def samples : Message :=
  ⟨⟨21, 4, -1, 0, ⟨Int32.minValue⟩⟩, ⟨.channelSubscribeChannelData,
    [(7, [.double ⟨0x8000000000000000⟩, .null], some (.texts ["", "é"]), ()),
      (8, [.long Int64.minValue], some (.double ⟨0x7ff8000000000001⟩), ())], ()⟩⟩

/-- A frame of samples followed by a byte, and its payload without the last byte. -/
theorem self_delimiting_samples :
    samples.Named ∧ samples.body.WithinLimit ∧
      (Body.read samples.body.kind).counted (samples.body.write ++ [255]) =
        .ok (samples.body, samples.body.write.length) ∧
      decode (samples.encode ++ [255]) = .ok (some samples) ∧
      samples.body.write.dropLast <+: samples.body.write ∧
      samples.body.write.dropLast ≠ samples.body.write ∧
      (∃ e, (Body.read samples.body.kind).run samples.body.write.dropLast = .error e) ∧
      ∃ e, Body.decode samples.header.protocol samples.header.number samples.body.write.dropLast =
        .error e := by
  have hnamed : samples.Named := ⟨rfl, rfl⟩
  have hlimit : samples.body.WithinLimit := by decide +kernel
  have hcut := List.dropLast_prefix samples.body.write
  have hstrict : samples.body.write.dropLast ≠ samples.body.write := by decide +kernel
  obtain ⟨-, hbodies, hmessages⟩ := self_delimiting
  obtain ⟨hcounted, hunread⟩ := hbodies samples.body hlimit
  obtain ⟨hdecode, hundecoded⟩ := hmessages samples (.inl hnamed) hlimit
  exact ⟨hnamed, hlimit, hcounted [255], hdecode [255], hcut, hstrict,
    hunread _ hcut hstrict, hundecoded _ hcut hstrict⟩

end Message

end Etp
