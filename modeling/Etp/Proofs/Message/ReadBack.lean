import Etp.Message.Frame
import Etp.Proofs.Schema.ReadBack

/-!
# Frames are read back

A frame holds no length between header and body and no mark of the kind of body, so reading it back
rests on the catalog: a protocol and a number announce one kind only (`Kind.find?_eq_self`), and a
number of the core protocol is only tried where the announced protocol does not have it.

The main statement is `Message.decode_encode`.
-/

namespace Etp

open Wire Wire.Reader

namespace Kind

theorem isSized_shape (k : Kind) : k.shape.isSized = true := by
  cases k <;> decide +kernel

/-- A kind is announced by its own protocol and number. -/
theorem find?_eq_self (k : Kind) : find? k.protocol.id k.number = some k := by
  cases k <;> decide +kernel

end Kind

theorem Protocol.id_nonneg (p : Protocol) : 0 ≤ p.id := by
  cases p <;> decide

namespace Body

/-- What a body claims of the allowance while it is read. -/
def cost (b : Body) : Cost := b.kind.shape.cost b.value

/-- Whether every length in the body is a 64-bit number. -/
def Representable (b : Body) : Prop := b.kind.shape.Representable b.value

/-- Whether reading the body keeps to the limit for what is read from one byte string. -/
def WithinLimit (b : Body) : Prop := b.cost.need ≤ byteLimit

instance (b : Body) : Decidable b.WithinLimit := inferInstanceAs (Decidable (_ ≤ _))

theorem read_reads (b : Body) (hb : b.Representable) : (read b.kind).Reads b.write b b.cost :=
  (Shape.read_reads b.kind.shape b.kind.isSized_shape b.value hb).map (Body.mk b.kind)

theorem WithinLimit.representable {b : Body} (hb : b.WithinLimit) : b.Representable := by
  have hlimit : byteLimit < Width.w64.size := by decide
  exact Shape.representable_of_cost b.kind.shape b.kind.isSized_shape b.value
    (Nat.lt_of_le_of_lt hb hlimit)

/-- The limit is the only thing that can keep a body from being read back. -/
theorem withinLimit_iff {b : Body} (hb : b.Representable) :
    b.WithinLimit ↔ (read b.kind).run b.write ≠ .error .limitExceeded := by
  have hread := (b.read_reads hb).run_eq []
  rw [List.append_nil] at hread
  rw [hread]
  unfold WithinLimit
  by_cases hcost : b.cost.need ≤ byteLimit
  · simp [hcost]
  · simp [hcost]

theorem decode_write_append {protocol number : Int32} {b : Body}
    (hkind : Kind.find? protocol number = some b.kind) (hlimit : b.WithinLimit) (rest : Bytes) :
    decode protocol number (b.write ++ rest) = .ok b := by
  have hread := (b.read_reads hlimit.representable).run_eq rest
  rw [if_pos (by exact hlimit)] at hread
  simp [decode, readAnnounced, hkind, hread, Except.map]

theorem decode_unknown {protocol number : Int32} (hkind : Kind.find? protocol number = none)
    (payload : Bytes) :
    decode protocol number payload = .error (.unknownBody protocol number) := by
  simp [decode, readAnnounced, hkind, Except.map]

end Body

namespace Message

/-- The header announces the body by the body's own protocol and number. -/
structure Named (m : Message) : Prop where
  protocol_eq : m.header.protocol = m.body.protocolId
  number_eq : m.header.number = m.body.kind.number

/-- The header announces a core body in another protocol, which has no kind of this number. -/
structure NamedInCore (m : Message) : Prop where
  core : m.body.kind.protocol = .core
  number_eq : m.header.number = m.body.kind.number
  unknown : Kind.find? m.header.protocol m.header.number = none

theorem Named.find?_eq {m : Message} (h : m.Named) :
    Kind.find? m.header.protocol m.header.number = some m.body.kind := by
  rw [h.protocol_eq, h.number_eq]
  exact m.body.kind.find?_eq_self

theorem NamedInCore.find?_core {m : Message} (h : m.NamedInCore) :
    Kind.find? Protocol.core.id m.header.number = some m.body.kind := by
  rw [h.number_eq, ← h.core]
  exact m.body.kind.find?_eq_self

theorem run_encode_append (m : Message) (rest : Bytes) :
    Header.read.run (m.encode ++ rest) = .ok (m.header, m.body.write ++ rest) := by
  have hread := (Header.read_reads m.header).run_eq (m.body.write ++ rest)
  rwa [if_pos (by decide), ← List.append_assoc] at hread

theorem run_encode (m : Message) : Header.read.run m.encode = .ok (m.header, m.body.write) := by
  simpa using m.run_encode_append []

theorem Named.protocol_nonneg {m : Message} (h : m.Named) : 0 ≤ m.header.protocol := by
  rw [h.protocol_eq]
  exact Protocol.id_nonneg _

/-- A message is read back by the kind that its header announces, whatever follows it. -/
theorem Named.decode_append {m : Message} (h : m.Named) (hlimit : m.body.WithinLimit) (rest : Bytes) :
    decode (m.encode ++ rest) = .ok (some m) := by
  have hpositive : ¬ m.header.protocol < 0 := Int32.not_lt.2 h.protocol_nonneg
  simp only [decode, run_encode_append, if_neg hpositive]
  rw [Body.decode_write_append h.find?_eq hlimit]

theorem Named.decode_eq {m : Message} (h : m.Named) (hlimit : m.body.WithinLimit) :
    decode m.encode = .ok (some m) := by
  simpa using h.decode_append hlimit []

/-- Where the announced protocol has no kind of the number, that of the core protocol is read. -/
theorem NamedInCore.decode_append {m : Message} (h : m.NamedInCore)
    (hprotocol : 0 ≤ m.header.protocol) (hlimit : m.body.WithinLimit) (rest : Bytes) :
    decode (m.encode ++ rest) = .ok (some m) := by
  have hpositive : ¬ m.header.protocol < 0 := Int32.not_lt.2 hprotocol
  simp only [decode, run_encode_append, if_neg hpositive]
  rw [Body.decode_unknown h.unknown]
  simp only [Body.decode_write_append h.find?_core hlimit]

theorem NamedInCore.decode_eq {m : Message} (h : m.NamedInCore) (hprotocol : 0 ≤ m.header.protocol)
    (hlimit : m.body.WithinLimit) : decode m.encode = .ok (some m) := by
  simpa using h.decode_append hprotocol hlimit []

/-- A frame gives its message back: header and body, in the body's own protocol or, for a core body,
in any protocol that has no kind of its number. -/
theorem decode_encode (m : Message) (hprotocol : 0 ≤ m.header.protocol)
    (hnamed : m.Named ∨ m.NamedInCore) (hlimit : m.body.WithinLimit) :
    decode m.encode = .ok (some m) := by
  rcases hnamed with hown | hcore
  · exact hown.decode_eq hlimit
  · exact hcore.decode_eq hprotocol hlimit

/-- The number of a message under the protocol of another, and a value that is not a number. -/
theorem decode_encode_extremes :
    (let refusal : Message := ⟨⟨4, 1000, Int64.minValue, Int64.maxValue, ⟨-1⟩⟩,
      ⟨.protocolException, some ("wrong", -1, ()), KeyMap.empty, ()⟩⟩
    Kind.find? 4 1000 = none ∧ refusal.body.WithinLimit ∧
      decode refusal.encode = .ok (some refusal)) ∧
    (let sample : Message := ⟨⟨21, 4, -1, 0, ⟨Int32.minValue⟩⟩, ⟨.channelSubscribeChannelData,
      [(7, [.double ⟨0x8000000000000000⟩], some (.double ⟨0x7ff8000000000001⟩), ())], ()⟩⟩
    sample.body.WithinLimit ∧ decode sample.encode = .ok (some sample)) := by
  refine ⟨⟨by decide +kernel, by decide +kernel, ?_⟩, by decide +kernel, ?_⟩
  · exact decode_encode _ (by decide) (.inr ⟨rfl, rfl, by decide +kernel⟩) (by decide +kernel)
  · exact decode_encode _ (by decide) (.inl ⟨rfl, rfl⟩) (by decide +kernel)

/-- Several frames give their messages back. -/
theorem mapM_decode {messages : List Message} (hnamed : ∀ m ∈ messages, m.Named)
    (hlimit : ∀ m ∈ messages, m.body.WithinLimit) :
    (messages.map encode).mapM decode = .ok (messages.map some) := by
  induction messages with
  | nil => rfl
  | cons m messages ih =>
    have hfirst := (hnamed m List.mem_cons_self).decode_eq (hlimit m List.mem_cons_self)
    have hrest := ih (fun p hp => hnamed p (List.mem_cons_of_mem _ hp))
      (fun p hp => hlimit p (List.mem_cons_of_mem _ hp))
    rw [List.map_cons, List.mapM_cons, hfirst, hrest]
    rfl

end Message

end Etp
