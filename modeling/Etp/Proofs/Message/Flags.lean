import Etp.Message.Basic

/-!
# Flags bit by bit

A set of flags is known by its bits, every named flag is a single bit, and adding or removing flags
works on each bit alone.  The statements about messages follow: which of the marks that the sender
of a split message adds or removes are seen by which question.
-/

namespace Etp

namespace Flags

/-- Whether the bit with a number is set. -/
def bit (f : Flags) (i : Nat) : Bool := f.bits.toBitVec.getLsbD i

theorem ext_bit {f g : Flags} (h : ∀ i, f.bit i = g.bit i) : f = g := by
  obtain ⟨a⟩ := f
  obtain ⟨b⟩ := g
  have hbits : a.toBitVec = b.toBitVec := BitVec.eq_of_getLsbD_eq (fun i _ => h i)
  rw [Int32.toBitVec_inj.1 hbits]

@[simp] theorem bit_union (f g : Flags) (i : Nat) : (f.union g).bit i = (f.bit i || g.bit i) := by
  simp [bit, union]

@[simp] theorem bit_remove (f g : Flags) (i : Nat) :
    (f.remove g).bit i = (f.bit i && !g.bit i) := by
  simp only [bit, remove, Int32.toBitVec_and, Int32.toBitVec_not, BitVec.getLsbD_and,
    BitVec.getLsbD_not]
  by_cases hi : i < 32
  · simp [hi]
  · simp [BitVec.getLsbD_of_ge f.bits.toBitVec i (by omega)]

/-- The set with a single bit. -/
def single (n : Nat) : Flags := ⟨Int32.ofBitVec (BitVec.twoPow 32 n)⟩

theorem bit_single {n : Nat} (hn : n < 32) (i : Nat) : (single n).bit i = decide (i = n) := by
  simp [bit, single, BitVec.getLsbD_twoPow, hn, eq_comm]

theorem contains_single {n : Nat} (hn : n < 32) (f : Flags) : f.contains (single n) = f.bit n := by
  have hbits : f.contains (single n) = true ↔ f.bits.toBitVec &&& BitVec.twoPow 32 n =
      BitVec.twoPow 32 n := by
    rw [contains, beq_iff_eq, ← Int32.toBitVec_inj, Int32.toBitVec_and]
    simp [single]
  rw [Bool.eq_iff_iff, hbits, BitVec.and_twoPow]
  by_cases hf : f.bits.toBitVec.getLsbD n = true
  · simp [hf, bit]
  · have hne : ¬ (0#32 = BitVec.twoPow 32 n) := by
      intro h
      have hbit := congrArg (fun b => b.getLsbD n) h
      simp [hn] at hbit
    simp [hf, bit, hne]

@[simp] theorem bit_multipart (i : Nat) : multipart.bit i = decide (i = 0) :=
  bit_single (n := 0) (by decide) i

@[simp] theorem bit_final (i : Nat) : final.bit i = decide (i = 1) :=
  bit_single (n := 1) (by decide) i

@[simp] theorem bit_acknowledge (i : Nat) : acknowledge.bit i = decide (i = 4) :=
  bit_single (n := 4) (by decide) i

@[simp] theorem contains_multipart (f : Flags) : f.contains .multipart = f.bit 0 :=
  contains_single (n := 0) (by decide) f

@[simp] theorem contains_final (f : Flags) : f.contains .final = f.bit 1 :=
  contains_single (n := 1) (by decide) f

@[simp] theorem contains_acknowledge (f : Flags) : f.contains .acknowledge = f.bit 4 :=
  contains_single (n := 4) (by decide) f

theorem bit_put_final (f : Flags) (present : Bool) (i : Nat) :
    (f.put .final present).bit i = if i = 1 then present else f.bit i := by
  cases present with
  | false => by_cases hi : i = 1 <;> simp [put, hi]
  | true => by_cases hi : i = 1 <;> simp [put, hi]

/-- The flags of the first of several parts. -/
def opening (f : Flags) : Flags := (f.union .multipart).remove .final

@[simp] theorem opening_opening (f : Flags) : f.opening.opening = f.opening := by
  apply ext_bit
  intro i
  simp only [opening, bit_remove, bit_union, bit_multipart, bit_final]
  by_cases h0 : i = 0 <;> by_cases h1 : i = 1 <;> simp [h0, h1]

theorem union_multipart_put_final (f : Flags) :
    (f.put .final false).union .multipart = f.opening := by
  apply ext_bit
  intro i
  simp only [opening, bit_remove, bit_union, bit_multipart, bit_final, bit_put_final]
  by_cases h0 : i = 0 <;> by_cases h1 : i = 1 <;> simp [h0, h1]

end Flags

namespace Message

variable (m : Message)

@[simp] theorem isFinal_setFinal (isFinal : Bool) : (m.setFinal isFinal).isFinal = isFinal := by
  simp [Message.isFinal, setFinal, withFlags, Flags.bit_put_final]

@[simp] theorem isMultipart_setFinal (isFinal : Bool) :
    (m.setFinal isFinal).isMultipart = m.isMultipart := by
  simp [isMultipart, setFinal, withFlags, Flags.bit_put_final]

@[simp] theorem wantsAcknowledge_setFinal (isFinal : Bool) :
    (m.setFinal isFinal).wantsAcknowledge = m.wantsAcknowledge := by
  simp [wantsAcknowledge, setFinal, withFlags, Flags.bit_put_final]

@[simp] theorem isFinal_addFlags_multipart : (m.addFlags .multipart).isFinal = m.isFinal := by
  simp [Message.isFinal, addFlags, withFlags]

@[simp] theorem isMultipart_addFlags_multipart : (m.addFlags .multipart).isMultipart = true := by
  simp [isMultipart, addFlags, withFlags]

@[simp] theorem wantsAcknowledge_addFlags_multipart :
    (m.addFlags .multipart).wantsAcknowledge = m.wantsAcknowledge := by
  simp [wantsAcknowledge, addFlags, withFlags]

@[simp] theorem exchangeId_addFlags (flags : Flags) :
    (m.addFlags flags).exchangeId = m.exchangeId := rfl

end Message

end Etp
