import Etp.Proofs.Message.Spread
import Mathlib.Data.List.Nodup
import Mathlib.Data.List.Perm.Subperm

/-!
# Message identifiers

A sender takes all its message identifiers from one counter.  `IdCounter.Draws` says which identifiers
were taken between two states of the counter, in which order, and `IdCounter.Supplies` which identifiers
were put to use.  Where a message is taken apart, one part may keep its identifier and every other part
has one that was taken for it, so no two parts share one (`parts_supplied`); an identifier may also be
taken in vain.
-/

namespace Etp

namespace IdCounter

/-- Taking `ids`, one after the other, makes a counter into another. -/
structure Draws (c : IdCounter) (ids : List Int64) (later : IdCounter) : Prop where
  next_eq : later.next = c.next + step * ids.length
  ids_eq : ids = (List.range ids.length).map (fun (i : Nat) => Int64.ofInt (c.next + step * i))

namespace Draws

variable {c c' c'' : IdCounter} {ids ids' : List Int64}

theorem refl (c : IdCounter) : Draws c [] c := ⟨by simp, rfl⟩

theorem draw (c : IdCounter) : Draws c [c.draw.1] c.draw.2 where
  next_eq := by simp [IdCounter.draw]
  ids_eq := by simp [IdCounter.draw]

theorem append (h : Draws c ids c') (h' : Draws c' ids' c'') : Draws c (ids ++ ids') c'' where
  next_eq := by
    rw [h'.next_eq, h.next_eq, List.length_append, Int.natCast_add, Int.mul_add, Int.add_assoc]
  ids_eq := by
    have hlater : ids' = (List.range ids'.length).map
        (fun (i : Nat) => Int64.ofInt (c.next + step * (ids.length + i : Nat))) := by
      have hids' := h'.ids_eq
      simp only [h.next_eq, Int.add_assoc, ← Int.mul_add, ← Int.natCast_add] at hids'
      exact hids'
    rw [List.length_append, List.range_add, List.map_append, List.map_map, ← h.ids_eq]
    exact congrArg (ids ++ ·) hlater

theorem le_next (h : Draws c ids c') : c.next ≤ c'.next := by
  have hnext := h.next_eq
  simp only [step] at hnext
  omega

/-- The identifiers are the numbers that the counter went through, unless it was overdrawn. -/
theorem toInt_eq (h : Draws c ids c') (hstart : 0 ≤ c.next) (hlimit : c'.isOverdrawn = false) :
    ids.map Int64.toInt = (List.range ids.length).map (fun (i : Nat) => c.next + step * i) := by
  have hmax : Int64.maxValue.toInt = 2 ^ 63 - 1 := by decide
  have hnext := h.next_eq
  simp only [isOverdrawn, hmax, decide_eq_false_iff_not, step] at hlimit hnext
  conv => lhs; rw [h.ids_eq]
  rw [List.map_map]
  apply List.map_congr_left
  intro i hi
  have hi := List.mem_range.1 hi
  refine Int64.toInt_ofInt_of_le ?_ ?_
  · simp only [step]
    omega
  · simp only [step]
    omega

theorem nodup (h : Draws c ids c') (hstart : 0 ≤ c.next) (hlimit : c'.isOverdrawn = false) :
    ids.Nodup := by
  refine List.Nodup.of_map Int64.toInt ?_
  rw [h.toInt_eq hstart hlimit]
  refine List.Nodup.map ?_ List.nodup_range
  intro i j hij
  simp only [step] at hij
  omega

/-- An identifier that was taken lies between the states of the counter, at an even distance. -/
theorem exists_of_mem (h : Draws c ids c') (hstart : 0 ≤ c.next) (hlimit : c'.isOverdrawn = false)
    {id : Int64} (hid : id ∈ ids) :
    ∃ i : Nat, id.toInt = c.next + step * i ∧ id.toInt < c'.next := by
  have hmem : id.toInt ∈ ids.map Int64.toInt := List.mem_map_of_mem hid
  rw [h.toInt_eq hstart hlimit] at hmem
  obtain ⟨i, hi, hvalue⟩ := List.mem_map.1 hmem
  have hi := List.mem_range.1 hi
  have hnext := h.next_eq
  refine ⟨i, hvalue.symm, ?_⟩
  simp only [step] at hvalue hnext
  omega

end Draws

/-- Between two states of a counter identifiers were drawn, and each of `ids` is one of these or one of
`own`; none is put to use twice. -/
def Supplies (c : IdCounter) (own ids : List Int64) (later : IdCounter) : Prop :=
  ∃ drawn, c.Draws drawn later ∧ ids.Subperm (own ++ drawn)

namespace Supplies

variable {c c' c'' : IdCounter} {own own' ids ids' : List Int64}

theorem refl (c : IdCounter) (own : List Int64) : Supplies c own own c :=
  ⟨[], .refl c, (List.Perm.of_eq (List.append_nil own)).symm.subperm⟩

/-- An identifier is drawn, and what there was before is left unused. -/
theorem draw (c : IdCounter) (own : List Int64) : Supplies c own [c.draw.1] c.draw.2 :=
  ⟨_, .draw c, (List.sublist_append_right own [c.draw.1]).subperm⟩

theorem append (h : Supplies c own ids c') (h' : Supplies c' own' ids' c'') :
    Supplies c (own ++ own') (ids ++ ids') c'' := by
  obtain ⟨drawn, hdraws, hids⟩ := h
  obtain ⟨drawn', hdraws', hids'⟩ := h'
  refine ⟨drawn ++ drawn', hdraws.append hdraws', (hids.append hids').trans (List.Perm.subperm ?_)⟩
  rw [List.append_assoc, List.append_assoc]
  refine List.Perm.append_left own ?_
  rw [← List.append_assoc, ← List.append_assoc]
  exact List.perm_append_comm.append_right drawn'

/-- What was drawn before is among what was drawn in all. -/
theorem after (hdraws : c.Draws ids c') (h : Supplies c' (own ++ ids) ids' c'') :
    Supplies c own ids' c'' := by
  obtain ⟨drawn, hdraws', hids⟩ := h
  exact ⟨ids ++ drawn, hdraws.append hdraws', by rwa [List.append_assoc] at hids⟩

end Supplies

end IdCounter

namespace Message

/-- The message identifier in the header of a frame. -/
def frameId? (frame : Bytes) : Option Int64 :=
  match Header.read.run frame with
  | .ok (header, _) => some header.messageId
  | .error _ => none

theorem frameId?_encode (m : Message) : frameId? m.encode = some m.header.messageId := by
  rw [frameId?, run_encode]

/-- The message identifiers of some parts, in their order. -/
def partIds (parts : List Part) : List Int64 := parts.map (·.message.header.messageId)

@[simp] theorem partIds_cons (p : Part) (parts : List Part) :
    partIds (p :: parts) = p.message.header.messageId :: partIds parts := rfl

@[simp] theorem partIds_append (parts later : List Part) :
    partIds (parts ++ later) = partIds parts ++ partIds later := List.map_append

section Parts

variable (limit : Option Nat) (fresh : Fresh)

theorem refusal_supplied (own : List Int64) (fault : Fault) (correlationId : Int64) :
    fresh.ids.Supplies own (partIds (refusal fault correlationId fresh).1)
      (refusal fault correlationId fresh).2.ids := .draw fresh.ids own

theorem onePart_supplied (m : Message) :
    fresh.ids.Supplies [m.header.messageId] (partIds (onePart limit m fresh).1)
      (onePart limit m fresh).2.ids := by
  unfold onePart
  split
  · exact .refl fresh.ids _
  · exact refusal_supplied fresh _ _ _

theorem chunkParts_supplied (exchangeId : Int64) (isFinal : Bool) (bodies : List Body) :
    fresh.ids.Supplies [] (partIds (chunkParts limit exchangeId isFinal bodies fresh).1)
      (chunkParts limit exchangeId isFinal bodies fresh).2.ids := by
  induction bodies generalizing fresh with
  | nil => exact .refl fresh.ids []
  | cons body bodies ih =>
    have hone := onePart_supplied limit fresh.drawId.2
      (ofChunk body fresh.drawId.1 exchangeId (isFinal && bodies.isEmpty))
    have hall := hone.append (ih _)
    rw [← partIds_append] at hall
    exact .after (.draw fresh.ids) hall

theorem chunkedParts_supplied (max : Nat) (m : Message) (object : DataObject) :
    fresh.ids.Supplies [m.header.messageId] (partIds (chunkedParts max m object fresh).1)
      (chunkedParts max m object fresh).2.ids := by
  unfold chunkedParts
  simp only
  split
  · exact refusal_supplied fresh _ _ _
  · split
    · exact refusal_supplied fresh.drawBlob.2 _ _ _
    · rename_i chunks _
      have hone := onePart_supplied (some max) fresh.drawBlob.2 (m.referencer fresh.drawBlob.1)
      have hall := hone.append (chunkParts_supplied (some max) _ m.exchangeId m.isFinal chunks)
      rw [← partIds_append] at hall
      exact hall

/-- The parts of a message have distinct identifiers: that of the message, or drawn for them. -/
theorem parts_supplied (m : Message) :
    fresh.ids.Supplies [m.header.messageId] (partIds (m.parts limit fresh).1)
      (m.parts limit fresh).2.ids := by
  fun_induction parts limit m fresh with
  | case1 m fresh => exact .refl fresh.ids _
  | case2 => exact refusal_supplied _ _ _ _
  | case3 => exact refusal_supplied _ _ _ _
  | case4 => exact refusal_supplied _ _ _ _
  | case5 m fresh hfits hplural hsize max object =>
    exact chunkedParts_supplied fresh max m object
  | case6 => exact refusal_supplied _ _ _ _
  | case7 => exact refusal_supplied _ _ _ _
  | case8 m fresh hfits hplural size hsize head rest hsplit id fresh' hdraw first fresh'' hfirst
      second fresh''' hsecond ihfirst ihsecond =>
    rw [hfirst] at ihfirst
    rw [hsecond] at ihsecond
    cases hdraw
    have hall := ihfirst.append ihsecond
    rw [← partIds_append] at hall
    exact .after (.draw fresh.ids) hall

end Parts

end Message

end Etp
