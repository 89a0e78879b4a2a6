import Etp.Session.Assemblies

/-!
# Collecting the parts of one exchange

While the parts of an exchange arrive, the assemblies of all other exchanges stay as they are, and at
the end they are what is left.  `Collecting` is the invariant; `Collecting.push` is its step.
-/

namespace Etp.Assemblies

@[ext] theorem ext {as bs : Assemblies} (h : as.toList = bs.toList) : as = bs := by
  cases as
  cases bs
  simp_all

theorem contains_eq_false {as : Assemblies} {id : Int64} :
    as.contains id = false ↔ ∀ a ∈ as.toList, a.exchangeId ≠ id := by
  simp [contains]

theorem toList_erase (as : Assemblies) (id : Int64) :
    (as.erase id).toList = as.toList.filter (fun a => a.exchangeId ≠ id) := rfl

theorem erase_of_contains {as : Assemblies} {id : Int64} (h : as.contains id = false) :
    as.erase id = as := by
  refine ext (List.filter_eq_self.2 (fun a ha => ?_))
  simpa using contains_eq_false.1 h a ha

@[simp] theorem contains_erase (as : Assemblies) (id : Int64) :
    (as.erase id).contains id = false := by
  apply contains_eq_false.2
  intro a ha
  simpa using (List.mem_filter.1 ha).2

theorem toList_push_of_contains {as : Assemblies} {id : Int64} (h : as.contains id = true)
    (part : Message) (now : Nat) :
    (as.push id part now).toList = as.toList.map (Assembly.addPart id part) := by
  rw [push, dif_pos h]

theorem toList_push_of_not_contains {as : Assemblies} {id : Int64} (h : as.contains id = false)
    (part : Message) (now : Nat) :
    (as.push id part now).toList = as.toList ++ [⟨id, now, [part]⟩] := by
  rw [push, dif_neg (by simp [h])]

@[simp] theorem contains_push (as : Assemblies) (id : Int64) (part : Message) (now : Nat) :
    (as.push id part now).contains id = true := by
  cases h : as.contains id with
  | true =>
    rw [contains, toList_push_of_contains h, List.any_map]
    simpa [Function.comp_def, contains] using h
  | false => simp [contains, toList_push_of_not_contains h]

@[simp] theorem erase_push (as : Assemblies) (id : Int64) (part : Message) (now : Nat) :
    (as.push id part now).erase id = as.erase id := by
  refine ext ?_
  rw [toList_erase, toList_erase]
  cases h : as.contains id with
  | true =>
    -- Only the assembly of the exchange is changed, and that one is dropped.
    rw [toList_push_of_contains h, List.filter_map]
    simp only [Function.comp_def, Assembly.exchangeId_addPart]
    refine (List.map_congr_left (fun a ha => ?_)).trans (List.map_id _)
    have hother : a.exchangeId ≠ id := by simpa using (List.mem_filter.1 ha).2
    simp [Assembly.addPart, hother]
  | false => simp [toList_push_of_not_contains h]

@[simp] theorem parts_push (as : Assemblies) (id : Int64) (part : Message) (now : Nat) :
    (as.push id part now).parts id = as.parts id ++ [part] := by
  cases h : as.contains id with
  | true =>
    obtain ⟨a, ha, hid⟩ := List.any_eq_true.1 h
    have hsome : (as.toList.find? (fun a => a.exchangeId == id)).isSome = true :=
      List.find?_isSome.2 ⟨a, ha, hid⟩
    obtain ⟨found, hfound⟩ := Option.isSome_iff_exists.1 hsome
    have hfoundId : found.exchangeId = id := by simpa using List.find?_some hfound
    rw [parts, parts, toList_push_of_contains h, List.find?_map]
    simp only [Function.comp_def, Assembly.exchangeId_addPart, hfound]
    simp [Assembly.addPart, hfoundId]
  | false =>
    have hnone : as.toList.find? (fun a => a.exchangeId == id) = none :=
      List.find?_eq_none.2 (fun a ha => by simpa using contains_eq_false.1 h a ha)
    simp [parts, toList_push_of_not_contains h, hnone]

/-- The parts of other exchanges stay as they are. -/
theorem parts_push_of_ne (as : Assemblies) {id other : Int64} (h : id ≠ other) (part : Message)
    (now : Nat) : (as.push other part now).parts id = as.parts id := by
  cases hcontains : as.contains other with
  | true =>
    rw [parts, parts, toList_push_of_contains hcontains, List.find?_map]
    simp only [Function.comp_def, Assembly.exchangeId_addPart]
    cases hfound : as.toList.find? (fun a => a.exchangeId == id) with
    | none => rfl
    | some a =>
      have hid : a.exchangeId = id := by simpa using List.find?_some hfound
      have hother : a.exchangeId ≠ other := hid ▸ h
      simp [Assembly.addPart, hother]
  | false =>
    have hnew : (other == id) = false := by simpa using Ne.symm h
    rw [parts, parts, toList_push_of_not_contains hcontains, List.find?_append]
    simp [hnew]

theorem parts_erase_of_ne (as : Assemblies) {id other : Int64} (h : id ≠ other) :
    (as.erase other).parts id = as.parts id := by
  rw [parts, parts, toList_erase, List.find?_filter]
  congr 3
  funext a
  by_cases hid : a.exchangeId = id
  · simp [hid, h]
  · simp [hid]

/-- The parts of an exchange that have arrived are `parts`, and `base` is what else there is. -/
structure Collecting (base : Assemblies) (id : Int64) (parts : List Message) (as : Assemblies) :
    Prop where
  parts_eq : as.parts id = parts
  contains_eq : as.contains id = !parts.isEmpty
  erase_eq : as.erase id = base

namespace Collecting

variable {base as : Assemblies} {id : Int64} {parts : List Message}

/-- Nothing has arrived of an exchange without an assembly. -/
theorem start (h : base.contains id = false) : Collecting base id [] base where
  parts_eq := by
    have hnone : base.toList.find? (fun a => a.exchangeId == id) = none :=
      List.find?_eq_none.2 (fun a ha => by simpa using contains_eq_false.1 h a ha)
    simp [Assemblies.parts, hnone]
  contains_eq := h
  erase_eq := erase_of_contains h

/-- A further part is added to those that have arrived. -/
theorem push (h : Collecting base id parts as) (part : Message) (now : Nat) :
    Collecting base id (parts ++ [part]) (as.push id part now) := by
  refine ⟨?_, ?_, ?_⟩
  · rw [parts_push, h.parts_eq]
  · simp
  · rw [erase_push, h.erase_eq]

/-- An exchange that has begun, or begins while there is room, is not turned away. -/
theorem admitted (h : Collecting base id parts as) {limit : Nat} (hroom : base.size < limit) :
    (!as.contains id && decide (limit ≤ as.size)) = false := by
  cases hcontains : as.contains id with
  | true => rfl
  | false =>
    have hsame : as = base := (erase_of_contains hcontains).symm.trans h.erase_eq
    simpa [hsame] using hroom

end Collecting

end Etp.Assemblies
