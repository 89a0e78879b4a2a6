import Etp.Proofs.Message.Identifiers

/-!
# The order of identifiers

Identifiers are drawn in ascending order, but not in the order in which they are sent: the second half of a
message gets its identifier before the first half is taken apart, and the replies to a message get theirs
before any of them is.  `pairwise_partIds_iff` says when the identifiers of the parts of a message ascend
all the same, and `pairwise_partsAll_iff` when those of several messages do that are sent one after the other.
-/

namespace Etp

namespace IdCounter

/-- Each of some identifiers is one of `own`, or lies between two states of a counter. -/
structure Within (c : IdCounter) (own ids : List Int64) (later : IdCounter) : Prop where
  le_next : c.next ≤ later.next
  of_mem : ∀ id ∈ ids, id ∈ own ∨ (c.next ≤ id.toInt ∧ id.toInt < later.next)

theorem Within.append {c c' c'' : IdCounter} {own own' ids ids' : List Int64} (h : c.Within own ids c')
    (h' : c'.Within own' ids' c'') : c.Within (own ++ own') (ids ++ ids') c'' := by
  have hle := h.le_next
  have hle' := h'.le_next
  refine ⟨Int.le_trans hle hle', ?_⟩
  intro id hid
  rcases List.mem_append.1 hid with hmem | hmem
  · rcases h.of_mem id hmem with hown | ⟨habove, hbelow⟩
    · exact .inl (List.mem_append_left _ hown)
    · exact .inr ⟨habove, by omega⟩
  · rcases h'.of_mem id hmem with hown | ⟨habove, hbelow⟩
    · exact .inl (List.mem_append_right _ hown)
    · exact .inr ⟨by omega, hbelow⟩

theorem isOverdrawn_of_le {c later : IdCounter} (hle : c.next ≤ later.next)
    (hlimit : later.isOverdrawn = false) : c.isOverdrawn = false := by
  simp only [isOverdrawn, decide_eq_false_iff_not] at hlimit ⊢
  omega

theorem Supplies.within {c later : IdCounter} {own ids : List Int64} (h : c.Supplies own ids later)
    (hstart : 0 ≤ c.next) (hlimit : later.isOverdrawn = false) : c.Within own ids later := by
  obtain ⟨drawn, hdraws, hids⟩ := h
  refine ⟨hdraws.le_next, ?_⟩
  intro id hid
  rcases List.mem_append.1 (hids.subset hid) with hown | hdrawn
  · exact .inl hown
  · obtain ⟨i, hvalue, hbelow⟩ := hdraws.exists_of_mem hstart hlimit hdrawn
    simp only [step] at hvalue
    exact .inr ⟨by omega, hbelow⟩

theorem Draws.pairwise {c later : IdCounter} {ids : List Int64} (h : c.Draws ids later)
    (hstart : 0 ≤ c.next) (hlimit : later.isOverdrawn = false) : ids.Pairwise (· < ·) := by
  have hvalues : (ids.map Int64.toInt).Pairwise (· < ·) := by
    rw [h.toInt_eq hstart hlimit, List.pairwise_map]
    refine List.pairwise_lt_range.imp ?_
    intro i j hij
    simp only [step]
    omega
  exact (List.pairwise_map.1 hvalues).imp Int64.lt_iff_toInt_lt.2

theorem Supplies.le_next {c later : IdCounter} {own ids : List Int64} (h : c.Supplies own ids later) :
    c.next ≤ later.next := by
  obtain ⟨drawn, hdraws, -⟩ := h
  exact hdraws.le_next

/-- Identifiers ascend through two groups if they do so in each of them, and the first group has none that
was drawn for it or the second makes no use of those that it brings along. -/
theorem Within.pairwise_append_iff {c c' c'' : IdCounter} {own own' ids ids' : List Int64}
    (h : c.Within own ids c') (h' : c'.Within own' ids' c'')
    (hown : ∀ id ∈ own, id.toInt < c.next) (hown' : ∀ id' ∈ own', id'.toInt < c.next)
    (hbefore : ∀ id ∈ own, ∀ id' ∈ own', id < id') :
    (ids ++ ids').Pairwise (· < ·) ↔
      ids.Pairwise (· < ·) ∧ ids'.Pairwise (· < ·) ∧
        ((∀ id ∈ ids, id ∈ own) ∨ ∀ id' ∈ own', id' ∉ ids') := by
  rw [List.pairwise_append]
  refine and_congr_right fun _ => and_congr_right fun _ => ?_
  have hle := h.le_next
  constructor
  · intro hacross
    by_cases hfirst : ∀ id ∈ ids, id ∈ own
    · exact .inl hfirst
    · right
      intro id' hid' hused
      simp only [not_forall] at hfirst
      obtain ⟨id, hid, hdrawn⟩ := hfirst
      -- An identifier drawn for the first group is above all that were there before.
      have hlt := Int64.lt_iff_toInt_lt.1 (hacross id hid id' hused)
      have habove := ((h.of_mem id hid).resolve_left hdrawn).1
      have hbelow := hown' id' hid'
      omega
  · intro hplaces id hid id' hid'
    rw [Int64.lt_iff_toInt_lt]
    have hfirst : id.toInt < c'.next := by
      rcases h.of_mem id hid with hmem | ⟨-, hbelow⟩
      · have hbelow := hown id hmem
        omega
      · exact hbelow
    rcases h'.of_mem id' hid' with hmem' | ⟨habove, -⟩
    · rcases hplaces with hall | hnone
      · exact Int64.lt_iff_toInt_lt.1 (hbefore id (hall id hid) id' hmem')
      · exact absurd hid' (hnone id' hmem')
    · omega

end IdCounter

namespace Message

/-! ## The first part and the others -/

/-- What is sent for a message begins with a part under its own identifier or with a refusal.  The others
have identifiers that were drawn for them, and there are some if the message was too large. -/
structure Headed (limit : Option Nat) (m : Message) (fresh : Fresh) (first : Part) (others : List Part) :
    Prop where
  kept : first.isRefusal = false → first.message.header.messageId = m.header.messageId
  drawn : first.isRefusal = true → fresh.ids.next ≤ first.message.header.messageId.toInt
  others_drawn : ∀ id ∈ partIds others, fresh.ids.next ≤ id.toInt
  large : m.fits limit = false → first.isRefusal = true ∨ others ≠ []

section Parts

variable {limit : Option Nat} {fresh : Fresh} {m : Message}

theorem Headed.whole (hfits : m.fits limit = true) : Headed limit m fresh m.asPart [] where
  kept _ := rfl
  drawn hrefused := by cases hrefused
  others_drawn id hid := by cases hid
  large hlarge := by
    rw [hfits] at hlarge
    cases hlarge

theorem headed_refusal (limit : Option Nat) (m : Message) (fault : Fault) (correlationId : Int64)
    (hstart : 0 ≤ fresh.ids.next)
    (hlimit : (refusal fault correlationId fresh).2.ids.isOverdrawn = false) :
    ∃ first, (refusal fault correlationId fresh).1 = [first] ∧ Headed limit m fresh first [] := by
  have hwithin := (refusal_supplied fresh [] fault correlationId).within hstart hlimit
  have hdrawn := (hwithin.of_mem _ (List.mem_singleton.2 rfl)).resolve_left List.not_mem_nil
  refine ⟨_, rfl, ?_, ?_, ?_, ?_⟩
  · intro hsent
    cases hsent
  · exact fun _ => hdrawn.1
  · intro id hid
    cases hid
  · exact fun _ => .inl rfl

theorem headed_onePart (limit : Option Nat) (m : Message) (fresh : Fresh)
    (hstart : 0 ≤ fresh.ids.next)
    (hlimit : (onePart limit m fresh).2.ids.isOverdrawn = false) :
    ∃ first, (onePart limit m fresh).1 = [first] ∧ Headed limit m fresh first [] := by
  unfold onePart at hlimit ⊢
  by_cases hfits : m.fits limit = true
  · rw [if_pos hfits]
    exact ⟨m.asPart, rfl, .whole hfits⟩
  · rw [if_neg hfits] at hlimit ⊢
    exact headed_refusal limit m _ _ hstart hlimit

/-- Content that is not empty is sent in one chunk at least. -/
theorem chunkParts_ne_nil {object : DataObject} {blob : Uuid} {size : Nat} {bodies : List Body}
    (hobjects : m.body.objects = some [object]) (hdata : object.data ≠ []) (hsize : size ≠ 0)
    (hbodies : (chunksOf blob size ((m.body.write.length + size - 1) / size) object.data).mapM
      (·.toBody? m.header.protocol) = some bodies) :
    (chunkParts limit m.exchangeId m.isFinal bodies fresh).1 ≠ [] := by
  have hlength := Body.length_data_le hobjects (List.mem_singleton.2 rfl)
  have hreach := Nat.le_trans hlength (le_ceil_mul m.body.write.length (Nat.pos_of_ne_zero hsize))
  cases bodies with
  | nil =>
    have hcontent := data_chunksOf blob hreach
    rw [← (Chunk.bodies_of_mapM hbodies).1] at hcontent
    exact absurd hcontent.symm hdata
  | cons body bodies =>
    rw [chunkParts_cons]
    unfold onePart
    split
    · exact List.cons_ne_nil _ _
    · exact List.cons_ne_nil _ _

theorem headed_chunkedParts {max : Nat} {object : DataObject} (hobjects : m.body.objects = some [object])
    (hstart : 0 ≤ fresh.ids.next)
    (hlimit : (chunkedParts max m object fresh).2.ids.isOverdrawn = false) :
    ∃ first others, (chunkedParts max m object fresh).1 = first :: others ∧
      Headed limit m fresh first others := by
  unfold chunkedParts at hlimit ⊢
  simp only at hlimit ⊢
  split at hlimit
  case isTrue hnone =>
    rw [if_pos hnone]
    obtain ⟨first, hparts, hheaded⟩ := headed_refusal limit m _ _ hstart hlimit
    exact ⟨first, [], hparts, hheaded⟩
  case isFalse hroom =>
    rw [if_neg hroom]
    simp only [Bool.or_eq_true, decide_eq_true_eq, List.isEmpty_iff, not_or] at hroom
    split at hlimit
    case h_1 =>
      obtain ⟨first, hparts, hheaded⟩ := headed_refusal limit m _ _ hstart hlimit
      exact ⟨first, [], hparts, hheaded⟩
    case h_2 bodies hbodies =>
      let carrier := onePart (some max) (m.referencer fresh.drawBlob.1) fresh.drawBlob.2
      have hcarrier := onePart_supplied (some max) fresh.drawBlob.2 (m.referencer fresh.drawBlob.1)
      have hchunks := chunkParts_supplied (some max) carrier.2 m.exchangeId m.isFinal bodies
      have hle : fresh.ids.next ≤ carrier.2.ids.next := hcarrier.le_next
      obtain ⟨first, hfirst, hheaded⟩ := headed_onePart (some max) (m.referencer fresh.drawBlob.1)
        fresh.drawBlob.2 hstart (IdCounter.isOverdrawn_of_le hchunks.le_next hlimit)
      refine ⟨first, (chunkParts (some max) m.exchangeId m.isFinal bodies carrier.2).1, ?_, ?_⟩
      · simp only [hfirst]
        rfl
      · refine ⟨hheaded.kept, hheaded.drawn, ?_, ?_⟩
        · intro id hid
          have hwithin := hchunks.within (by omega) hlimit
          have hdrawn := (hwithin.of_mem id hid).resolve_left List.not_mem_nil
          omega
        · exact fun _ => .inr (chunkParts_ne_nil hobjects hroom.2 hroom.1 hbodies)

theorem toInt_drawId (hstart : 0 ≤ fresh.ids.next)
    (hlimit : fresh.drawId.2.ids.isOverdrawn = false) : fresh.drawId.1.toInt = fresh.ids.next := by
  have hdrawn := (IdCounter.Draws.draw fresh.ids).toInt_eq hstart hlimit
  simp only [List.map_cons, List.map_nil, List.length_singleton, List.range_one, Int.natCast_zero,
    Int.mul_zero, Int.add_zero] at hdrawn
  exact (List.cons.inj hdrawn).1

theorem Headed.append {head rest : Body} {later : Fresh} {first second : Part} {others others' : List Part}
    (hfirst : Headed limit (m.firstHalf head) fresh.drawId.2 first others)
    (hsecond : Headed limit (m.secondHalf rest fresh.drawId.1) later second others')
    (hid : fresh.drawId.1.toInt = fresh.ids.next)
    (hlater : fresh.drawId.2.ids.next ≤ later.ids.next) :
    Headed limit m fresh first (others ++ second :: others') := by
  have hdraw : fresh.drawId.2.ids.next = fresh.ids.next + 2 := rfl
  refine ⟨hfirst.kept, ?_, ?_, ?_⟩
  · intro hrefused
    have hdrawn := hfirst.drawn hrefused
    omega
  · intro id hid'
    rw [partIds_append, partIds_cons] at hid'
    rcases List.mem_append.1 hid' with hmem | hmem
    · have hdrawn := hfirst.others_drawn id hmem
      omega
    · rcases List.mem_cons.1 hmem with rfl | hmem
      · cases hrefused : second.isRefusal with
        | true =>
          have hdrawn := hsecond.drawn hrefused
          omega
        | false =>
          rw [hsecond.kept hrefused]
          exact Int.le_of_eq hid.symm
      · have hdrawn := hsecond.others_drawn id hmem
        omega
  · exact fun _ => .inr (List.append_ne_nil_of_right_ne_nil _ (List.cons_ne_nil _ _))

/-- What is sent for any message begins under its own identifier or with a refusal. -/
theorem headed_parts (limit : Option Nat) (m : Message) (fresh : Fresh) (hstart : 0 ≤ fresh.ids.next)
    (hlimit : (m.parts limit fresh).2.ids.isOverdrawn = false) :
    ∃ first others, (m.parts limit fresh).1 = first :: others ∧ Headed limit m fresh first others := by
  fun_induction parts limit m fresh with
  | case1 m fresh hfits => exact ⟨m.asPart, [], rfl, .whole hfits⟩
  | case2 m fresh refused hfits | case3 m fresh refused hfits | case4 m fresh refused hfits
  | case6 m fresh refused hfits | case7 m fresh refused hfits =>
    obtain ⟨first, hparts, hheaded⟩ := headed_refusal limit m _ _ hstart hlimit
    exact ⟨first, [], hparts, hheaded⟩
  | case5 m fresh hfits hplural hsize max object hobjects =>
    exact headed_chunkedParts hobjects hstart hlimit
  | case8 m fresh hfits hplural size hsize head rest hsplit id fresh' hdraw first fresh'' hfirst
      second fresh''' hsecond ihfirst ihsecond =>
    obtain ⟨rfl, rfl⟩ : id = fresh.drawId.1 ∧ fresh' = fresh.drawId.2 := by
      cases hdraw
      exact ⟨rfl, rfl⟩
    have hle := (parts_supplied limit fresh.drawId.2 (m.firstHalf head)).le_next
    have hle' := (parts_supplied limit fresh'' (m.secondHalf rest fresh.drawId.1)).le_next
    have hdraw : fresh.drawId.2.ids.next = fresh.ids.next + 2 := rfl
    simp only [hfirst] at ihfirst hle
    simp only [hsecond] at ihsecond hle'
    have hlimit' := IdCounter.isOverdrawn_of_le hle' hlimit
    obtain ⟨p, others, rfl, hheaded⟩ := ihfirst (by omega) hlimit'
    obtain ⟨q, others', rfl, hheaded'⟩ := ihsecond (by omega) hlimit
    refine ⟨p, others ++ q :: others', rfl, hheaded.append hheaded' ?_ hle⟩
    exact toInt_drawId hstart (IdCounter.isOverdrawn_of_le hle hlimit')

/-- Whether a refusal is sent in the first place for a message. -/
def refusedFirst (limit : Option Nat) (m : Message) (fresh : Fresh) : Bool :=
  (m.parts limit fresh).1.head?.any (·.isRefusal)

variable (hstart : 0 ≤ fresh.ids.next) (hown : m.header.messageId.toInt < fresh.ids.next)
  (hlimit : (m.parts limit fresh).2.ids.isOverdrawn = false)

include hstart hown hlimit

/-- The identifier of a message is put to use unless a refusal is sent in the first place. -/
theorem messageId_mem_partIds_iff :
    m.header.messageId ∈ partIds (m.parts limit fresh).1 ↔ m.refusedFirst limit fresh = false := by
  obtain ⟨first, others, hparts, hheaded⟩ := headed_parts limit m fresh hstart hlimit
  have hothers : m.header.messageId ∉ partIds others := by
    intro hmem
    have hdrawn := hheaded.others_drawn _ hmem
    omega
  have hhead : m.refusedFirst limit fresh = first.isRefusal := by
    rw [refusedFirst, hparts]
    rfl
  rw [hhead, hparts, partIds_cons, List.mem_cons, or_iff_left hothers]
  cases hrefused : first.isRefusal with
  | false => exact iff_of_true (hheaded.kept hrefused).symm rfl
  | true =>
    refine iff_of_false ?_ Bool.noConfusion
    intro heq
    have hdrawn := hheaded.drawn hrefused
    rw [← heq] at hdrawn
    omega

/-- A message that is within the limit is sent under its own identifier; otherwise some part has another
one. -/
theorem forall_partIds_eq_iff :
    (∀ id ∈ partIds (m.parts limit fresh).1, id ∈ [m.header.messageId]) ↔ m.fits limit = true := by
  constructor
  · intro hall
    by_contra hlarge
    obtain ⟨first, others, hparts, hheaded⟩ := headed_parts limit m fresh hstart hlimit
    rw [hparts, partIds_cons] at hall
    rcases hheaded.large (by simpa using hlarge) with hrefused | hothers
    · have hdrawn := hheaded.drawn hrefused
      rw [List.mem_singleton.1 (hall _ List.mem_cons_self)] at hdrawn
      omega
    · obtain ⟨part, hpart⟩ := List.exists_mem_of_ne_nil others hothers
      have hmem : part.message.header.messageId ∈ partIds others := List.mem_map_of_mem hpart
      have hdrawn := hheaded.others_drawn _ hmem
      rw [List.mem_singleton.1 (hall _ (List.mem_cons_of_mem _ hmem))] at hdrawn
      omega
  · intro hfits
    rw [parts_of_fits hfits]
    exact fun id hid => hid

end Parts

/-! ## Parts in order -/

section Uncut

variable (limit : Option Nat) (m : Message) (fresh : Fresh)

theorem pairwise_refusal (fault : Fault) (correlationId : Int64) :
    (partIds (refusal fault correlationId fresh).1).Pairwise (· < ·) := List.pairwise_singleton _ _

theorem pairwise_onePart : (partIds (onePart limit m fresh).1).Pairwise (· < ·) := by
  unfold onePart
  split
  · exact List.pairwise_singleton _ _
  · exact pairwise_refusal fresh _ _

theorem pairwise_chunkParts (exchangeId : Int64) (isFinal : Bool) (bodies : List Body)
    (hstart : 0 ≤ fresh.ids.next)
    (hlimit : (chunkParts limit exchangeId isFinal bodies fresh).2.ids.isOverdrawn = false) :
    (partIds (chunkParts limit exchangeId isFinal bodies fresh).1).Pairwise (· < ·) := by
  induction bodies generalizing fresh with
  | nil => exact .nil
  | cons body bodies ih =>
    rw [chunkParts_cons] at hlimit ⊢
    let m := ofChunk body fresh.drawId.1 exchangeId (isFinal && bodies.isEmpty)
    have hone : fresh.ids.Supplies [] (partIds (onePart limit m fresh.drawId.2).1)
        (onePart limit m fresh.drawId.2).2.ids :=
      .after (.draw fresh.ids) (onePart_supplied limit fresh.drawId.2 m)
    have hothers := chunkParts_supplied limit (onePart limit m fresh.drawId.2).2 exchangeId isFinal bodies
    have hstart' := Int.le_trans hstart hone.le_next
    rw [partIds_append, (hone.within hstart (IdCounter.isOverdrawn_of_le hothers.le_next
      hlimit)).pairwise_append_iff (hothers.within hstart' hlimit) (by simp) (by simp) (by simp)]
    refine ⟨pairwise_onePart limit m fresh.drawId.2, ih _ hstart' hlimit, .inr ?_⟩
    intro id hid
    cases hid

theorem pairwise_chunkedParts (max : Nat) (object : DataObject) (hstart : 0 ≤ fresh.ids.next)
    (hown : m.header.messageId.toInt < fresh.ids.next)
    (hlimit : (chunkedParts max m object fresh).2.ids.isOverdrawn = false) :
    (partIds (chunkedParts max m object fresh).1).Pairwise (· < ·) := by
  unfold chunkedParts at hlimit ⊢
  simp only at hlimit ⊢
  split at hlimit
  case isTrue hnone =>
    rw [if_pos hnone]
    exact pairwise_refusal fresh _ _
  case isFalse hroom =>
    rw [if_neg hroom]
    split at hlimit
    case h_1 => exact pairwise_refusal fresh.drawBlob.2 _ _
    case h_2 bodies hbodies =>
      let carrier := onePart (some max) (m.referencer fresh.drawBlob.1) fresh.drawBlob.2
      have hcarrier := onePart_supplied (some max) fresh.drawBlob.2 (m.referencer fresh.drawBlob.1)
      have hchunks := chunkParts_supplied (some max) carrier.2 m.exchangeId m.isFinal bodies
      have hstart' : 0 ≤ carrier.2.ids.next := Int.le_trans hstart hcarrier.le_next
      have hfirst := hcarrier.within hstart (IdCounter.isOverdrawn_of_le hchunks.le_next hlimit)
      rw [partIds_append, hfirst.pairwise_append_iff (hchunks.within hstart' hlimit)
        (List.forall_mem_singleton.2 hown) (by simp) (by simp)]
      refine ⟨pairwise_onePart _ _ _, pairwise_chunkParts _ _ _ _ _ hstart' hlimit, .inr ?_⟩
      intro id hid
      cases hid

end Uncut

/-- The bodies of the halves of a message that is too large, if it is halved. -/
def halves (limit : Option Nat) (m : Message) : Option (Body × Body) :=
  if m.fits limit || !m.isPlural then none
  else
    match m.body.cuttableSize with
    | some (size + 2) => m.body.split ((size + 3) / 2)
    | _ => none

/-- The identifiers of the parts of a message are in order if it is not halved.  If it is, then those of both
halves have to be, and the first half has to fit, since the identifier of the second half is older than any
that is drawn for the first one, unless it is not put to use. -/
inductive InOrder (limit : Option Nat) : Message → Fresh → Prop
  | uncut {m : Message} {fresh : Fresh} (h : m.halves limit = none) : InOrder limit m fresh
  | halved {m : Message} {fresh : Fresh} {head rest : Body} (h : m.halves limit = some (head, rest))
    (hfirst : InOrder limit (m.firstHalf head) fresh.drawId.2)
    (hsecond : InOrder limit (m.secondHalf rest fresh.drawId.1)
      ((m.firstHalf head).parts limit fresh.drawId.2).2)
    (hplaces : (m.firstHalf head).fits limit = true ∨
      (m.secondHalf rest fresh.drawId.1).refusedFirst limit
        ((m.firstHalf head).parts limit fresh.drawId.2).2 = true) :
    InOrder limit m fresh

theorem inOrder_iff_of_halves {limit : Option Nat} {m : Message} {fresh : Fresh} {head rest : Body}
    (h : m.halves limit = some (head, rest)) :
    InOrder limit m fresh ↔
      let later := ((m.firstHalf head).parts limit fresh.drawId.2).2
      let second := m.secondHalf rest fresh.drawId.1
      InOrder limit (m.firstHalf head) fresh.drawId.2 ∧ InOrder limit second later ∧
        ((m.firstHalf head).fits limit = true ∨ second.refusedFirst limit later = true) := by
  constructor
  · intro horder
    cases horder with
    | uncut hnone =>
      rw [h] at hnone
      cases hnone
    | halved hsome hfirst hsecond hplaces =>
      rw [h] at hsome
      cases hsome
      exact ⟨hfirst, hsecond, hplaces⟩
  · rintro ⟨hfirst, hsecond, hplaces⟩
    exact .halved h hfirst hsecond hplaces

/-- The identifiers that the halves bring along are older than all that are drawn for their parts. -/
theorem older_halves {m : Message} {fresh : Fresh} (hown : m.header.messageId.toInt < fresh.ids.next)
    (hid : fresh.drawId.1.toInt = fresh.ids.next) (head rest : Body) :
    (m.firstHalf head).header.messageId.toInt < fresh.drawId.2.ids.next ∧
      (m.secondHalf rest fresh.drawId.1).header.messageId.toInt < fresh.drawId.2.ids.next := by
  have hdraw : fresh.drawId.2.ids.next = fresh.ids.next + 2 := rfl
  constructor
  · show m.header.messageId.toInt < fresh.drawId.2.ids.next
    omega
  · show fresh.drawId.1.toInt < fresh.drawId.2.ids.next
    omega

/-- The identifiers of the parts of both halves ascend if they do so for each half, and the second half does
not come after an identifier that was drawn for the first one. -/
theorem pairwise_halves_iff (limit : Option Nat) {m : Message} {fresh : Fresh}
    (hstart : 0 ≤ fresh.ids.next) (hown : m.header.messageId.toInt < fresh.ids.next) (head rest : Body) :
    let first := (m.firstHalf head).parts limit fresh.drawId.2
    let second := (m.secondHalf rest fresh.drawId.1).parts limit first.2
    second.2.ids.isOverdrawn = false →
      ((partIds (first.1 ++ second.1)).Pairwise (· < ·) ↔
        (partIds first.1).Pairwise (· < ·) ∧ (partIds second.1).Pairwise (· < ·) ∧
          ((m.firstHalf head).fits limit = true ∨
            (m.secondHalf rest fresh.drawId.1).refusedFirst limit first.2 = true)) := by
  intro first second hlimit
  have hfirst := parts_supplied limit fresh.drawId.2 (m.firstHalf head)
  have hsecond := parts_supplied limit first.2 (m.secondHalf rest fresh.drawId.1)
  have hle : fresh.drawId.2.ids.next ≤ first.2.ids.next := hfirst.le_next
  have hlimit' := IdCounter.isOverdrawn_of_le hsecond.le_next hlimit
  have hid := toInt_drawId hstart (IdCounter.isOverdrawn_of_le hle hlimit')
  have hdraw : fresh.drawId.2.ids.next = fresh.ids.next + 2 := rfl
  obtain ⟨hown', hnew⟩ := older_halves hown hid head rest
  have hbefore : m.header.messageId < fresh.drawId.1 := by
    rw [Int64.lt_iff_toInt_lt, hid]
    exact hown
  rw [partIds_append, (hfirst.within (by omega) hlimit').pairwise_append_iff
    (hsecond.within (by omega) hlimit) (List.forall_mem_singleton.2 hown')
    (List.forall_mem_singleton.2 hnew)
    (List.forall_mem_singleton.2 (List.forall_mem_singleton.2 hbefore))]
  rw [forall_partIds_eq_iff (by omega) hown' hlimit', List.forall_mem_singleton,
    messageId_mem_partIds_iff (by omega) (Int.lt_of_lt_of_le hnew hle) hlimit, Bool.not_eq_false]

/-- The identifiers of the parts of a message ascend exactly if they are in order. -/
theorem pairwise_partIds_iff (limit : Option Nat) (m : Message) (fresh : Fresh)
    (hstart : 0 ≤ fresh.ids.next) (hown : m.header.messageId.toInt < fresh.ids.next)
    (hlimit : (m.parts limit fresh).2.ids.isOverdrawn = false) :
    (partIds (m.parts limit fresh).1).Pairwise (· < ·) ↔ InOrder limit m fresh := by
  fun_induction parts limit m fresh with
  | case1 m fresh hfits =>
    have huncut : m.halves limit = none := by simp [halves, hfits]
    exact iff_of_true (List.pairwise_singleton _ _) (.uncut huncut)
  | case2 m fresh refused hfits hplural =>
    have huncut : m.halves limit = none := by simp [halves, hplural]
    exact iff_of_true (pairwise_refusal _ _ _) (.uncut huncut)
  | case3 m fresh refused hfits hplural hsize | case4 m fresh refused hfits hplural hsize
  | case6 m fresh refused hfits hplural hsize =>
    have huncut : m.halves limit = none := by simp [halves, hsize]
    exact iff_of_true (pairwise_refusal _ _ _) (.uncut huncut)
  | case5 m fresh hfits hplural hsize max object hobjects =>
    have huncut : m.halves limit = none := by simp [halves, hsize]
    exact iff_of_true (pairwise_chunkedParts m fresh max object hstart hown hlimit) (.uncut huncut)
  | case7 m fresh refused hfits hplural size hsize hsplit =>
    have huncut : m.halves limit = none := by simp [halves, hsize, hsplit]
    exact iff_of_true (pairwise_refusal _ _ _) (.uncut huncut)
  | case8 m fresh hfits hplural size hsize head rest hsplit id fresh' hdraw first fresh'' hfirst
      second fresh''' hsecond ihfirst ihsecond =>
    obtain ⟨rfl, rfl⟩ : id = fresh.drawId.1 ∧ fresh' = fresh.drawId.2 := by
      cases hdraw
      exact ⟨rfl, rfl⟩
    -- The second half has its identifier from before the first half is taken apart.
    have hhalves : m.halves limit = some (head, rest) := by simp [halves, hfits, hplural, hsize, hsplit]
    have hsplits := pairwise_halves_iff limit hstart hown head rest
    have hle := (parts_supplied limit fresh.drawId.2 (m.firstHalf head)).le_next
    have hle' := (parts_supplied limit fresh'' (m.secondHalf rest fresh.drawId.1)).le_next
    rw [inOrder_iff_of_halves hhalves]
    simp only [hfirst, hsecond] at hsplits ihfirst ihsecond hle hle' ⊢
    have hdraw : fresh.drawId.2.ids.next = fresh.ids.next + 2 := rfl
    have hlimit' := IdCounter.isOverdrawn_of_le hle' hlimit
    have hid := toInt_drawId hstart (IdCounter.isOverdrawn_of_le hle hlimit')
    obtain ⟨hown', hnew⟩ := older_halves hown hid head rest
    have hnew := Int.lt_of_lt_of_le hnew hle
    rw [hsplits hlimit, ihfirst (by omega) hown' hlimit', ihsecond (by omega) hnew hlimit]

/-! ## Several messages -/

/-- What is sent for several messages, one message after the other. -/
def partsAll (limit : Option Nat) : List Message → Fresh → List Part × Fresh
  | [], fresh => ([], fresh)
  | m :: ms, fresh =>
    let first := m.parts limit fresh
    let others := partsAll limit ms first.2
    (first.1 ++ others.1, others.2)

/-- A refusal is sent in the first place for each of several messages. -/
def AllRefusedFirst (limit : Option Nat) : List Message → Fresh → Prop
  | [], _ => True
  | m :: ms, fresh =>
    m.refusedFirst limit fresh = true ∧ AllRefusedFirst limit ms (m.parts limit fresh).2

/-- The parts of each of several messages are in order, and a message that does not fit is followed only by
messages whose identifiers are not put to use. -/
def AllInOrder (limit : Option Nat) : List Message → Fresh → Prop
  | [], _ => True
  | m :: ms, fresh =>
    let later := (m.parts limit fresh).2
    InOrder limit m fresh ∧ AllInOrder limit ms later ∧
      (m.fits limit = true ∨ AllRefusedFirst limit ms later)

section Several

variable {limit : Option Nat}

theorem partsAll_supplied (limit : Option Nat) (ms : List Message) (fresh : Fresh) :
    fresh.ids.Supplies (ms.map (·.header.messageId)) (partIds (partsAll limit ms fresh).1)
      (partsAll limit ms fresh).2.ids := by
  induction ms generalizing fresh with
  | nil => exact .refl fresh.ids []
  | cons m ms ih =>
    have hall := (parts_supplied limit fresh m).append (ih (m.parts limit fresh).2)
    rw [← partIds_append] at hall
    exact hall

/-- Identifiers that messages bring along to a sender: in ascending order, and older than all that it
draws. -/
structure Assigned (ms : List Message) (fresh : Fresh) : Prop where
  sorted : (ms.map (·.header.messageId)).Pairwise (· < ·)
  older : ∀ id ∈ ms.map (·.header.messageId), id.toInt < fresh.ids.next
  nonneg : 0 ≤ fresh.ids.next

theorem Assigned.tail {m : Message} {ms : List Message} {fresh : Fresh} (h : Assigned (m :: ms) fresh)
    (limit : Option Nat) : Assigned ms (m.parts limit fresh).2 := by
  have hle := (parts_supplied limit fresh m).le_next
  refine ⟨(List.pairwise_cons.1 h.sorted).2, ?_, Int.le_trans h.nonneg hle⟩
  intro id hid
  exact Int.lt_of_lt_of_le (h.older id (List.mem_cons_of_mem _ hid)) hle

/-- None of several messages puts its identifier to use if a refusal is sent first for each of them. -/
theorem forall_not_mem_partsAll_iff {ms : List Message} {fresh : Fresh} (h : Assigned ms fresh)
    (hlimit : (partsAll limit ms fresh).2.ids.isOverdrawn = false) :
    (∀ id ∈ ms.map (·.header.messageId), id ∉ partIds (partsAll limit ms fresh).1) ↔
      AllRefusedFirst limit ms fresh := by
  induction ms generalizing fresh with
  | nil => exact iff_of_true (fun id hid => absurd hid List.not_mem_nil) trivial
  | cons m ms ih =>
    have htail := h.tail limit
    have hsorted := (List.pairwise_cons.1 h.sorted).1
    have hown : m.header.messageId.toInt < fresh.ids.next := h.older _ List.mem_cons_self
    have hfirst := parts_supplied limit fresh m
    have hothers := partsAll_supplied limit ms (m.parts limit fresh).2
    have hlimit' := IdCounter.isOverdrawn_of_le hothers.le_next hlimit
    have hused := messageId_mem_partIds_iff h.nonneg hown hlimit'
    -- No message uses an identifier that another one has brought along.
    have hout : m.header.messageId ∉ partIds (partsAll limit ms (m.parts limit fresh).2).1 := by
      intro hmem
      rcases (hothers.within htail.nonneg hlimit).of_mem _ hmem with hlater | ⟨hdrawn, -⟩
      · exact Int64.lt_irrefl (hsorted _ hlater)
      · have hle := hfirst.le_next
        omega
    have hout' : ∀ id ∈ ms.map (·.header.messageId), id ∉ partIds (m.parts limit fresh).1 := by
      intro id hid hmem
      rcases (hfirst.within h.nonneg hlimit').of_mem _ hmem with hsame | ⟨hdrawn, -⟩
      · have hlt := hsorted id hid
        rw [List.mem_singleton.1 hsame] at hlt
        exact Int64.lt_irrefl hlt
      · have holder := h.older id (List.mem_cons_of_mem _ hid)
        omega
    rw [List.map_cons, List.forall_mem_cons]
    show (_ ∉ partIds ((m.parts limit fresh).1 ++ (partsAll limit ms (m.parts limit fresh).2).1) ∧
      ∀ id ∈ _, id ∉ partIds ((m.parts limit fresh).1 ++
        (partsAll limit ms (m.parts limit fresh).2).1)) ↔ _
    simp only [partIds_append, List.mem_append, not_or]
    refine and_congr ?_ ?_
    · rw [and_iff_left hout, hused, Bool.not_eq_false]
    · rw [← ih htail hlimit]
      exact forall₂_congr fun id hid => and_iff_right (hout' id hid)

/-- The identifiers of the parts of several messages ascend exactly if they are in order. -/
theorem pairwise_partsAll_iff {ms : List Message} {fresh : Fresh} (h : Assigned ms fresh)
    (hlimit : (partsAll limit ms fresh).2.ids.isOverdrawn = false) :
    (partIds (partsAll limit ms fresh).1).Pairwise (· < ·) ↔ AllInOrder limit ms fresh := by
  induction ms generalizing fresh with
  | nil => exact iff_of_true .nil trivial
  | cons m ms ih =>
    have htail := h.tail limit
    have hown : m.header.messageId.toInt < fresh.ids.next := h.older _ List.mem_cons_self
    have hfirst := parts_supplied limit fresh m
    have hothers := partsAll_supplied limit ms (m.parts limit fresh).2
    have hlimit' := IdCounter.isOverdrawn_of_le hothers.le_next hlimit
    have hlater : ∀ id ∈ ms.map (·.header.messageId), id.toInt < fresh.ids.next :=
      fun id hid => h.older id (List.mem_cons_of_mem _ hid)
    have hsplit := (hfirst.within h.nonneg hlimit').pairwise_append_iff
      (hothers.within htail.nonneg hlimit) (List.forall_mem_singleton.2 hown) hlater
      (List.forall_mem_singleton.2 (List.pairwise_cons.1 h.sorted).1)
    show (partIds ((m.parts limit fresh).1 ++ (partsAll limit ms (m.parts limit fresh).2).1)).Pairwise
      (· < ·) ↔ _
    rw [partIds_append, hsplit, pairwise_partIds_iff limit m fresh h.nonneg hown hlimit',
      ih htail hlimit, forall_partIds_eq_iff h.nonneg hown hlimit',
      forall_not_mem_partsAll_iff htail hlimit]
    rfl

end Several

end Message

end Etp
