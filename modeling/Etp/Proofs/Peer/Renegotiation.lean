import Etp.Proofs.Peer.Bounds

/-!
# Negotiating the same offers again

To settle an offer again changes nothing once the local value is within the bounds, so a third negotiation
of the same offers never changes anything (`settles_of_bounded`).  The second one changes exactly the names
that waver (`Wavers`): the smaller local value was raised to the lower bound, the offer is not above that
bound either and now wins, and the two are numbers of different kinds.  The bound stays the value, but it
is written as a number of the other kind.
-/

namespace Etp

open Number Number.Format

namespace Capabilities

/-! ## Values within the bounds of a name -/

theorem plain_lowest {name : String} {bound : Int} (h : lowest name = some bound) : Plain bound := by
  obtain ⟨c, -, hlower⟩ := Option.bind_eq_some_iff.1 h
  exact Capability.plain_lower hlower

theorem bounded_bounded (name : String) (v : DataValue) :
    bounded name (bounded name v) = bounded name v := by
  unfold bounded
  cases Capability.named? name with
  | none => rfl
  | some c => exact c.clamp_clamp v

section Bounded

variable {name : String} {v : DataValue} {k : NumberKind} {x bound : Int}

theorem bounded_of_not_number (hk : v.numberKind? = none) : bounded name v = v := by
  unfold bounded
  cases Capability.named? name with
  | none => rfl
  | some c => exact Capability.clamp_of_not_number hk

theorem bounded_of_le (hk : v.numberKind? = some k) (hv : v.rank? = some x)
    (hlowest : lowest name = some bound) (hle : x ≤ double.rankOfInt bound) :
    bounded name v = k.write bound := by
  obtain ⟨c, hc, hlower⟩ := Option.bind_eq_some_iff.1 hlowest
  simp only [bounded, hc]
  exact Capability.clamp_of_le hk hv hlower hle

theorem bounded_cases (name : String) (hk : v.numberKind? = some k) (hv : v.rank? = some x) :
    bounded name v = v ∨
      (∃ i, lowest name = some i ∧ x < double.rankOfInt i ∧ bounded name v = k.write i) ∨
      ∃ i, Plain i ∧ double.rankOfInt i < x ∧ bounded name v = k.write i := by
  unfold bounded lowest
  cases Capability.named? name with
  | none => exact .inl rfl
  | some c =>
    rcases Capability.clamp_cases (c := c) hk hv with hsame | ⟨i, hlower, hlt, hclamp⟩ |
      ⟨i, hupper, hlt, hclamp⟩
    · exact .inl hsame
    · exact .inr (.inl ⟨i, hlower, hlt, hclamp⟩)
    · exact .inr (.inr ⟨i, Capability.plain_upper hupper, hlt, hclamp⟩)

end Bounded

/-! ## One name -/

section Agree

variable {own offered : DataValue}

theorem agree_of_gt (h : offered.compare own = some .gt) : agree (some own) offered = own := by
  simp [agree, h]

theorem agree_of_not_gt (h : offered.compare own ≠ some .gt) : agree (some own) offered = offered := by
  simp [agree, h]

theorem agree_eq_or (own offered : DataValue) :
    agree (some own) offered = own ∨ agree (some own) offered = offered := by
  by_cases h : offered.compare own = some .gt
  · exact .inl (agree_of_gt h)
  · exact .inr (agree_of_not_gt h)

end Agree

/-- An offer that was taken over is settled. -/
theorem settles_offer (name : String) (offered : DataValue) :
    bounded name (agree (some (bounded name offered)) offered) = bounded name offered := by
  rcases agree_eq_or (bounded name offered) offered with hown | hoffered
  · rw [hown, bounded_bounded]
  · rw [hoffered]

/-- A local value within the bounds is settled by one negotiation. -/
theorem settles_of_bounded {name : String} {own : DataValue} (h : bounded name own = own)
    (offered : DataValue) :
    let once := bounded name (agree (some own) offered)
    bounded name (agree (some once) offered) = once := by
  intro once
  rcases agree_eq_or own offered with hown | hoffered
  · have honce : once = own := by
      simp only [once, hown, h]
    rw [honce, hown, h]
  · have honce : once = bounded name offered := by
      simp only [once, hoffered]
    rw [honce, settles_offer]

/-- Two numbers of different kinds, of which the local one is smaller than the offer and the offer is not
above the lower bound. -/
structure Wavers (name : String) (own offered : DataValue) (bound : Int) (k l : NumberKind) : Prop where
  lowest_eq : lowest name = some bound
  kind_own : own.numberKind? = some k
  kind_offered : offered.numberKind? = some l
  kind_ne : k ≠ l
  smaller : offered.compare own = some .gt
  low : offered.compare (.long (Int64.ofInt bound)) ≠ some .gt

section Wavers

variable {name : String} {own offered : DataValue} {bound : Int} {k l : NumberKind}

/-- Neither of the two values is above the bound. -/
theorem Wavers.ranks_le (h : Wavers name own offered bound k l) :
    ∃ x y, offered.rank? = some x ∧ own.rank? = some y ∧
      x ≤ double.rankOfInt bound ∧ y ≤ double.rankOfInt bound := by
  obtain ⟨x, y, hx, hy, hle⟩ := DataValue.ranks_of_gt h.smaller h.kind_own
  have hlow : ¬ double.rankOfInt bound < x := by
    intro hlt
    exact h.low (((plain_lowest h.lowest_eq).compare_write hx .long).2 hlt)
  exact ⟨x, y, hx, hy, by omega, by omega⟩

/-- First the smaller local value is raised to the bound. -/
theorem Wavers.once (h : Wavers name own offered bound k l) :
    bounded name (agree (some own) offered) = k.write bound := by
  obtain ⟨x, y, -, hy, -, hle⟩ := h.ranks_le
  rw [agree_of_gt h.smaller]
  exact bounded_of_le h.kind_own hy h.lowest_eq hle

/-- Then the offer is not above the value any more and is raised to the bound itself. -/
theorem Wavers.again (h : Wavers name own offered bound k l) :
    bounded name (agree (some (k.write bound)) offered) = l.write bound := by
  obtain ⟨x, y, hx, -, hle, -⟩ := h.ranks_le
  have hnot : offered.compare (k.write bound) ≠ some .gt := by
    intro hgt
    have hlt := ((plain_lowest h.lowest_eq).compare_write hx k).1 hgt
    omega
  rw [agree_of_not_gt hnot]
  exact bounded_of_le h.kind_offered hx h.lowest_eq hle

theorem settles_or_wavers (name : String) (own offered : DataValue) :
    let once := bounded name (agree (some own) offered)
    bounded name (agree (some once) offered) = once ∨ ∃ bound k l, Wavers name own offered bound k l := by
  intro once
  by_cases hgt : offered.compare own = some .gt
  case neg =>
    left
    have honce : once = bounded name offered := by
      simp only [once, agree_of_not_gt hgt]
    rw [honce, settles_offer]
  case pos =>
    have honce : once = bounded name own := by
      simp only [once, agree_of_gt hgt]
    -- Where the offer is above the outcome as well, the outcome stays.
    have hstays : offered.compare once = some .gt → bounded name (agree (some once) offered) = once := by
      intro hagain
      rw [agree_of_gt hagain, honce, bounded_bounded]
    cases hk : own.numberKind? with
    | none =>
      rw [bounded_of_not_number hk] at honce
      exact .inl (hstays (by rw [honce]; exact hgt))
    | some k =>
      obtain ⟨x, y, hx, hy, hle⟩ := DataValue.ranks_of_gt hgt hk
      rcases bounded_cases name hk hy with hsame | ⟨i, hlowest, -, hwrite⟩ | ⟨i, hplain, hlt, hwrite⟩
      · exact .inl (hstays (by rw [honce, hsame]; exact hgt))
      · have hplain := plain_lowest hlowest
        rw [hwrite] at honce
        by_cases hagain : offered.compare once = some .gt
        · exact .inl (hstays hagain)
        · obtain ⟨l, hl⟩ := DataValue.numberKind?_of_gt hgt hk
          have hlow : x ≤ double.rankOfInt i := by
            by_contra habove
            apply hagain
            rw [honce]
            exact (hplain.compare_write hx k).2 (Int.not_le.1 habove)
          by_cases hkind : k = l
          · left
            rw [agree_of_not_gt hagain, bounded_of_le hl hx hlowest hlow, honce, hkind]
          · right
            refine ⟨i, k, l, hlowest, hk, hl, hkind, hgt, ?_⟩
            intro habove
            have hlt := (hplain.compare_write hx .long).1 habove
            omega
      · left
        apply hstays
        rw [honce, hwrite]
        exact (hplain.compare_write hx k).2 (by omega)

end Wavers

/-! ## All names -/

/-- The name is offered and has a local value, and the two waver. -/
def WaversAt (cs offers : Capabilities) (name : String) (bound : Int) (k l : NumberKind) : Prop :=
  ∃ own offered, cs.get? name = some own ∧ offers.get? name = some offered ∧
    Wavers name own offered bound k l

section Renegotiation

variable {cs offers : Capabilities} {name : String} {bound : Int} {k l : NumberKind}

theorem WaversAt.get?_negotiate (h : cs.WaversAt offers name bound k l) :
    (cs.negotiate offers).get? name = some (k.write bound) ∧
      ((cs.negotiate offers).negotiate offers).get? name = some (l.write bound) := by
  obtain ⟨own, offered, hown, hoffered, hwavers⟩ := h
  have honce : (cs.negotiate offers).get? name = some (k.write bound) := by
    rw [Capabilities.get?_negotiate, hoffered, hown]
    exact congrArg some hwavers.once
  refine ⟨honce, ?_⟩
  rw [Capabilities.get?_negotiate, hoffered, honce]
  exact congrArg some hwavers.again

/-- A name that does not waver is settled by one negotiation. -/
theorem get?_negotiate_again (h : ∀ bound k l, ¬ cs.WaversAt offers name bound k l) :
    ((cs.negotiate offers).negotiate offers).get? name = (cs.negotiate offers).get? name := by
  rw [get?_negotiate]
  cases hoffered : offers.get? name with
  | none => rfl
  | some offered =>
    rw [get?_negotiate, hoffered]
    cases hown : cs.get? name with
    | none => exact congrArg some (settles_offer name offered)
    | some own =>
      rcases settles_or_wavers name own offered with hsettles | ⟨bound, k, l, hwavers⟩
      · exact congrArg some hsettles
      · exact absurd ⟨own, offered, hown, hoffered, hwavers⟩ (h bound k l)

/-- After two negotiations of the same offers every value is settled. -/
theorem negotiate_third (cs offers : Capabilities) :
    ((cs.negotiate offers).negotiate offers).negotiate offers =
      (cs.negotiate offers).negotiate offers := by
  apply KeyMap.ext_get?
  intro name
  rw [get?_negotiate, get?_negotiate, get?_negotiate]
  cases offers.get? name with
  | none => rfl
  | some offered => exact congrArg some (settles_of_bounded (bounded_bounded name _) offered)

end Renegotiation

end Capabilities

namespace Peer

open Capabilities

/-- To negotiate the same offers again leaves the capabilities as they are, kinds of numbers included,
unless a name wavers.  Such a name holds the lower bound after the first negotiation, as a number of the
local kind, and after the second one as a number of the kind that is offered; every other name keeps its
value.  A third negotiation changes nothing. -/
theorem negotiated_again (p : Peer) (offers : Capabilities) :
    let once := p.negotiate offers
    let twice := once.negotiate offers
    (twice = once ↔ ∀ name bound k l, ¬ p.capabilities.WaversAt offers name bound k l) ∧
      (∀ name bound k l, p.capabilities.WaversAt offers name bound k l →
        once.capabilities.get? name = some (k.write bound) ∧
          twice.capabilities.get? name = some (l.write bound)) ∧
      (∀ name, (∀ bound k l, ¬ p.capabilities.WaversAt offers name bound k l) →
        twice.capabilities.get? name = once.capabilities.get? name) ∧
      twice.negotiate offers = twice := by
  intro once twice
  have hmoves : ∀ name bound k l, p.capabilities.WaversAt offers name bound k l →
      once.capabilities.get? name = some (k.write bound) ∧
        twice.capabilities.get? name = some (l.write bound) :=
    fun name bound k l h => h.get?_negotiate
  have hstays : ∀ name, (∀ bound k l, ¬ p.capabilities.WaversAt offers name bound k l) →
      twice.capabilities.get? name = once.capabilities.get? name :=
    fun name h => get?_negotiate_again h
  refine ⟨⟨?_, ?_⟩, hmoves, hstays, ?_⟩
  · intro hsame name bound k l hwavers
    obtain ⟨honce, htwice⟩ := hmoves name bound k l hwavers
    rw [hsame, honce] at htwice
    obtain ⟨own, offered, -, -, hw⟩ := hwavers
    exact NumberKind.write_ne hw.kind_ne bound bound (Option.some.inj htwice)
  · intro h
    have hcapabilities : twice.capabilities = once.capabilities :=
      KeyMap.ext_get? (fun name => hstays name (h name))
    simp only [twice, negotiate] at hcapabilities ⊢
    rw [hcapabilities]
  · simp only [twice, once, negotiate, negotiate_third]

/-- A peer with a period below the published bound, as a 32-bit integer. -/
def hastyPeer : Peer :=
  { Peer.new 1 anonymous unspecifiedIp with
    capabilities := KeyMap.ofList [(Capability.responseTimeoutPeriod.name, .int 10)] }

/-- The offer of a longer period that is below the bound as well, as a floating-point number. -/
def offeredSpan : Capabilities :=
  KeyMap.ofList [(Capability.responseTimeoutPeriod.name, .double (Double.ofInt 30)),
    ("VendorLimit", .long 3)]

/-- The period wavers between a 32-bit integer and a floating-point number, and the other name is settled
at once. -/
theorem negotiated_again_span :
    let name := Capability.responseTimeoutPeriod.name
    let once := hastyPeer.negotiate offeredSpan
    let twice := once.negotiate offeredSpan
    hastyPeer.capabilities.WaversAt offeredSpan name 60 .int .double ∧ twice ≠ once ∧
      once.capabilities.get? name = some (.int 60) ∧
      twice.capabilities.get? name = some (.double (Double.ofInt 60)) ∧
      twice.capabilities.get? "VendorLimit" = once.capabilities.get? "VendorLimit" ∧
      twice.negotiate offeredSpan = twice := by
  intro name once twice
  have hwavers : hastyPeer.capabilities.WaversAt offeredSpan name 60 .int .double := by
    refine ⟨.int 10, .double (Double.ofInt 30), by decide +kernel, by decide +kernel, ?_⟩
    exact ⟨by decide +kernel, rfl, rfl, by decide, by decide +kernel, by decide +kernel⟩
  obtain ⟨hsame, hmoves, hstays, hthird⟩ := negotiated_again hastyPeer offeredSpan
  obtain ⟨honce, htwice⟩ := hmoves name 60 .int .double hwavers
  refine ⟨hwavers, ?_, honce, htwice, ?_, hthird⟩
  · intro heq
    exact hsame.1 heq name 60 .int .double hwavers
  · apply hstays
    rintro bound k l ⟨own, offered, hown, -⟩
    have habsent : hastyPeer.capabilities.get? "VendorLimit" = none := by decide +kernel
    rw [habsent] at hown
    cases hown

/-- The offer of a longer period that is below the bound as well, as a 64-bit integer. -/
def offeredResponsePeriod : Capabilities :=
  KeyMap.ofList [(Capability.responseTimeoutPeriod.name, .long 30)]

/-- The second negotiation of the same offer turns the 32-bit bound into a 64-bit one. -/
theorem unsettled_kind :
    let name := Capability.responseTimeoutPeriod.name
    let once := hastyPeer.negotiate offeredResponsePeriod
    let twice := once.negotiate offeredResponsePeriod
    once.capabilities.get? name = some (.int 60) ∧ twice.capabilities.get? name = some (.long 60) ∧
      twice ≠ once := by
  intro name once twice
  have honce : once.capabilities.get? name = some (.int 60) := by decide +kernel
  have htwice : twice.capabilities.get? name = some (.long 60) := by decide +kernel
  refine ⟨honce, htwice, ?_⟩
  intro hsame
  rw [hsame, honce] at htwice
  cases htwice

end Peer

end Etp
