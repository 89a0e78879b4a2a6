import Etp.Proofs.Message.Margin
import Etp.Proofs.Message.Reassembly

/-!
# Where a message is refused

`Spread` follows a message that is sent in full.  Here some of it may be refused, and what is sent is one
`Yield` for each leaf: the parts of the leaf, the first of which is replaced by a report if its frame is
larger than the limit.  The chunks behind the first part are never refused, since they leave room for all
that surrounds their content.  `parts_yielded` is the statement about the sender.
-/

namespace Etp

namespace Body

theorem dataObjects_eq (b : Body) : b.dataObjects = b.contents.map (·.2) := by
  unfold dataObjects objects contents
  cases b.kind.objects with
  | none => rfl
  | some o => exact o.toList_eq b.value

namespace Cut

variable {b first second : Body} {count : Nat}

theorem dataObjects_first (h : b.Cut count first second) :
    first.dataObjects = b.dataObjects.take count := by
  rw [dataObjects_eq, dataObjects_eq, h.contents_first, List.map_take]

theorem dataObjects_second (h : b.Cut count first second) :
    second.dataObjects = b.dataObjects.drop count := by
  rw [dataObjects_eq, dataObjects_eq, h.contents_second, List.map_drop]

end Cut

end Body

/-! ## Leaves and reports -/

/-- What is sent for a leaf: its parts, or a report and the parts after the first one. -/
structure Yield where
  leaf : Leaf
  report : Option Message

namespace Yield

/-- The first part. -/
def head (y : Yield) : Part :=
  match y.report with
  | none => y.leaf.carrier.asPart
  | some report => ⟨report, true⟩

/-- The parts, in the order in which they are sent. -/
def parts (y : Yield) : List Part := y.head :: y.leaf.chunks.map Message.asPart

/-- What is sent, under a limit, for some of the entries of `m`. -/
structure Of (limit : Option Nat) (m : Message) (y : Yield) : Prop where
  valid : y.leaf.Valid
  cleared_eq : y.leaf.origin.body.cleared = m.body.cleared
  objects : ∀ o ∈ y.leaf.origin.body.dataObjects, o ∈ m.body.dataObjects
  /-- The first part of the leaf is refused if it is too large. -/
  isSome_report : y.report.isSome = !y.leaf.carrier.fits limit
  /-- Content cannot be sent in chunks for several reasons; a referencer can only be too large. -/
  report_eq : ∀ report, y.report = some report → ∃ (fault : Fault) (id : Int64),
    report = (fault.toMessage id y.leaf.origin.header.correlationId).setFinal true ∧
      (y.leaf.chunks ≠ [] → fault = .maxSizeExceeded)

theorem Of.of_part {limit : Option Nat} {m q : Message} {y : Yield} (h : y.Of limit q)
    (hcleared : q.body.cleared = m.body.cleared)
    (hobjects : ∀ o ∈ q.body.dataObjects, o ∈ m.body.dataObjects) : y.Of limit m :=
  ⟨h.valid, h.cleared_eq.trans hcleared, fun o ho => hobjects o (h.objects o ho), h.isSome_report,
    h.report_eq⟩

end Yield

namespace Message

/-- What the sender makes of a message.  A blob identifier may be drawn in vain. -/
structure Yielded (limit : Option Nat) (m : Message) (fresh : Fresh) (result : List Part × Fresh)
    (ys : List Yield) : Prop where
  of_mem : ∀ y ∈ ys, y.Of limit m
  parts_eq : result.1 = ys.flatMap Yield.parts
  drawn : ∃ blobs, fresh.blobs.Draws blobs result.2.blobs ∧
    (ys.filterMap (·.leaf.blob?)).Sublist blobs

section Steps

variable {limit : Option Nat} {m : Message} {fresh : Fresh}

theorem yielded_whole (hfits : m.fits limit = true) :
    Yielded limit m fresh ([m.asPart], fresh) [⟨.whole m, none⟩] where
  of_mem := by
    rw [List.forall_mem_singleton]
    refine ⟨trivial, rfl, fun _ ho => ho, ?_, ?_⟩
    · simp [Leaf.carrier, hfits]
    · intro report hreport
      cases hreport
  parts_eq := rfl
  drawn := ⟨[], .refl fresh.blobs, .slnil⟩

theorem yielded_refused (hlarge : m.fits limit = false) (fault : Fault) {fresh' : Fresh}
    {blobs : List Uuid} (hblobs : fresh.blobs.Draws blobs fresh'.blobs) :
    ∃ ys, Yielded limit m fresh (refusal fault m.header.correlationId fresh') ys := by
  let report := (fault.toMessage fresh'.drawId.1 m.header.correlationId).setFinal true
  refine ⟨[⟨.whole m, some report⟩], ?_, rfl, blobs, hblobs, List.nil_sublist blobs⟩
  rw [List.forall_mem_singleton]
  refine ⟨trivial, rfl, fun _ ho => ho, ?_, ?_⟩
  · simp [Leaf.carrier, hlarge]
  · intro report' hreport
    cases hreport
    exact ⟨fault, fresh'.drawId.1, rfl, fun h => absurd rfl h⟩

/-- A message that is not cut is sent, or reported to be too large. -/
theorem onePart_cases (limit : Option Nat) (q : Message) (fresh : Fresh) :
    ∃ report, (∀ l : Leaf, l.carrier = q → (onePart limit q fresh).1 = [(Yield.mk l report).head]) ∧
      (onePart limit q fresh).2.blobs = fresh.blobs ∧ report.isSome = !q.fits limit ∧
      ∀ r, report = some r →
        ∃ id, r = (Fault.maxSizeExceeded.toMessage id q.header.correlationId).setFinal true := by
  by_cases hfits : q.fits limit = true
  · rw [onePart, if_pos hfits]
    refine ⟨none, ?_, rfl, by simp [hfits], ?_⟩
    · rintro l rfl
      rfl
    · intro r hr
      cases hr
  · rw [onePart, if_neg hfits]
    refine ⟨some _, fun _ _ => rfl, rfl, by simpa using hfits, ?_⟩
    intro r hr
    cases hr
    exact ⟨fresh.drawId.1, rfl⟩

/-- A referencer may be refused, but its chunks are not. -/
theorem yielded_chunked {max : Nat} {object : DataObject} (hlarge : m.fits (some max) = false)
    (hobjects : m.body.objects = some [object]) :
    ∃ ys, Yielded (some max) m fresh (chunkedParts max m object fresh) ys := by
  unfold chunkedParts
  simp only
  split
  case isTrue => exact yielded_refused hlarge _ (.refl fresh.blobs)
  case isFalse hroom =>
    simp only [Bool.or_eq_true, decide_eq_true_eq, List.isEmpty_iff, not_or] at hroom
    split
    case h_1 => exact yielded_refused hlarge _ (.draw fresh.blobs)
    case h_2 bodies hbodies =>
      let first := onePart (some max) (m.referencer fresh.drawBlob.1) fresh.drawBlob.2
      obtain ⟨report, hhead, hfirst, hreport, hmax⟩ :=
        onePart_cases (some max) (m.referencer fresh.drawBlob.1) fresh.drawBlob.2
      have hsize : ∀ c ∈ chunksOf fresh.drawBlob.1 (max - chunkMargin)
          ((m.body.write.length + (max - chunkMargin) - 1) / (max - chunkMargin)) object.data,
          c.data.length + chunkMargin ≤ max := by
        intro c hc
        have hlength := length_data_of_mem_chunksOf hc
        omega
      have hsent : Sent (chunkParts (some max) m.exchangeId m.isFinal bodies first.2).1 :=
        chunkParts_fit hbodies hsize
      obtain ⟨chunks, hcarries, hparts, hblobs⟩ :=
        chunkParts_carries hobjects hroom.2 hroom.1 hbodies hsent
      refine ⟨[⟨.chunked m fresh.drawBlob.1 chunks, report⟩], ?_, ?_, [fresh.drawBlob.1], ?_, ?_⟩
      · rw [List.forall_mem_singleton]
        refine ⟨⟨object, hobjects, hroom.2, hcarries⟩, rfl, fun _ ho => ho, hreport, ?_⟩
        intro r hr
        obtain ⟨id, hid⟩ := hmax r hr
        exact ⟨.maxSizeExceeded, id, hid, fun _ => rfl⟩
      · rw [hhead (.chunked m fresh.drawBlob.1 chunks) rfl, hparts]
        simp [Yield.parts, Leaf.chunks]
      · rw [hblobs, hfirst]
        exact .draw fresh.blobs
      · exact .refl _

theorem yielded_halved {count : Nat} {first second : Body} {result result' : List Part × Fresh}
    {ys ys' : List Yield} (hcut : m.body.Cut count first second)
    (hfirst : Yielded limit (m.firstHalf first) fresh.drawId.2 result ys)
    (hsecond : Yielded limit (m.secondHalf second fresh.drawId.1) result.2 result' ys') :
    Yielded limit m fresh (result.1 ++ result'.1, result'.2) (ys ++ ys') where
  of_mem := by
    intro y hy
    rcases List.mem_append.1 hy with hy | hy
    · refine (hfirst.of_mem y hy).of_part hcut.cleared_first ?_
      intro o ho
      have ho : o ∈ first.dataObjects := ho
      rw [hcut.dataObjects_first] at ho
      exact List.mem_of_mem_take ho
    · refine (hsecond.of_mem y hy).of_part hcut.cleared_second ?_
      intro o ho
      have ho : o ∈ second.dataObjects := ho
      rw [hcut.dataObjects_second] at ho
      exact List.mem_of_mem_drop ho
  parts_eq := by rw [List.flatMap_append, hfirst.parts_eq, hsecond.parts_eq]
  drawn := by
    obtain ⟨blobs, hdraws, hsub⟩ := hfirst.drawn
    obtain ⟨blobs', hdraws', hsub'⟩ := hsecond.drawn
    refine ⟨blobs ++ blobs', hdraws.append hdraws', ?_⟩
    rw [List.filterMap_append]
    exact hsub.append hsub'

end Steps

/-- Every message is sent leaf by leaf, whatever the limit. -/
theorem parts_yielded (limit : Option Nat) (m : Message) (fresh : Fresh) :
    ∃ ys, Yielded limit m fresh (m.parts limit fresh) ys := by
  fun_induction parts limit m fresh with
  | case1 m fresh hfits => exact ⟨_, yielded_whole hfits⟩
  | case2 m fresh refused hfits | case3 m fresh refused hfits | case4 m fresh refused hfits
  | case6 m fresh refused hfits | case7 m fresh refused hfits =>
    exact yielded_refused (by simpa using hfits) _ (.refl fresh.blobs)
  | case5 m fresh hfits hplural hsize max object hobjects hlimit =>
    rw [hlimit] at hfits ⊢
    exact yielded_chunked (by simpa using hfits) hobjects
  | case8 m fresh hfits hplural size hsize head rest hsplit id fresh' hdraw first fresh'' hfirst
      second fresh''' hsecond ihfirst ihsecond =>
    rw [hfirst] at ihfirst
    rw [hsecond] at ihsecond
    obtain ⟨ys, hys⟩ := ihfirst
    obtain ⟨ys', hys'⟩ := ihsecond
    cases hdraw
    exact ⟨ys ++ ys', yielded_halved (Body.cut_of_split hsplit) hys hys'⟩

end Message

end Etp
