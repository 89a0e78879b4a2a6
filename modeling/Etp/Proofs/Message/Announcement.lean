import Etp.Proofs.Message.Refusals
import Mathlib.Data.List.Chain

/-!
# Chunks and the referencers that announce them

A receiver learns from a referencer to which object a chunk belongs, and cannot complete an exchange of
chunks alone.  The sender writes the referencer before the chunks; but if the referencer itself is larger
than the limit, a report takes its place and the chunks follow all the same.  `chunks_announced` says
that nothing else leaves a chunk without its referencer.
-/

namespace Etp

namespace Message

/-- Every chunk comes after a referencer with an object that names the content of the chunk. -/
def Announced (ms : List Message) : Prop :=
  ∀ before c after, ms = before ++ c :: after → ∀ chunk, c.body.chunk? = some chunk →
    ∃ r ∈ before, r.isReferencer = true ∧ ∃ o ∈ r.body.dataObjects, o.blob = some chunk.blob

theorem not_isChunk_iff {m : Message} : m.isChunk = false ↔ m.body.chunk? = none := by
  rw [isChunk, Body.isChunk_eq]
  exact Option.isSome_eq_false_iff.trans Option.isNone_iff_eq_none

namespace Announced

theorem of_not_chunk {ms : List Message} (h : ∀ c ∈ ms, c.isChunk = false) : Announced ms := by
  rintro before c after rfl chunk hchunk
  have hnone := not_isChunk_iff.1 (h c (by simp))
  rw [hchunk] at hnone
  cases hnone

theorem append {as bs : List Message} (h : Announced as) (h' : Announced bs) :
    Announced (as ++ bs) := by
  intro before c after hsplit chunk hchunk
  rcases List.append_eq_append_iff.1 hsplit with ⟨middle, rfl, hbs⟩ | ⟨middle, has, hafter⟩
  · obtain ⟨r, hr, hreferencer⟩ := h' middle c after hbs chunk hchunk
    exact ⟨r, List.mem_append_right as hr, hreferencer⟩
  · cases middle with
    | nil =>
      obtain ⟨r, hr, _⟩ := h' [] c after hafter.symm chunk hchunk
      cases hr
    | cons c' middle =>
      obtain ⟨rfl, _⟩ := List.cons.inj hafter
      exact h before c middle has chunk hchunk

/-- A chunk that comes first is not announced. -/
theorem first {m : Message} {ms : List Message} (h : Announced (m :: ms)) : m.isChunk = false := by
  rw [not_isChunk_iff]
  cases hchunk : m.body.chunk? with
  | none => rfl
  | some chunk =>
    obtain ⟨r, hr, _⟩ := h [] m ms rfl chunk hchunk
    cases hr

end Announced

/-- No chunk comes first, and none stands directly behind a refusal. -/
structure Led (parts : List Part) : Prop where
  first : ∀ p ∈ parts.head?, p.message.isChunk = false
  behind : parts.IsChain (fun p c => c.message.isChunk = true → p.isRefusal = false)

instance (parts : List Part) : Decidable (Led parts) :=
  letI (p c : Part) : Decidable (c.message.isChunk = true → p.isRefusal = false) := inferInstance
  decidable_of_iff ((∀ p ∈ parts.head?, p.message.isChunk = false) ∧
    parts.IsChain (fun p c => c.message.isChunk = true → p.isRefusal = false))
    ⟨fun h => ⟨h.1, h.2⟩, fun h => ⟨h.first, h.behind⟩⟩

/-- Some entries of `m`, a single object, are sent in chunks, but their referencer is larger than the
limit: `p` reports this in its place, and `c` has a piece of the content. -/
def LostReferencer (limit : Option Nat) (m p c : Message) : Prop :=
  ∃ (q : Message) (object : DataObject) (chunk : Chunk) (id : Int64),
    q.body.cleared = m.body.cleared ∧ object ∈ m.body.dataObjects ∧
      q.body.objects = some [object] ∧ (q.referencer chunk.blob).fits limit = false ∧
      p = (Fault.maxSizeExceeded.toMessage id q.header.correlationId).setFinal true ∧
      c.body.chunk? = some chunk

end Message

open Message

/-! ## One leaf -/

theorem Leaf.Valid.announced {l : Leaf} (h : l.Valid) (hcarrier : l.carrier.isChunk = false) :
    Announced l.messages := by
  cases l with
  | whole m => exact .of_not_chunk (List.forall_mem_singleton.2 hcarrier)
  | chunked m blob chunks =>
    have hreferencer := h.isReferencer_carrier
    obtain ⟨object, hobjects, _, hcarries⟩ := h
    have hnamed : ∃ o ∈ (m.referencer blob).body.dataObjects, o.blob = some blob := by
      obtain ⟨_, hcontents⟩ := Body.objects_eq_some_iff.1 hobjects
      refine ⟨object.withContent (some blob) [], ?_, rfl⟩
      have hbody : (m.referencer blob).body =
          m.body.mapObjects (fun o => o.withContent (some blob) []) := rfl
      rw [hbody, Body.dataObjects_eq, Body.contents_mapObjects, List.map_map]
      obtain ⟨c, hc, rfl⟩ := List.mem_map.1 (hcontents ▸ List.mem_singleton.2 rfl)
      exact List.mem_map_of_mem hc
    intro before c after hsplit chunk hchunk
    cases before with
    | nil =>
      obtain ⟨rfl, _⟩ := List.cons.inj hsplit
      rw [not_isChunk_iff.1 hcarrier] at hchunk
      cases hchunk
    | cons r before =>
      obtain ⟨rfl, hchunks⟩ := List.cons.inj hsplit
      have hc : c ∈ chunks := by
        rw [show chunks = before ++ c :: after from hchunks]
        simp
      obtain ⟨chunk', hchunk', rfl⟩ := hcarries.blob_eq c hc
      rw [hchunk] at hchunk'
      cases hchunk'
      exact ⟨_, List.mem_cons_self, hreferencer, hnamed⟩

/-- A leaf in chunks has a first one, with a piece of its content. -/
theorem Leaf.Valid.exists_first {l : Leaf} (h : l.Valid) (hchunks : l.chunks ≠ []) :
    ∃ c rest chunk, l.chunks = c :: rest ∧ c.body.chunk? = some chunk ∧
      l.blob? = some chunk.blob := by
  obtain ⟨c, rest, hc⟩ := List.exists_cons_of_ne_nil hchunks
  have hmem : c ∈ l.chunks := hc ▸ List.mem_cons_self
  have hchunk := h.isChunk_of_mem hmem
  rw [isChunk, Body.isChunk_eq] at hchunk
  obtain ⟨chunk, hchunk⟩ := Option.isSome_iff_exists.1 hchunk
  exact ⟨c, rest, chunk, hc, hchunk, h.blob_of_mem_pieces (List.mem_filterMap.2 ⟨c, hmem, hchunk⟩)⟩

namespace Yield

variable {limit : Option Nat} {m : Message} {y : Yield}

theorem messages_eq (hreport : y.report = none) : y.parts.map Part.message = y.leaf.messages := by
  simp [parts, head, hreport, Leaf.messages, asPart, Function.comp_def]

theorem isRefusal_head : y.head.isRefusal = y.report.isSome := by
  unfold head
  cases y.report with
  | none => rfl
  | some report => rfl

theorem Of.kind_report (h : y.Of limit m) {report : Message} (hreport : y.report = some report) :
    report.body.kind = .protocolException := by
  obtain ⟨fault, id, rfl, _⟩ := h.report_eq report hreport
  rfl

theorem Of.isReferencer_report (h : y.Of limit m) {report : Message}
    (hreport : y.report = some report) : report.isReferencer = false := by
  apply Bool.eq_false_iff.2
  intro hreferencer
  have hchunkable : report.body.kind.objects.isSome = true :=
    isChunkable_of_isReferencer hreferencer
  rw [h.kind_report hreport] at hchunkable
  cases hchunkable

theorem Of.isChunk_head (h : y.Of limit m) (hm : m.isChunk = false) :
    y.head.message.isChunk = false := by
  unfold head
  cases hreport : y.report with
  | none =>
    have hkind := Body.kind_eq_of_cleared (y.leaf.cleared_carrier.trans h.cleared_eq)
    show y.leaf.carrier.body.kind.isChunk = false
    rw [hkind]
    exact hm
  | some report =>
    show report.body.kind.isChunk = false
    rw [h.kind_report hreport]
    rfl

/-- A referencer among the parts names the content that travels in their chunks, or what its objects
named already in the message. -/
theorem Of.blob_of_referencer (h : y.Of limit m) {r : Message} (hr : r ∈ y.parts.map Part.message)
    (hreferencer : r.isReferencer = true) {o : DataObject} (ho : o ∈ r.body.dataObjects)
    {blob : Uuid} (hblob : o.blob = some blob) :
    y.leaf.blob? = some blob ∨ ∃ o ∈ m.body.dataObjects, o.blob = some blob := by
  have hr : r = y.head.message ∨ r ∈ y.leaf.chunks := by
    simpa [parts, asPart, Function.comp_def] using hr
  rcases hr with rfl | hr
  · unfold head at hreferencer ho
    cases hreport : y.report with
    | some report =>
      rw [hreport] at hreferencer
      exact absurd hreferencer (Bool.eq_false_iff.1 (h.isReferencer_report hreport))
    | none =>
      rw [hreport] at ho
      have ho : o ∈ y.leaf.carrier.body.dataObjects := ho
      have hobjects := h.objects
      cases hleaf : y.leaf with
      | whole q =>
        rw [hleaf] at ho hobjects
        exact .inr ⟨o, hobjects o ho, hblob⟩
      | chunked q blob' chunks =>
        rw [hleaf] at ho
        have hbody : (Leaf.chunked q blob' chunks).carrier.body =
            q.body.mapObjects (fun o => o.withContent (some blob') []) := rfl
        rw [hbody, Body.dataObjects_eq, Body.contents_mapObjects, List.map_map] at ho
        obtain ⟨c, _, rfl⟩ := List.mem_map.1 ho
        exact .inl hblob
  · rw [isReferencer_of_isChunk (h.valid.isChunk_of_mem hr)] at hreferencer
    cases hreferencer

/-- If the first part is refused and chunks follow it, it was a referencer. -/
theorem Of.lostReferencer (h : y.Of limit m) (hrefused : y.report.isSome = true) {c : Message}
    (hc : c ∈ y.leaf.chunks) : LostReferencer limit m y.head.message c := by
  obtain ⟨report, hreport⟩ := Option.isSome_iff_exists.1 hrefused
  obtain ⟨fault, id, hfault, hmax⟩ := h.report_eq report hreport
  have hlarge := h.isSome_report
  rw [hrefused] at hlarge
  have hvalid := h.valid
  have hcleared := h.cleared_eq
  have hobject := h.objects
  cases hleaf : y.leaf with
  | whole q =>
    rw [hleaf] at hc
    cases hc
  | chunked q blob chunks =>
    rw [hleaf] at hc hvalid hcleared hobject hlarge hfault hmax
    obtain ⟨object, hobjects, _, hcarries⟩ := hvalid
    obtain ⟨chunk, hchunk, rfl⟩ := hcarries.blob_eq c hc
    have hmem : object ∈ q.body.dataObjects := by
      rw [Body.dataObjects, hobjects]
      exact List.mem_singleton.2 rfl
    obtain rfl := hmax (List.ne_nil_of_mem hc)
    refine ⟨q, object, chunk, id, hcleared, hobject object hmem, hobjects, ?_, ?_, hchunk⟩
    · simpa [Leaf.carrier] using hlarge
    · rw [head, hreport]
      exact hfault

/-! ## All leaves -/

/-- Neighbours are related, if they are so within each leaf and anything is to the first part of a leaf. -/
theorem isChain_parts {R : Part → Part → Prop} {ys : List Yield}
    (hhead : ∀ y ∈ ys, ∀ p, R p y.head)
    (hfirst : ∀ y ∈ ys, ∀ c ∈ y.leaf.chunks, R y.head c.asPart)
    (hchunks : ∀ p c : Message, R p.asPart c.asPart) : (ys.flatMap parts).IsChain R := by
  have hown : ∀ y ∈ ys, y.parts.IsChain R := by
    intro y hy
    have hrest : (y.leaf.chunks.map asPart).IsChain R :=
      (List.isChain_map asPart).2 (List.Pairwise.isChain (List.pairwise_of_forall hchunks))
    unfold parts
    cases hc : y.leaf.chunks with
    | nil => exact List.isChain_singleton _
    | cons c chunks =>
      rw [hc] at hrest
      exact List.isChain_cons_cons.2 ⟨hfirst y hy c (hc ▸ List.mem_cons_self), hrest⟩
  induction ys with
  | nil => exact List.isChain_nil
  | cons y ys ih =>
    obtain ⟨_, hheads⟩ := List.forall_mem_cons.1 hhead
    obtain ⟨_, hfirsts⟩ := List.forall_mem_cons.1 hfirst
    obtain ⟨hy, howns⟩ := List.forall_mem_cons.1 hown
    rw [List.flatMap_cons]
    refine List.IsChain.append hy (ih hheads hfirsts howns) ?_
    intro p _ q hq
    cases ys with
    | nil => cases hq
    | cons y' ys =>
      cases hq
      exact hheads y' List.mem_cons_self p

end Yield

namespace Message

variable {limit : Option Nat} {m : Message} {fresh : Fresh} {result : List Part × Fresh}
  {ys : List Yield}

namespace Yielded

theorem messages_eq (h : Yielded limit m fresh result ys) :
    result.1.map Part.message = ys.flatMap (fun y => y.parts.map Part.message) := by
  rw [h.parts_eq, List.map_flatMap]

/-- Chunks are announced if no referencer of theirs is refused. -/
theorem announced (h : Yielded limit m fresh result ys) (hm : m.isChunk = false)
    (hkept : ∀ y ∈ ys, y.leaf.chunks ≠ [] → y.report = none) :
    Announced (result.1.map Part.message) := by
  have hown : ∀ y ∈ ys, Announced (y.parts.map Part.message) := by
    intro y hy
    have hhead := (h.of_mem y hy).isChunk_head hm
    by_cases hchunks : y.leaf.chunks = []
    · refine .of_not_chunk ?_
      rw [Yield.parts, hchunks]
      exact List.forall_mem_singleton.2 hhead
    · have hreport := hkept y hy hchunks
      rw [Yield.messages_eq hreport]
      rw [Yield.head, hreport] at hhead
      exact (h.of_mem y hy).valid.announced hhead
  rw [h.messages_eq]
  clear h hkept
  induction ys with
  | nil => exact .of_not_chunk (by simp)
  | cons y ys ih =>
    obtain ⟨hy, hys⟩ := List.forall_mem_cons.1 hown
    exact hy.append (ih hys)

/-- What was sent before a leaf does not name the content of this leaf. -/
theorem blob_ne_of_before (h : Yielded limit m fresh result ys)
    (hblobs : m.body.FreshBlobs fresh.blobs result.2.blobs) {before after : List Yield} {y : Yield}
    (hys : ys = before ++ y :: after) {blob : Uuid} (hblob : y.leaf.blob? = some blob) {r : Message}
    (hr : r ∈ before.flatMap (fun y => y.parts.map Part.message)) (hreferencer : r.isReferencer = true)
    {o : DataObject} (ho : o ∈ r.body.dataObjects) : o.blob ≠ some blob := by
  obtain ⟨blobs, hdraws, hsub⟩ := h.drawn
  have hdistinct := hblobs.distinct
  have hunused := hblobs.unused
  rw [hdraws.taken_eq] at hdistinct hunused
  have hdistinct : (ys.filterMap (·.leaf.blob?)).Nodup := hdistinct.sublist hsub
  have hmem : blob ∈ (y :: after).filterMap (·.leaf.blob?) :=
    List.mem_filterMap.2 ⟨y, List.mem_cons_self, hblob⟩
  subst hys
  rw [List.filterMap_append] at hdistinct hsub
  intro hnamed
  obtain ⟨y', hy', hr⟩ := List.mem_flatMap.1 hr
  have hof := h.of_mem y' (List.mem_append_left _ hy')
  rcases hof.blob_of_referencer hr hreferencer ho hnamed with hown | ⟨o', ho', hnamed'⟩
  · have hmem' : blob ∈ before.filterMap (·.leaf.blob?) := List.mem_filterMap.2 ⟨y', hy', hown⟩
    exact (List.nodup_append.1 hdistinct).2.2 _ hmem' _ hmem rfl
  · exact hunused blob (hsub.subset (List.mem_append_right _ hmem)) o' ho' hnamed'

/-- Chunks whose referencer is refused are not announced, since no other part names their content. -/
theorem kept_of_announced (h : Yielded limit m fresh result ys)
    (hblobs : m.body.FreshBlobs fresh.blobs result.2.blobs)
    (hannounced : Announced (result.1.map Part.message)) :
    ∀ y ∈ ys, y.leaf.chunks ≠ [] → y.report = none := by
  intro y hy hchunks
  cases hreport : y.report with
  | none => rfl
  | some report =>
    have hof := h.of_mem y hy
    obtain ⟨c, rest, chunk, hc, hchunk, hblob⟩ := hof.valid.exists_first hchunks
    obtain ⟨before, after, hys⟩ := List.append_of_mem hy
    have hsplit : result.1.map Part.message =
        (before.flatMap (fun y => y.parts.map Part.message) ++ [y.head.message]) ++
          c :: (rest ++ after.flatMap (fun y => y.parts.map Part.message)) := by
      rw [h.messages_eq, hys, List.flatMap_append, List.flatMap_cons, Yield.parts, hc]
      simp [asPart, Function.comp_def]
    obtain ⟨r, hr, hreferencer, o, ho, hnamed⟩ := hannounced _ c _ hsplit chunk hchunk
    rcases List.mem_append.1 hr with hr | hr
    · exact absurd hnamed (h.blob_ne_of_before hblobs hys hblob hr hreferencer ho)
    · rw [List.mem_singleton.1 hr, Yield.head, hreport] at hreferencer
      exact absurd hreferencer (Bool.eq_false_iff.1 (hof.isReferencer_report hreport))

/-- The referencers of all chunks are sent if and only if no chunk stands directly behind a refusal. -/
theorem led_iff (h : Yielded limit m fresh result ys) (hm : m.isChunk = false) :
    Led result.1 ↔ ∀ y ∈ ys, y.leaf.chunks ≠ [] → y.report = none := by
  have hhead : ∀ y ∈ ys, y.head.message.isChunk = false := fun y hy =>
    (h.of_mem y hy).isChunk_head hm
  constructor
  · intro hled y hy hchunks
    obtain ⟨c, chunks, hc⟩ := List.exists_cons_of_ne_nil hchunks
    have hchunk := (h.of_mem y hy).valid.isChunk_of_mem (hc ▸ List.mem_cons_self)
    have hinfix : [y.head, c.asPart] <:+: result.1 := by
      obtain ⟨before, after, rfl⟩ := List.append_of_mem hy
      refine ⟨before.flatMap Yield.parts, chunks.map asPart ++ after.flatMap Yield.parts, ?_⟩
      rw [h.parts_eq, List.flatMap_append, List.flatMap_cons]
      simp [Yield.parts, hc]
    have hpair : c.isChunk = true → y.head.isRefusal = false := by
      have hchain := List.IsChain.infix hled.behind hinfix
      exact List.isChain_pair.1 hchain
    have hkept := hpair hchunk
    rw [Yield.isRefusal_head] at hkept
    simpa using hkept
  · intro hkept
    constructor
    · rw [h.parts_eq]
      cases ys with
      | nil => simp
      | cons y ys =>
        intro p hp
        cases hp
        exact hhead y List.mem_cons_self
    · rw [h.parts_eq]
      refine Yield.isChain_parts ?_ ?_ ?_
      · intro y hy p hchunk
        rw [hhead y hy] at hchunk
        cases hchunk
      · intro y hy c hc _
        rw [Yield.isRefusal_head, hkept y hy (List.ne_nil_of_mem hc)]
        rfl
      · intro p c _
        rfl

/-- A refusal that stands directly before a chunk is that of a referencer. -/
theorem lostReferencer (h : Yielded limit m fresh result ys) (hm : m.isChunk = false) :
    result.1.IsChain (fun p c => p.isRefusal = true → c.message.isChunk = true →
      LostReferencer limit m p.message c.message) := by
  rw [h.parts_eq]
  refine Yield.isChain_parts ?_ ?_ ?_
  · intro y hy p _ hchunk
    rw [(h.of_mem y hy).isChunk_head hm] at hchunk
    cases hchunk
  · intro y hy c hc hrefused _
    rw [Yield.isRefusal_head] at hrefused
    exact (h.of_mem y hy).lostReferencer hrefused hc
  · intro p c hrefused
    cases hrefused

end Yielded

/-- A chunk is sent as it is or refused. -/
theorem parts_of_isChunk (hm : m.isChunk = true) : ∃ p, (m.parts limit fresh).1 = [p] := by
  have hsize : m.body.cuttableSize = none := Body.cuttableSize_of_isChunk hm
  rw [parts.eq_def]
  simp only
  split
  · exact ⟨_, rfl⟩
  · split
    · exact ⟨_, rfl⟩
    · split
      case h_1 => exact ⟨_, rfl⟩
      case h_2 hsome | h_3 hsome | h_4 hsome =>
        rw [hsize] at hsome
        cases hsome

/-- Chunks are announced, unless one stands directly behind a refusal; there, the referencer was refused
because it is itself larger than the limit.  (A message that is a chunk is no different from others, and
comes alone.) -/
theorem chunks_announced (m : Message) (limit : Option Nat) (fresh : Fresh) :
    let parts := (m.parts limit fresh).1
    (Led parts → Announced (parts.map Part.message)) ∧
    (m.body.FreshBlobs fresh.blobs (m.parts limit fresh).2.blobs →
      Announced (parts.map Part.message) → Led parts) ∧
    parts.IsChain (fun p c => p.isRefusal = true → c.message.isChunk = true →
      LostReferencer limit m p.message c.message) := by
  intro parts
  cases hm : m.isChunk with
  | false =>
    obtain ⟨ys, hys⟩ := parts_yielded limit m fresh
    have hled := hys.led_iff hm
    refine ⟨?_, ?_, hys.lostReferencer hm⟩
    · exact fun h => hys.announced hm (hled.1 h)
    · exact fun hblobs h => hled.2 (hys.kept_of_announced hblobs h)
  | true =>
    obtain ⟨p, hp⟩ : ∃ p, parts = [p] := parts_of_isChunk hm
    rw [hp]
    refine ⟨?_, ?_, List.isChain_singleton p⟩
    · intro hled
      exact .of_not_chunk (List.forall_mem_singleton.2 (hled.first p rfl))
    · intro _ hannounced
      refine ⟨?_, List.isChain_singleton p⟩
      intro q hq
      cases hq
      exact hannounced.first

/-- Two objects in chunks: each referencer fits, so all chunks are announced. -/
theorem chunks_announced_twoLarge :
    let parts := (twoLarge.parts (some 80) countingFresh).1
    parts.length = 8 ∧ Announced (parts.map Part.message) ∧ Led parts := by
  obtain ⟨hannounced, hled, -⟩ := chunks_announced twoLarge (some 80) countingFresh
  have hparts := parts_twoLarge
  have hall := hannounced (by rw [hparts]; decide +kernel)
  refine ⟨?_, hall, hled ?_ hall⟩
  · rw [hparts]
    decide +kernel
  · rw [hparts]
    exact ⟨by decide +kernel, by decide +kernel⟩

/-- An object with the given address and content. -/
def addressed (uri : String) (data : Bytes) : DataObject := ((uri, (holding data).1.2), (holding data).2)

/-- A request to store an object whose address alone is larger than a frame of 100 bytes. -/
def longAddress : Message :=
  request ⟨.putDataObjects, KeyMap.ofList
    [("a", addressed (String.ofList (List.replicate 120 'a')) (List.replicate 60 7))], false, ()⟩

/-- The referencer is refused and its chunks are sent: the receiver can make nothing of them. -/
theorem not_announced_longAddress :
    longAddress.Named ∧ ∃ parts, parts = (longAddress.parts (some 100) countingFresh).1 ∧
      parts.map Part.isRefusal = [true, false, false, false, false] ∧
      ¬ Announced (parts.map Part.message) ∧ reassemble (parts.map Part.message) = none := by
  have hparts : longAddress.parts (some 100) countingFresh = chunkedParts 100 longAddress
      (addressed (String.ofList (List.replicate 120 'a')) (List.replicate 60 7)) countingFresh :=
    parts_of_single (by decide +kernel) (by decide +kernel) (by decide +kernel) rfl
  refine ⟨⟨rfl, rfl⟩, _, rfl, ?_, ?_, ?_⟩
  · rw [hparts]
    decide +kernel
  · rw [hparts]
    let ms := (chunkedParts 100 longAddress
      (addressed (String.ofList (List.replicate 120 'a')) (List.replicate 60 7))
      countingFresh).1.map Part.message
    let chunk : Chunk := ⟨countingFresh.drawBlob.1, List.replicate 50 7, false⟩
    let c := ofChunk ⟨.storeChunk, chunk.blob, chunk.data, chunk.isLast, ()⟩ 8 4 false
    have hsplit : ms = ms.take 1 ++ c :: ms.drop 2 := by decide +kernel
    have hnone : ∀ r ∈ ms.take 1, r.isReferencer = false := by decide +kernel
    intro hannounced
    obtain ⟨r, hr, hreferencer, -⟩ := hannounced _ c _ hsplit chunk rfl
    rw [hnone r hr] at hreferencer
    cases hreferencer
  · rw [hparts]
    decide +kernel

end Message

end Etp
