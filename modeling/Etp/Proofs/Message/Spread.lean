import Etp.Proofs.Message.Chunks

/-!
# How a message is spread over its parts

The parts of a message come from the leaves of a tree: an inner node is a message that was cut in two,
a leaf is sent whole or as a referencer and its chunks.  `Spread` relates a message to the leaves of its
tree, in their order, and says nothing of limits and of sizes.  `parts_spread` is the only statement about
the sender; what holds of all parts is proved of `Spread`, by induction on the tree.
-/

namespace Etp

/-! ## Identifiers that were drawn -/

namespace Uuid.Supply

/-- The identifiers that were taken from a supply before it became `later`. -/
def taken (s later : Supply) : List Uuid :=
  (List.range' s.drawn (later.drawn - s.drawn)).map s.nth

/-- Taking `blobs`, one after the other, makes a supply into another. -/
structure Draws (s : Supply) (blobs : List Uuid) (later : Supply) : Prop where
  nth_eq : later.nth = s.nth
  drawn_eq : later.drawn = s.drawn + blobs.length
  blobs_eq : blobs = (List.range' s.drawn blobs.length).map s.nth

namespace Draws

variable {s s' s'' : Supply} {blobs blobs' : List Uuid}

theorem refl (s : Supply) : Draws s [] s := ⟨rfl, rfl, rfl⟩

theorem draw (s : Supply) : Draws s [s.draw.1] s.draw.2 := ⟨rfl, rfl, rfl⟩

theorem append (h : Draws s blobs s') (h' : Draws s' blobs' s'') :
    Draws s (blobs ++ blobs') s'' := by
  refine ⟨h'.nth_eq.trans h.nth_eq, ?_, ?_⟩
  · rw [h'.drawn_eq, h.drawn_eq, List.length_append, Nat.add_assoc]
  · rw [List.length_append, List.range'_append_1.symm, List.map_append, ← h.blobs_eq]
    have hblobs' := h'.blobs_eq
    rw [h.nth_eq, h.drawn_eq] at hblobs'
    rw [← hblobs']

theorem taken_eq (h : Draws s blobs s') : s.taken s' = blobs := by
  rw [taken, h.drawn_eq, Nat.add_sub_cancel_left]
  exact h.blobs_eq.symm

end Draws

end Uuid.Supply

/-! ## Leaves -/

/-- A message at a leaf, and how it is sent. -/
inductive Leaf where
  /-- The message is sent as it is. -/
  | whole (origin : Message)
  /-- The content of the message travels in chunks. -/
  | chunked (origin : Message) (blob : Uuid) (chunks : List Message)

namespace Leaf

/-- The message that is sent. -/
def origin : Leaf → Message
  | whole m => m
  | chunked m _ _ => m

/-- The first part: the message itself, or its referencer. -/
def carrier : Leaf → Message
  | whole m => m
  | chunked m blob _ => m.referencer blob

/-- The parts after the first one. -/
def chunks : Leaf → List Message
  | whole _ => []
  | chunked _ _ chunks => chunks

/-- The identifier under which the content travels in chunks. -/
def blob? : Leaf → Option Uuid
  | whole _ => none
  | chunked _ blob _ => some blob

/-- The parts, in the order in which they are sent. -/
def messages (l : Leaf) : List Message := l.carrier :: l.chunks

end Leaf

namespace Message

/-- The leaves over which a message is spread. -/
inductive Spread : Message → List Leaf → Prop
  | whole (m : Message) : Spread m [.whole m]
  | chunked {m : Message} {object : DataObject} {blob : Uuid} {chunks : List Message}
      (hobjects : m.body.objects = some [object]) (hdata : object.data ≠ [])
      (hcarries : Carries m blob object.data chunks) : Spread m [.chunked m blob chunks]
  | halved {m : Message} {count : Nat} {first second : Body} {id : Int64}
      {leaves leaves' : List Leaf} (hcut : m.body.Cut count first second) (hcount : 0 < count)
      (hrest : count < m.body.entries.length) (hfirst : Spread (m.firstHalf first) leaves)
      (hsecond : Spread (m.secondHalf second id) leaves') : Spread m (leaves ++ leaves')

/-- What the sender makes of a message, unless it refuses some of it. -/
structure Outcome (m : Message) (fresh : Fresh) (result : List Part × Fresh)
    (leaves : List Leaf) : Prop where
  spread : Spread m leaves
  parts_eq : result.1 = (leaves.flatMap Leaf.messages).map asPart
  draws : fresh.blobs.Draws (leaves.filterMap Leaf.blob?) result.2.blobs

theorem outcome_whole (m : Message) (fresh : Fresh) :
    Outcome m fresh ([m.asPart], fresh) [.whole m] :=
  ⟨.whole m, rfl, .refl fresh.blobs⟩

theorem outcome_chunked {max : Nat} {m : Message} {object : DataObject} {fresh : Fresh}
    (hobjects : m.body.objects = some [object]) (hsent : Sent (chunkedParts max m object fresh).1) :
    ∃ leaves, Outcome m fresh (chunkedParts max m object fresh) leaves := by
  obtain ⟨chunks, hdata, hcarries, hparts, hblobs⟩ := chunkedParts_sent hobjects hsent
  refine ⟨[.chunked m fresh.drawBlob.1 chunks], .chunked hobjects hdata hcarries, ?_, ?_⟩
  · rw [hparts]
    simp [Leaf.messages, Leaf.carrier, Leaf.chunks]
  · rw [hblobs]
    exact .draw fresh.blobs

theorem outcome_halved {m : Message} {fresh : Fresh} {size : Nat} {first second : Body}
    {parts parts' : List Part} {fresh' fresh'' : Fresh} {leaves leaves' : List Leaf}
    (hsize : m.body.cuttableSize = some (size + 2))
    (hsplit : m.body.split ((size + 3) / 2) = some (first, second))
    (hfirst : Outcome (m.firstHalf first) fresh.drawId.2 (parts, fresh') leaves)
    (hsecond : Outcome (m.secondHalf second fresh.drawId.1) fresh' (parts', fresh'') leaves') :
    Outcome m fresh (parts ++ parts', fresh'') (leaves ++ leaves') := by
  have hlength := Body.cuttableSize_eq hsize
  refine ⟨?_, ?_, ?_⟩
  · exact .halved (Body.cut_of_split hsplit) (by omega) (by omega) hfirst.spread hsecond.spread
  · simp only [List.flatMap_append, List.map_append]
    rw [← hfirst.parts_eq, ← hsecond.parts_eq]
  · rw [List.filterMap_append]
    exact hfirst.draws.append hsecond.draws

/-- What is not refused is spread over leaves. -/
theorem parts_spread {limit : Option Nat} {m : Message} {fresh : Fresh}
    (hsent : Sent (m.parts limit fresh).1) :
    ∃ leaves, Outcome m fresh (m.parts limit fresh) leaves := by
  fun_induction parts limit m fresh with
  | case1 m fresh hfits => exact ⟨_, outcome_whole m fresh⟩
  | case2 => exact absurd hsent (not_sent_refusal _ _ _)
  | case3 => exact absurd hsent (not_sent_refusal _ _ _)
  | case4 => exact absurd hsent (not_sent_refusal _ _ _)
  | case5 m fresh hfits hplural hsize max object hobjects hlimit =>
    exact outcome_chunked hobjects hsent
  | case6 => exact absurd hsent (not_sent_refusal _ _ _)
  | case7 => exact absurd hsent (not_sent_refusal _ _ _)
  | case8 m fresh hfits hplural size hsize head rest hsplit id fresh' hdraw first fresh'' hfirst
      second fresh''' hsecond ihfirst ihsecond =>
    obtain ⟨hsentFirst, hsentSecond⟩ := sent_append.1 hsent
    rw [hfirst] at ihfirst
    rw [hsecond] at ihsecond
    obtain ⟨leaves, houtcome⟩ := ihfirst hsentFirst
    obtain ⟨leaves', houtcome'⟩ := ihsecond hsentSecond
    cases hdraw
    exact ⟨leaves ++ leaves', outcome_halved hsize hsplit houtcome houtcome'⟩

namespace Outcome

variable {limit : Option Nat} {m : Message} {fresh : Fresh} {leaves : List Leaf}

theorem messages_eq (h : Outcome m fresh (m.parts limit fresh) leaves) :
    (m.parts limit fresh).1.map Part.message = leaves.flatMap Leaf.messages := by
  rw [h.parts_eq, List.map_map]
  exact List.map_id _

theorem frames_eq (h : Outcome m fresh (m.parts limit fresh) leaves) :
    (m.frames limit fresh).1 = (leaves.flatMap Leaf.messages).map encode := by
  rw [← h.messages_eq, List.map_map]
  rfl

theorem forall_message (h : Outcome m fresh (m.parts limit fresh) leaves) {P : Message → Prop} :
    (∀ p ∈ (m.parts limit fresh).1, P p.message) ↔ ∀ p ∈ leaves.flatMap Leaf.messages, P p := by
  rw [← h.messages_eq]
  exact List.forall_mem_map.symm

theorem exists_message (h : Outcome m fresh (m.parts limit fresh) leaves) {P : Message → Prop} :
    (∃ p ∈ (m.parts limit fresh).1, P p.message) ↔ ∃ p ∈ leaves.flatMap Leaf.messages, P p := by
  rw [← h.messages_eq]
  constructor
  · rintro ⟨p, hp, hP⟩
    exact ⟨p.message, List.mem_map_of_mem hp, hP⟩
  · rintro ⟨q, hq, hP⟩
    obtain ⟨p, hp, rfl⟩ := List.mem_map.1 hq
    exact ⟨p, hp, hP⟩

end Outcome

/-! ## The sender step by step -/

section Steps

variable {limit : Option Nat} {m : Message} {fresh : Fresh}

theorem parts_of_fits (hfits : m.fits limit = true) : m.parts limit fresh = ([m.asPart], fresh) := by
  rw [parts.eq_def]
  simp only [hfits, if_true]
  rfl

theorem parts_of_single {max : Nat} {object : DataObject} (hfits : m.fits (some max) = false)
    (hplural : m.isPlural = true) (hsize : m.body.cuttableSize = some 1)
    (hobjects : m.body.objects = some [object]) :
    m.parts (some max) fresh = chunkedParts max m object fresh := by
  rw [parts.eq_def]
  simp only [hfits, hplural, Bool.false_eq_true, Bool.not_true, if_false]
  split
  case h_3 => simp only [hobjects]
  all_goals simp_all

theorem parts_of_cut {size : Nat} {head rest : Body} (hfits : m.fits limit = false)
    (hplural : m.isPlural = true) (hsize : m.body.cuttableSize = some (size + 2))
    (hsplit : m.body.split ((size + 3) / 2) = some (head, rest)) :
    m.parts limit fresh =
      let first := (m.firstHalf head).parts limit fresh.drawId.2
      let second := (m.secondHalf rest fresh.drawId.1).parts limit first.2
      (first.1 ++ second.1, second.2) := by
  rw [parts.eq_def]
  simp only [hfits, hplural, Bool.false_eq_true, Bool.not_true, if_false]
  split
  case h_4 size' hsize' =>
    rw [hsize] at hsize'
    cases hsize'
    split
    case h_1 hnone =>
      rw [hsplit] at hnone
      cases hnone
    case h_2 head' rest' hsplit' =>
      rw [hsplit] at hsplit'
      cases hsplit'
      rfl
  all_goals simp_all

end Steps

/-! ## What a part has from the message -/

/-- What a part has in common with the message that it is a part of. -/
structure IsPartOf (p m : Message) : Prop where
  named : m.Named → p.Named
  protocol_eq : p.header.protocol = m.header.protocol
  exchangeId_eq : m.exchangeId ≠ 0 → p.exchangeId = m.exchangeId
  wantsAcknowledge_eq : m.wantsAcknowledge = false → p.wantsAcknowledge = false
  isMultipart_eq : m.isMultipart = true → p.isMultipart = true

namespace IsPartOf

variable {m p q : Message}

theorem refl (m : Message) : m.IsPartOf m := ⟨id, rfl, fun _ => rfl, id, id⟩

theorem trans (hp : p.IsPartOf q) (hq : q.IsPartOf m) : p.IsPartOf m where
  named := fun h => hp.named (hq.named h)
  protocol_eq := hp.protocol_eq.trans hq.protocol_eq
  exchangeId_eq := by
    intro h
    have hexchange := hq.exchangeId_eq h
    rw [hp.exchangeId_eq (hexchange ▸ h), hexchange]
  wantsAcknowledge_eq := fun h => hp.wantsAcknowledge_eq (hq.wantsAcknowledge_eq h)
  isMultipart_eq := fun h => hp.isMultipart_eq (hq.isMultipart_eq h)

end IsPartOf

theorem Named.of_kind {m p : Message} (hm : m.Named) (hkind : p.body.kind = m.body.kind)
    (hprotocol : p.header.protocol = m.header.protocol)
    (hnumber : p.header.number = m.header.number) : p.Named where
  protocol_eq := by rw [hprotocol, hm.protocol_eq, Body.protocolId, Body.protocolId, hkind]
  number_eq := by rw [hnumber, hm.number_eq, hkind]

section Halves

variable {m : Message} {count : Nat} {first second : Body} (hcut : m.body.Cut count first second)
  (id : Int64)

@[simp] theorem isFinal_firstHalf (m : Message) (body : Body) :
    (m.firstHalf body).isFinal = false := by
  simp [firstHalf]

@[simp] theorem isMultipart_firstHalf (m : Message) (body : Body) :
    (m.firstHalf body).isMultipart = true := by
  simp [firstHalf]

@[simp] theorem isFinal_secondHalf (m : Message) (body : Body) :
    (m.secondHalf body id).isFinal = m.isFinal := by
  simp only [secondHalf, isFinal_addFlags_multipart]
  rfl

@[simp] theorem isMultipart_secondHalf (m : Message) (body : Body) :
    (m.secondHalf body id).isMultipart = true := by
  simp [secondHalf]

/-- The second half answers the exchange, and so belongs to it, if the exchange has an identifier. -/
theorem exchangeId_secondHalf (body : Body) (h : m.exchangeId ≠ 0) :
    (m.secondHalf body id).exchangeId = m.exchangeId := by
  simp only [secondHalf, exchangeId_addFlags]
  rw [exchangeId, if_neg h]

include hcut

theorem isPartOf_firstHalf : (m.firstHalf first).IsPartOf m where
  named := fun h => h.of_kind (Body.kind_eq_of_cleared hcut.cleared_first) rfl rfl
  protocol_eq := rfl
  exchangeId_eq := fun _ => rfl
  wantsAcknowledge_eq := by
    intro h
    simp only [firstHalf, wantsAcknowledge_setFinal, wantsAcknowledge_addFlags_multipart]
    exact h
  isMultipart_eq := fun _ => isMultipart_firstHalf m first

theorem isPartOf_secondHalf : (m.secondHalf second id).IsPartOf m where
  named := fun h => h.of_kind (Body.kind_eq_of_cleared hcut.cleared_second) rfl rfl
  protocol_eq := rfl
  exchangeId_eq := exchangeId_secondHalf id second
  wantsAcknowledge_eq := by
    intro h
    simp only [secondHalf, wantsAcknowledge_addFlags_multipart]
    exact h
  isMultipart_eq := fun _ => isMultipart_secondHalf id m second

end Halves

section Referencer

variable (m : Message) (blob : Uuid)

@[simp] theorem isFinal_referencer : (m.referencer blob).isFinal = false := by
  simp [referencer]

@[simp] theorem isMultipart_referencer : (m.referencer blob).isMultipart = true := by
  simp [referencer]

theorem isPartOf_referencer : (m.referencer blob).IsPartOf m where
  named := fun h => h.of_kind (Body.kind_mapObjects _ _) rfl rfl
  protocol_eq := rfl
  exchangeId_eq := fun _ => rfl
  wantsAcknowledge_eq := by
    intro h
    simp only [referencer, wantsAcknowledge_addFlags_multipart, wantsAcknowledge_setFinal]
    exact h
  isMultipart_eq := fun _ => isMultipart_referencer m blob

end Referencer

theorem Carries.isPartOf {m : Message} {blob : Uuid} {data : Bytes} {chunks : List Message}
    (h : Carries m blob data chunks) {c : Message} (hc : c ∈ chunks) : c.IsPartOf m := by
  have hprotocol := h.protocol_eq c hc
  obtain ⟨id, isLast, heq⟩ := h.framed c hc
  rw [heq]
  refine ⟨fun _ => named_ofChunk _ _ _ _, hprotocol, ?_, ?_, ?_⟩
  · exact exchangeId_ofChunk _ _ _ _
  · exact fun _ => wantsAcknowledge_ofChunk _ _ _ _
  · exact fun _ => isMultipart_ofChunk _ _ _ _

/-! ## What holds of all leaves -/

end Message

namespace Leaf

/-- A leaf whose chunks carry the content of the only data object of its message. -/
def Valid : Leaf → Prop
  | whole _ => True
  | chunked m blob chunks => ∃ object, m.body.objects = some [object] ∧ object.data ≠ [] ∧
      m.Carries blob object.data chunks

@[simp] theorem flatMap_messages_whole (m : Message) : [whole m].flatMap messages = [m] := rfl

theorem messages_flatMap_append (leaves leaves' : List Leaf) :
    (leaves ++ leaves').flatMap messages = leaves.flatMap messages ++ leaves'.flatMap messages :=
  List.flatMap_append

end Leaf

/-- The header of the first of several parts. -/
def Header.opening (h : Header) : Header := { h with flags := h.flags.opening }

@[simp] theorem Header.opening_opening (h : Header) : h.opening.opening = h.opening := by
  simp [opening]

namespace Message.Spread

variable {m : Message} {leaves : List Leaf}

theorem valid (h : Spread m leaves) : ∀ l ∈ leaves, l.Valid := by
  induction h with
  | whole m =>
    intro l hl
    rw [List.mem_singleton.1 hl]
    trivial
  | chunked hobjects hdata hcarries =>
    intro l hl
    rw [List.mem_singleton.1 hl]
    exact ⟨_, hobjects, hdata, hcarries⟩
  | halved _ _ _ _ _ ihfirst ihsecond =>
    intro l hl
    rcases List.mem_append.1 hl with hl | hl
    · exact ihfirst l hl
    · exact ihsecond l hl

/-- The messages at the leaves agree apart from their entries. -/
theorem cleared_eq (h : Spread m leaves) :
    ∀ l ∈ leaves, l.origin.body.cleared = m.body.cleared := by
  induction h with
  | whole m =>
    intro l hl
    rw [List.mem_singleton.1 hl]
    rfl
  | chunked =>
    intro l hl
    rw [List.mem_singleton.1 hl]
    rfl
  | halved hcut _ _ _ _ ihfirst ihsecond =>
    intro l hl
    rcases List.mem_append.1 hl with hl | hl
    · exact (ihfirst l hl).trans hcut.cleared_first
    · exact (ihsecond l hl).trans hcut.cleared_second

/-- What a cut keeps in its order, the leaves hold in that order. -/
theorem flatMap_origin {α : Type} {part : Body → List α}
    (hpart : ∀ {b first second : Body} {count : Nat}, b.Cut count first second →
      part first ++ part second = part b) (h : Spread m leaves) :
    leaves.flatMap (fun l => part l.origin.body) = part m.body := by
  induction h with
  | whole m => simp [Leaf.origin]
  | chunked => simp [Leaf.origin]
  | halved hcut _ _ _ _ ihfirst ihsecond =>
    rw [List.flatMap_append, ihfirst, ihsecond]
    exact hpart hcut

theorem flatMap_entries (h : Spread m leaves) :
    leaves.flatMap (fun l => l.origin.body.entries) = m.body.entries :=
  h.flatMap_origin (fun hcut => hcut.append_entries)

theorem flatMap_contents (h : Spread m leaves) :
    leaves.flatMap (fun l => l.origin.body.contents) = m.body.contents :=
  h.flatMap_origin (fun hcut => hcut.append_contents)

theorem isPartOf (h : Spread m leaves) : ∀ p ∈ leaves.flatMap Leaf.messages, p.IsPartOf m := by
  induction h with
  | whole m =>
    intro p hp
    rw [show p = m by simpa [Leaf.messages, Leaf.carrier, Leaf.chunks] using hp]
    exact .refl m
  | @chunked m object blob chunks hobjects hdata hcarries =>
    intro p hp
    have hp : p = m.referencer blob ∨ p ∈ chunks := by
      simpa [Leaf.messages, Leaf.carrier, Leaf.chunks] using hp
    rcases hp with rfl | hp
    · exact isPartOf_referencer m blob
    · exact hcarries.isPartOf hp
  | halved hcut _ _ _ _ ihfirst ihsecond =>
    intro p hp
    rw [Leaf.messages_flatMap_append] at hp
    rcases List.mem_append.1 hp with hp | hp
    · exact (ihfirst p hp).trans (isPartOf_firstHalf hcut)
    · exact (ihsecond p hp).trans (isPartOf_secondHalf hcut _)

/-- Only the last part may be final; it is so if the message was. -/
theorem ends (h : Spread m leaves) : EndsWith m.isFinal (leaves.flatMap Leaf.messages) := by
  induction h with
  | whole m => simpa [Leaf.messages, Leaf.carrier, Leaf.chunks] using EndsWith.single m
  | @chunked m object blob chunks hobjects hdata hcarries =>
    have hreferencer := EndsWith.single (m.referencer blob)
    rw [isFinal_referencer] at hreferencer
    simpa [Leaf.messages, Leaf.carrier, Leaf.chunks] using hreferencer.append hcarries.ends
  | halved hcut _ _ _ _ ihfirst ihsecond =>
    rw [Leaf.messages_flatMap_append]
    rw [isFinal_firstHalf] at ihfirst
    rw [isFinal_secondHalf] at ihsecond
    exact ihfirst.append ihsecond

/-- A message that is not sent as it is becomes a multipart message. -/
theorem isMultipart (h : Spread m leaves) (hsplit : leaves ≠ [.whole m]) :
    ∀ p ∈ leaves.flatMap Leaf.messages, p.isMultipart = true := by
  intro p hp
  cases h with
  | whole => exact absurd rfl hsplit
  | chunked hobjects hdata hcarries =>
    simp only [List.flatMap_cons, List.flatMap_nil, List.append_nil, Leaf.messages,
      Leaf.carrier, Leaf.chunks] at hp
    rcases List.mem_cons.1 hp with rfl | hp
    · exact isMultipart_referencer _ _
    · obtain ⟨id, isLast, heq⟩ := hcarries.framed p hp
      rw [heq]
      exact isMultipart_ofChunk _ _ _ _
  | halved hcut _ _ hfirst hsecond =>
    rw [Leaf.messages_flatMap_append] at hp
    rcases List.mem_append.1 hp with hp | hp
    · exact (hfirst.isPartOf p hp).isMultipart_eq (isMultipart_firstHalf _ _)
    · exact (hsecond.isPartOf p hp).isMultipart_eq (isMultipart_secondHalf _ _ _)

/-- The first part has the header of the message, marked as the first of several. -/
theorem opens (h : Spread m leaves) (hsplit : leaves ≠ [.whole m]) :
    ∃ l rest, leaves = l :: rest ∧ l.carrier.header = m.header.opening := by
  induction h with
  | whole m => exact absurd rfl hsplit
  | @chunked m object blob chunks =>
    refine ⟨.chunked m blob chunks, [], rfl, ?_⟩
    have hflags := Flags.union_multipart_put_final m.header.flags
    simp only [Leaf.carrier, referencer, addFlags, setFinal, withFlags, hflags]
    rfl
  | @halved m count first second id leaves leaves' hcut hcount hrest hfirst hsecond ihfirst =>
    have hheader : (m.firstHalf first).header = m.header.opening := rfl
    by_cases hwhole : leaves = [.whole (m.firstHalf first)]
    · subst hwhole
      exact ⟨_, leaves', rfl, hheader⟩
    · obtain ⟨l, rest, rfl, hopening⟩ := ihfirst hwhole
      refine ⟨l, rest ++ leaves', rfl, ?_⟩
      rw [hopening, hheader, Header.opening_opening]

theorem entries_ne_nil_of_ne_nil (h : Spread m leaves) (hm : m.body.entries ≠ []) :
    ∀ l ∈ leaves, l.origin.body.entries ≠ [] := by
  induction h with
  | whole m =>
    intro l hl
    rw [List.mem_singleton.1 hl]
    exact hm
  | chunked =>
    intro l hl
    rw [List.mem_singleton.1 hl]
    exact hm
  | halved hcut hcount hrest _ _ ihfirst ihsecond =>
    intro l hl
    rcases List.mem_append.1 hl with hl | hl
    · refine ihfirst ?_ l hl
      rw [← List.length_pos_iff, firstHalf]
      simp only [setFinal, addFlags, withFlags, hcut.entries_first, List.length_take]
      omega
    · refine ihsecond ?_ l hl
      rw [← List.length_pos_iff, secondHalf]
      simp only [addFlags, withFlags, hcut.entries_second, List.length_drop]
      omega

/-- No leaf is empty, unless the message is sent as it is. -/
theorem entries_ne_nil (h : Spread m leaves) (hsplit : leaves ≠ [.whole m]) :
    ∀ l ∈ leaves, l.origin.body.entries ≠ [] := by
  refine h.entries_ne_nil_of_ne_nil ?_
  cases h with
  | whole => exact absurd rfl hsplit
  | chunked hobjects =>
    obtain ⟨hchunkable, hcontents⟩ := Body.objects_eq_some_iff.1 hobjects
    rw [Body.entries_eq_contents hchunkable]
    intro hnil
    rw [List.map_eq_nil_iff.1 hnil] at hcontents
    cases hcontents
  | halved _ _ hrest =>
    exact List.ne_nil_of_length_pos (by omega)

end Message.Spread

end Etp
