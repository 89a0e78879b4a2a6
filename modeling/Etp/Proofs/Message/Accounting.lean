import Etp.Proofs.Message.Identifiers
import Etp.Proofs.Message.Reassembly
import Mathlib.Data.Nat.Log

/-!
# What it costs to send a message

Whatever is sent in the place of a message is sent in the same way again: its halves, its referencer and
its chunks are messages too.  `partsWithin` follows these nested messages down to a given depth.  They end,
since the halves have fewer entries and neither a referencer nor a chunk can be taken apart any further;
`partsWithin_eq` says how deep they are nested at most, and that `parts` is what comes of them.

Each part beyond the first one costs an identifier, and so does each report that stands for something that
could not be sent (`Accounted`).  `frames_accounted` puts both together with the bound on every frame that
is no report.
-/

namespace Etp

/-! ## Bodies that cannot be taken apart -/

namespace Body

theorem cuttableSize_of_objects {b : Body} {objects : List DataObject} (h : b.objects = some objects) :
    b.cuttableSize = some objects.length := by
  obtain ⟨o, ho, rfl⟩ := Option.map_eq_some_iff.1 h
  rw [cuttableSize, Kind.collection_of_objects ho, Option.map_some, ← Collection.length_entries,
    o.entries_collection, o.toList_eq, List.length_map, List.length_map]

theorem objects_mapObjects (f : DataObject → DataObject) (b : Body) :
    (b.mapObjects f).objects = b.objects.map (List.map f) := by
  unfold mapObjects
  cases ho : b.kind.objects with
  | none => simp [objects, ho]
  | some o => simp [objects, ho]

end Body

namespace Message

/-! ## Nested messages -/

/-- The messages of several chunks, each sent by `send` under an identifier that is drawn for it. -/
def chunkPartsBy (send : Message → Fresh → Option (List Part × Fresh)) (exchangeId : Int64)
    (isFinal : Bool) : List Body → Fresh → Option (List Part × Fresh)
  | [], fresh => some ([], fresh)
  | body :: bodies, fresh => do
    let (id, fresh) := fresh.drawId
    let (parts, fresh) ← send (ofChunk body id exchangeId (isFinal && bodies.isEmpty)) fresh
    let (others, fresh) ← chunkPartsBy send exchangeId isFinal bodies fresh
    some (parts ++ others, fresh)

/-- The message of a single data object as a referencer and chunks, each of them sent by `send`. -/
def chunkedPartsBy (send : Message → Fresh → Option (List Part × Fresh)) (max : Nat) (m : Message)
    (object : DataObject) (fresh : Fresh) : Option (List Part × Fresh) :=
  let size := max - chunkMargin
  if size = 0 || object.data.isEmpty then
    some (refusal .maxSizeExceeded m.header.correlationId fresh)
  else
    let count := (m.body.write.length + size - 1) / size
    let (blob, fresh) := fresh.drawBlob
    match (chunksOf blob size count object.data).mapM (·.toBody? m.header.protocol) with
    | none =>
      some (refusal (.internal s!"no chunk message in protocol {m.header.protocol.toInt}")
        m.header.correlationId fresh)
    | some chunks => do
      let (first, fresh) ← send (m.referencer blob) fresh
      let (others, fresh) ← chunkPartsBy send m.exchangeId m.isFinal chunks fresh
      some (first ++ others, fresh)

/-- The parts in which a message is sent, if its halves, or its referencer and its chunks, are sent by
`send`. -/
def partsBy (send : Message → Fresh → Option (List Part × Fresh)) (limit : Option Nat) (m : Message)
    (fresh : Fresh) : Option (List Part × Fresh) :=
  let refused := refusal .maxSizeExceeded m.header.correlationId fresh
  if m.fits limit then some ([m.asPart], fresh)
  else if !m.isPlural then some refused
  else
    match m.body.cuttableSize with
    | none => some refused
    | some 0 => some refused
    | some 1 =>
      match limit, m.body.objects with
      | some max, some [object] => chunkedPartsBy send max m object fresh
      | _, _ => some refused
    | some (size + 2) =>
      match m.body.split ((size + 3) / 2) with
      | none => some refused
      | some (head, rest) => do
        let (id, fresh) := fresh.drawId
        let (first, fresh) ← send (m.firstHalf head) fresh
        let (second, fresh) ← send (m.secondHalf rest id) fresh
        some (first ++ second, fresh)

/-- The parts in which a message is sent, if everything that is sent in its place, and in the place of
that, is sent in the same way.  None if the messages are nested deeper than `depth`. -/
def partsWithin (limit : Option Nat) : (depth : Nat) → Message → Fresh → Option (List Part × Fresh)
  | 0 => fun _ _ => none
  | depth + 1 => partsBy (partsWithin limit depth) limit

theorem partsWithin_succ (limit : Option Nat) (depth : Nat) :
    partsWithin limit (depth + 1) = partsBy (partsWithin limit depth) limit := rfl

/-- A bound on how deep the messages are nested that are sent in the place of a message. -/
def nesting (m : Message) : Nat := Nat.clog 2 (m.body.cuttableSize.getD 0) + 2

theorem nesting_of_cut {m p : Message} {size count : Nat} (hsize : m.body.cuttableSize = some (size + 2))
    (hcount : p.body.cuttableSize = some count) (hhalf : count ≤ (size + 3) / 2) :
    p.nesting + 1 ≤ m.nesting := by
  have hclog : Nat.clog 2 (size + 2) = Nat.clog 2 ((size + 3) / 2) + 1 :=
    Nat.clog_of_two_le (by decide) (by omega)
  have hle : Nat.clog 2 count ≤ Nat.clog 2 ((size + 3) / 2) := Nat.clog_mono_right 2 hhalf
  simp only [nesting, hsize, hcount, Option.getD_some]
  omega

/-- A referencer has no content that could be moved to chunks. -/
theorem partsWithin_referencer {max : Nat} {m : Message} {object : DataObject}
    (hobjects : m.body.objects = some [object]) (depth : Nat) (blob : Uuid) (fresh : Fresh) :
    partsWithin (some max) (depth + 1) (m.referencer blob) fresh =
      some (onePart (some max) (m.referencer blob) fresh) := by
  have hemptied : (m.referencer blob).body.objects = some [object.withContent (some blob) []] := by
    have hbody : (m.referencer blob).body =
        m.body.mapObjects (fun o => o.withContent (some blob) []) := rfl
    rw [hbody, Body.objects_mapObjects, hobjects]
    rfl
  have hsize := Body.cuttableSize_of_objects hemptied
  rw [partsWithin_succ]
  unfold partsBy onePart
  cases hfits : (m.referencer blob).fits (some max) with
  | true => rfl
  | false => simp [hsize, hemptied, chunkedPartsBy]

theorem partsWithin_ofChunk {body : Body} (hchunk : body.isChunk = true) (depth : Nat)
    (limit : Option Nat) (id exchangeId : Int64) (isFinal : Bool) (fresh : Fresh) :
    partsWithin limit (depth + 1) (ofChunk body id exchangeId isFinal) fresh =
      some (onePart limit (ofChunk body id exchangeId isFinal) fresh) := by
  have hsize : (ofChunk body id exchangeId isFinal).body.cuttableSize = none :=
    Body.cuttableSize_of_isChunk hchunk
  rw [partsWithin_succ]
  unfold partsBy onePart
  cases hfits : (ofChunk body id exchangeId isFinal).fits limit with
  | true => rfl
  | false => simp [hsize]

theorem chunkPartsBy_eq {bodies : List Body} (hchunks : ∀ b ∈ bodies, b.isChunk = true) (depth : Nat)
    (limit : Option Nat) (exchangeId : Int64) (isFinal : Bool) (fresh : Fresh) :
    chunkPartsBy (partsWithin limit (depth + 1)) exchangeId isFinal bodies fresh =
      some (chunkParts limit exchangeId isFinal bodies fresh) := by
  induction bodies generalizing fresh with
  | nil => rfl
  | cons body bodies ih =>
    obtain ⟨hbody, hbodies⟩ := List.forall_mem_cons.1 hchunks
    simp only [chunkPartsBy, partsWithin_ofChunk hbody, ih hbodies, chunkParts_cons,
      Option.bind_eq_bind, Option.bind_some]

theorem chunkedPartsBy_eq {max : Nat} {m : Message} {object : DataObject}
    (hobjects : m.body.objects = some [object]) (depth : Nat) (fresh : Fresh) :
    chunkedPartsBy (partsWithin (some max) (depth + 1)) max m object fresh =
      some (chunkedParts max m object fresh) := by
  let size := max - chunkMargin
  let chunks := chunksOf fresh.drawBlob.1 size ((m.body.write.length + size - 1) / size) object.data
  unfold chunkedPartsBy chunkedParts
  simp only
  split
  case isTrue => rfl
  case isFalse =>
    cases hbodies : chunks.mapM (·.toBody? m.header.protocol) with
    | none => rfl
    | some bodies =>
      have hchunks : ∀ b ∈ bodies, b.isChunk = true := by
        intro b hb
        obtain ⟨_, c, _, hchunk⟩ := (Chunk.bodies_of_mapM hbodies).2 b hb
        rw [Body.isChunk_eq, hchunk]
        rfl
      simp only [partsWithin_referencer hobjects, chunkPartsBy_eq hchunks,
        Option.bind_eq_bind, Option.bind_some]

/-- Messages are nested no deeper than the bound says, and `parts` is what comes of sending them. -/
theorem partsWithin_eq {limit : Option Nat} {m : Message} {fresh : Fresh} {depth : Nat}
    (hdepth : m.nesting ≤ depth) : partsWithin limit depth m fresh = some (m.parts limit fresh) := by
  -- One level for the message itself, and one for a referencer and its chunks below it.
  obtain ⟨d, rfl⟩ : ∃ d, depth = d + 2 := by
    have hbase : 2 ≤ m.nesting := by simp [nesting]
    exact ⟨depth - 2, by omega⟩
  rw [partsWithin_succ]
  fun_induction parts limit m fresh generalizing d with
  | case1 m fresh hfits =>
    unfold partsBy
    rw [if_pos hfits, asPart]
  | case2 m fresh refused hfits hplural =>
    unfold partsBy
    rw [if_neg hfits, if_pos hplural]
  | case3 m fresh refused hfits hplural hsize =>
    unfold partsBy
    rw [if_neg hfits, if_neg hplural, hsize]
  | case4 m fresh refused hfits hplural hsize =>
    unfold partsBy
    rw [if_neg hfits, if_neg hplural, hsize]
  | case5 m fresh hfits hplural hsize max object hobjects hlimit =>
    subst hlimit
    unfold partsBy
    rw [if_neg hfits, if_neg hplural, hsize, hobjects]
    exact chunkedPartsBy_eq hobjects d fresh
  | case6 m fresh refused hfits hplural hsize hother =>
    unfold partsBy
    rw [if_neg hfits, if_neg hplural, hsize]
    simp only
    rfl
  | case7 m fresh refused hfits hplural size hsize hsplit =>
    unfold partsBy
    rw [if_neg hfits, if_neg hplural, hsize]
    simp only [hsplit]
    rfl
  | case8 m fresh hfits hplural size hsize head rest hsplit id fresh' hdraw first fresh'' hfirst
      second fresh''' hsecond ihfirst ihsecond =>
    obtain ⟨hhead, hrest⟩ := Body.cuttableSize_split hsize hsplit
    have hcut := nesting_of_cut (p := m.firstHalf head) hsize hhead (by omega)
    have hcut' := nesting_of_cut (p := m.secondHalf rest id) hsize hrest (by omega)
    obtain ⟨e, rfl⟩ : ∃ e, d = e + 1 := by
      have hbase : 2 ≤ (m.firstHalf head).nesting := by simp [nesting]
      exact ⟨d - 1, by omega⟩
    have hfirst' := (ihfirst e (by omega)).trans (congrArg some hfirst)
    have hsecond' := (ihsecond e (by omega)).trans (congrArg some hsecond)
    unfold partsBy
    rw [if_neg hfits, if_neg hplural, hsize]
    simp only [hsplit, hdraw]
    rw [partsWithin_succ, hfirst', Option.bind_eq_bind, Option.bind_some, hsecond',
      Option.bind_some]

/-! ## What is drawn and what is emitted -/

/-- A part is within the limit, or it is the final report of a fault. -/
def Bounded (limit : Option Nat) (p : Part) : Prop :=
  if p.isRefusal then
    ∃ (fault : Fault) (id correlationId : Int64),
      p.message = (fault.toMessage id correlationId).setFinal true
  else p.message.fits limit = true

/-- One identifier was drawn for each part, and one more for each report, where `own` identifiers had
been there before. -/
structure Accounted (limit : Option Nat) (own : Nat) (fresh : Fresh)
    (result : List Part × Fresh) : Prop where
  drawn : ∃ ids, fresh.ids.Draws ids result.2.ids ∧
    ids.length + own = result.1.length + result.1.countP Part.isRefusal
  bounded : ∀ p ∈ result.1, Bounded limit p

namespace Accounted

variable {limit : Option Nat} {own own' : Nat} {fresh : Fresh} {result result' : List Part × Fresh}

theorem nil (limit : Option Nat) (fresh : Fresh) : Accounted limit 0 fresh ([], fresh) where
  drawn := ⟨[], .refl fresh.ids, rfl⟩
  bounded := fun _ hp => by cases hp

theorem whole {m : Message} (hfits : m.fits limit = true) :
    Accounted limit 1 fresh ([m.asPart], fresh) where
  drawn := ⟨[], .refl fresh.ids, rfl⟩
  bounded := by
    rw [List.forall_mem_singleton]
    exact hfits

theorem refusal (limit : Option Nat) (fault : Fault) (correlationId : Int64) (fresh : Fresh) :
    Accounted limit 1 fresh (Message.refusal fault correlationId fresh) where
  drawn := ⟨_, .draw fresh.ids, rfl⟩
  bounded := by
    have hparts : (Message.refusal fault correlationId fresh).1 =
        [⟨(fault.toMessage fresh.drawId.1 correlationId).setFinal true, true⟩] := rfl
    rw [hparts, List.forall_mem_singleton]
    exact ⟨fault, fresh.drawId.1, correlationId, rfl⟩

/-- An identifier that is drawn first is one more that had been there before the rest. -/
theorem after_draw (h : Accounted limit (own + 1) fresh.drawId.2 result) :
    Accounted limit own fresh result where
  drawn := by
    obtain ⟨ids, hdraws, hlength⟩ := h.drawn
    refine ⟨[fresh.drawId.1] ++ ids, .append (.draw fresh.ids) hdraws, ?_⟩
    rw [List.length_append, List.length_singleton]
    omega
  bounded := h.bounded

theorem after_drawBlob (h : Accounted limit own fresh.drawBlob.2 result) :
    Accounted limit own fresh result := ⟨h.drawn, h.bounded⟩

theorem append (h : Accounted limit own fresh result) (h' : Accounted limit own' result.2 result') :
    Accounted limit (own + own') fresh (result.1 ++ result'.1, result'.2) where
  drawn := by
    obtain ⟨ids, hdraws, hlength⟩ := h.drawn
    obtain ⟨ids', hdraws', hlength'⟩ := h'.drawn
    refine ⟨ids ++ ids', hdraws.append hdraws', ?_⟩
    simp only [List.length_append, List.countP_append]
    omega
  bounded := fun p hp => (List.mem_append.1 hp).elim (h.bounded p) (h'.bounded p)

end Accounted

theorem onePart_accounted (limit : Option Nat) (m : Message) (fresh : Fresh) :
    Accounted limit 1 fresh (onePart limit m fresh) := by
  unfold onePart
  split
  case isTrue hfits => exact .whole hfits
  case isFalse => exact .refusal limit _ _ fresh

theorem chunkParts_accounted (limit : Option Nat) (exchangeId : Int64) (isFinal : Bool)
    (bodies : List Body) (fresh : Fresh) :
    Accounted limit 0 fresh (chunkParts limit exchangeId isFinal bodies fresh) := by
  induction bodies generalizing fresh with
  | nil => exact .nil limit fresh
  | cons body bodies ih =>
    rw [chunkParts_cons]
    have hone := onePart_accounted limit
      (ofChunk body fresh.drawId.1 exchangeId (isFinal && bodies.isEmpty)) fresh.drawId.2
    have hall := hone.append (ih _)
    exact .after_draw hall

theorem chunkedParts_accounted (max : Nat) (m : Message) (object : DataObject) (fresh : Fresh) :
    Accounted (some max) 1 fresh (chunkedParts max m object fresh) := by
  unfold chunkedParts
  simp only
  split
  case isTrue => exact .refusal _ _ _ fresh
  case isFalse =>
    split
    case h_1 => exact .after_drawBlob (.refusal _ _ _ fresh.drawBlob.2)
    case h_2 bodies _ =>
      have hfirst := onePart_accounted (some max) (m.referencer fresh.drawBlob.1) fresh.drawBlob.2
      exact .after_drawBlob (hfirst.append (chunkParts_accounted (some max) _ _ bodies _))

/-- The message brought one identifier along; all others were drawn. -/
theorem parts_accounted (limit : Option Nat) (m : Message) (fresh : Fresh) :
    Accounted limit 1 fresh (m.parts limit fresh) := by
  fun_induction parts limit m fresh with
  | case1 m fresh hfits => exact .whole hfits
  | case2 m fresh | case3 m fresh | case4 m fresh | case6 m fresh | case7 m fresh =>
    exact .refusal limit _ _ fresh
  | case5 m fresh hfits hplural hsize max object hobjects hlimit =>
    rw [hlimit]
    exact chunkedParts_accounted max m object fresh
  | case8 m fresh hfits hplural size hsize head rest hsplit id fresh' hdraw first fresh'' hfirst
      second fresh''' hsecond ihfirst ihsecond =>
    rw [hfirst] at ihfirst
    rw [hsecond] at ihsecond
    cases hdraw
    exact .after_draw (ihfirst.append ihsecond)

/-- A message is sent in finitely many frames, and at least in one, however small the limit is.  Each
frame beyond the first one costs an identifier, and each report another one.  Every frame is within the
limit, unless it is a report; a message that is within the limit is the only frame, and costs nothing. -/
theorem frames_accounted (limit : Option Nat) (m : Message) (fresh : Fresh) :
    (∀ depth, m.nesting ≤ depth → partsWithin limit depth m fresh = some (m.parts limit fresh)) ∧
      (m.frames limit fresh).1 ≠ [] ∧
      (∃ ids, fresh.ids.Draws ids (m.frames limit fresh).2.ids ∧
        ids.length = (m.frames limit fresh).1.length - 1 +
          (m.parts limit fresh).1.countP Part.isRefusal) ∧
      List.Forall₂ (fun (frame : Bytes) (p : Part) => frame = p.message.encode ∧ Bounded limit p)
        (m.frames limit fresh).1 (m.parts limit fresh).1 ∧
      ((limit = none ∨ m.fits limit = true) → m.frames limit fresh = ([m.encode], fresh)) := by
  have hframes : m.frames limit fresh =
    ((m.parts limit fresh).1.map (·.message.encode), (m.parts limit fresh).2) := rfl
  obtain ⟨⟨ids, hdraws, hlength⟩, hbounded⟩ := parts_accounted limit m fresh
  have hreports : (m.parts limit fresh).1.countP Part.isRefusal ≤ (m.parts limit fresh).1.length :=
    List.countP_le_length
  refine ⟨fun depth hdepth => partsWithin_eq hdepth, ?_, ⟨ids, hdraws, ?_⟩, ?_, ?_⟩
  · rw [hframes, ne_eq, List.map_eq_nil_iff, ← List.length_eq_zero_iff]
    omega
  · rw [hframes, List.length_map]
    omega
  · rw [hframes, List.forall₂_map_left_iff, List.forall₂_same]
    exact fun p hp => ⟨rfl, hbounded p hp⟩
  · intro h
    have hfits : m.fits limit = true := by
      rcases h with rfl | hfits
      · rfl
      · exact hfits
    rw [hframes, parts_of_fits hfits]
    rfl

/-- Neither of two objects can be sent under a limit of 50 bytes: one identifier is drawn for the second
half of the message, and one for each of the two reports. -/
theorem frames_accounted_twoLarge :
    (twoLarge.parts (some 50) countingFresh).1.map Part.isRefusal = [true, true] ∧
      ∃ ids, countingFresh.ids.Draws ids (twoLarge.frames (some 50) countingFresh).2.ids ∧
        ids.length = 3 := by
  obtain ⟨-, -, ⟨ids, hdraws, hlength⟩, -⟩ := frames_accounted (some 50) twoLarge countingFresh
  have hreports : (twoLarge.parts (some 50) countingFresh).1.countP Part.isRefusal = 2 := by
    decide +kernel
  have hframes : (twoLarge.frames (some 50) countingFresh).1.length = 2 := by decide +kernel
  rw [hreports, hframes] at hlength
  exact ⟨by decide +kernel, ids, hdraws, hlength⟩

end Message

end Etp
