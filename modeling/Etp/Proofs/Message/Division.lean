import Etp.Proofs.Message.Reassembly
import Mathlib.Data.List.Forall2

/-!
# Entries are divided among the frames

A message that is too large is halved until its pieces are within the limit, and a piece of a single
entry that is still too large is refused.  `Tried` lists the pieces whose frames are tried, in their
order, each with the identifiers that are left for it.  The main statement is `runs_of_frames`: each
frame stands for the piece tried at its place, and the pieces hold consecutive runs of the entries, none
of which is left out, sent twice or moved.

The statements are about messages without data objects whose content could travel in chunks.
-/

namespace Etp

/-! ## Pieces of a message -/

namespace Flags

/-- The flags of a piece of a message with the flags `f`: it is the message itself, or it is marked as
a part, of which only the last one may be final. -/
def OfPiece (f g : Flags) : Prop := g = f ∨ g = f.opening ∨ g = f.union .multipart

theorem opening_union_multipart (f : Flags) : (f.union .multipart).opening = f.opening := by
  apply ext_bit
  intro i
  by_cases h0 : i = 0 <;> simp [opening, h0]

theorem union_multipart_opening (f : Flags) : f.opening.union .multipart = f.opening := by
  apply ext_bit
  intro i
  by_cases h0 : i = 0 <;> simp [opening, h0]

theorem union_multipart_twice (f : Flags) :
    (f.union .multipart).union .multipart = f.union .multipart := by
  apply ext_bit
  intro i
  by_cases h0 : i = 0 <;> simp [h0]

theorem OfPiece.trans {f g k : Flags} (h : f.OfPiece g) (h' : g.OfPiece k) : f.OfPiece k := by
  rcases h' with rfl | rfl | rfl
  · exact h
  · refine .inr (.inl ?_)
    rcases h with rfl | rfl | rfl
    · rfl
    · exact opening_opening f
    · exact opening_union_multipart f
  · rcases h with rfl | rfl | rfl
    · exact .inr (.inr rfl)
    · exact .inr (.inl (union_multipart_opening f))
    · exact .inr (.inr (union_multipart_twice f))

end Flags

namespace Message

/-- A message with some of the entries of `m`, sent in the place of `m`: it repeats every other field of
the body, and its header names the same kind of body in the same exchange. -/
structure Piece (m q : Message) : Prop where
  cleared_eq : q.body.cleared = m.body.cleared
  protocol_eq : q.header.protocol = m.header.protocol
  number_eq : q.header.number = m.header.number
  exchangeId_eq : m.exchangeId ≠ 0 → q.exchangeId = m.exchangeId
  flags_eq : m.header.flags.OfPiece q.header.flags

namespace Piece

variable {m p q : Message}

theorem refl (m : Message) : Piece m m := ⟨rfl, rfl, rfl, fun _ => rfl, .inl rfl⟩

theorem trans (h : Piece m p) (h' : Piece p q) : Piece m q where
  cleared_eq := h'.cleared_eq.trans h.cleared_eq
  protocol_eq := h'.protocol_eq.trans h.protocol_eq
  number_eq := h'.number_eq.trans h.number_eq
  exchangeId_eq := by
    intro hexchange
    have hfirst := h.exchangeId_eq hexchange
    exact (h'.exchangeId_eq (hfirst ▸ hexchange)).trans hfirst
  flags_eq := h.flags_eq.trans h'.flags_eq

end Piece

section Halves

variable {m : Message} {count : Nat} {first second : Body}

theorem piece_firstHalf (hcut : m.body.Cut count first second) : Piece m (m.firstHalf first) where
  cleared_eq := hcut.cleared_first
  protocol_eq := rfl
  number_eq := rfl
  exchangeId_eq := (isPartOf_firstHalf hcut).exchangeId_eq
  flags_eq := .inr (.inl rfl)

theorem piece_secondHalf (hcut : m.body.Cut count first second) (id : Int64) :
    Piece m (m.secondHalf second id) where
  cleared_eq := hcut.cleared_second
  protocol_eq := rfl
  number_eq := rfl
  exchangeId_eq := (isPartOf_secondHalf hcut id).exchangeId_eq
  flags_eq := .inr (.inr rfl)

end Halves

/-! ## The parts that are tried -/

/-- The parts whose frames are tried when a message is sent under a limit, in their order, each with the
sender as it is at that moment; the last argument is the sender afterwards.  A message within the limit
and a message of a single entry are tried themselves.  Any other one is halved: the identifier of the
second half is drawn first, then the parts of both halves are tried. -/
inductive Tried (limit : Option Nat) : Message → Fresh → List (Message × Fresh) → Fresh → Prop
  | whole {m : Message} {fresh : Fresh} (hfits : m.fits limit = true) :
    Tried limit m fresh [(m, fresh)] fresh
  | refused {m : Message} {fresh : Fresh} (hlarge : m.fits limit = false)
      (hsize : m.body.cuttableSize = some 1) :
    Tried limit m fresh [(m, fresh)] fresh.drawId.2
  | halved {m : Message} {fresh fresh' fresh'' : Fresh} {size : Nat} {head rest : Body}
      {tried tried' : List (Message × Fresh)} (hlarge : m.fits limit = false)
      (hsize : m.body.cuttableSize = some (size + 2))
      (hsplit : m.body.split ((size + 3) / 2) = some (head, rest))
      (hfirst : Tried limit (m.firstHalf head) fresh.drawId.2 tried fresh')
      (hsecond : Tried limit (m.secondHalf rest fresh.drawId.1) fresh' tried' fresh'') :
    Tried limit m fresh (tried ++ tried') fresh''

/-- Both halves of a body with at least two entries have entries. -/
theorem entries_of_halves {body head rest : Body} {size : Nat}
    (hsize : body.cuttableSize = some (size + 2))
    (hsplit : body.split ((size + 3) / 2) = some (head, rest)) :
    head.entries ≠ [] ∧ rest.entries ≠ [] := by
  have hcut := Body.cut_of_split hsplit
  have hlength := Body.cuttableSize_eq hsize
  constructor
  · rw [← List.length_pos_iff, hcut.entries_first, List.length_take]
    omega
  · rw [← List.length_pos_iff, hcut.entries_second, List.length_drop]
    omega

namespace Tried

variable {limit : Option Nat} {m : Message} {fresh fresh' : Fresh} {tried : List (Message × Fresh)}

/-- The parts that are tried hold the entries of the message, in their order. -/
theorem entries_eq (h : Tried limit m fresh tried fresh') :
    tried.flatMap (·.1.body.entries) = m.body.entries := by
  induction h with
  | whole => exact List.flatMap_singleton _ _
  | refused => exact List.flatMap_singleton _ _
  | halved _ _ hsplit _ _ ihfirst ihsecond =>
    rw [List.flatMap_append, ihfirst, ihsecond]
    exact (Body.cut_of_split hsplit).append_entries

/-- Each part that is tried is a piece of the message, and has entries. -/
theorem piece_of_mem (h : Tried limit m fresh tried fresh') (hentries : m.body.entries ≠ []) :
    ∀ t ∈ tried, Piece m t.1 ∧ t.1.body.entries ≠ [] := by
  induction h with
  | @whole m => simpa using ⟨Piece.refl m, hentries⟩
  | @refused m => simpa using ⟨Piece.refl m, hentries⟩
  | @halved _ fresh _ _ _ _ _ _ _ _ hsize hsplit _ _ ihfirst ihsecond =>
    have hcut := Body.cut_of_split hsplit
    obtain ⟨hhead, hrest⟩ := entries_of_halves hsize hsplit
    intro t ht
    rcases List.mem_append.1 ht with ht | ht
    · obtain ⟨hpiece, ht⟩ := ihfirst hhead t ht
      exact ⟨(piece_firstHalf hcut).trans hpiece, ht⟩
    · obtain ⟨hpiece, ht⟩ := ihsecond hrest t ht
      exact ⟨(piece_secondHalf hcut fresh.drawId.1).trans hpiece, ht⟩

end Tried

/-! ## What is sent for them -/

/-- What is sent for a part that is tried: the part itself if its frame is within the limit, and otherwise
the report that it is too large, under the next identifier of the sender. -/
def answer (limit : Option Nat) (tried : Message × Fresh) : Part :=
  if tried.1.fits limit then ⟨tried.1, false⟩
  else ⟨(Fault.maxSizeExceeded.toMessage tried.2.drawId.1 tried.1.header.correlationId).setFinal true,
    true⟩

theorem answer_of_fits {limit : Option Nat} {m : Message} (hfits : m.fits limit = true)
    (fresh : Fresh) : answer limit (m, fresh) = ⟨m, false⟩ := if_pos hfits

theorem refusal_eq_answer {limit : Option Nat} {m : Message} (hlarge : m.fits limit = false)
    (fresh : Fresh) : refusal .maxSizeExceeded m.header.correlationId fresh =
      ([answer limit (m, fresh)], fresh.drawId.2) := by
  rw [answer, if_neg (by simp [hlarge])]
  rfl

/-- A message with entries, none of which is a data object whose content could travel in chunks. -/
structure Divisible (m : Message) : Prop where
  plural : m.isPlural = true
  entries_ne_nil : m.body.entries ≠ []
  not_chunkable : m.isChunkable = false

theorem Divisible.of_kind {m : Message} {b : Body} (h : m.Divisible) (header : Header)
    (hkind : b.kind = m.body.kind) (hentries : b.entries ≠ []) : Divisible ⟨header, b⟩ where
  plural := (congrArg Kind.isPlural hkind).trans h.plural
  entries_ne_nil := hentries
  not_chunkable := by
    rw [isChunkable, Body.isChunkable, hkind]
    exact h.not_chunkable

/-- The parts of such a message are the answers to those that are tried, whatever the limit. -/
theorem parts_tried {limit : Option Nat} {m : Message} {fresh : Fresh} (h : m.Divisible) :
    ∃ tried, Tried limit m fresh tried (m.parts limit fresh).2 ∧
      (m.parts limit fresh).1 = tried.map (answer limit) := by
  fun_induction parts limit m fresh with
  | case1 m fresh hfits => exact ⟨[(m, fresh)], .whole hfits, by simp [answer_of_fits hfits]⟩
  | case2 m fresh refused hfits hplural =>
    rw [h.plural] at hplural
    cases hplural
  | case3 m fresh refused hfits hplural hsize =>
    have hcollection := Body.collection_of_entries h.entries_ne_nil
    exact absurd (Option.map_eq_none_iff.1 hsize) hcollection
  | case4 m fresh refused hfits hplural hsize =>
    have hlength := Body.cuttableSize_eq hsize
    exact absurd (List.length_eq_zero_iff.1 hlength) h.entries_ne_nil
  | case5 m fresh hfits hplural hsize max object hobjects =>
    have hchunkable : m.isChunkable = true := (Body.objects_eq_some_iff.1 hobjects).1
    rw [h.not_chunkable] at hchunkable
    cases hchunkable
  | case6 m fresh refused hfits hplural hsize =>
    have hlarge : m.fits limit = false := by simpa using hfits
    have hrefused : refused = ([answer limit (m, fresh)], fresh.drawId.2) :=
      refusal_eq_answer hlarge fresh
    rw [hrefused]
    exact ⟨[(m, fresh)], .refused hlarge hsize, rfl⟩
  | case7 m fresh refused hfits hplural size hsize hsplit =>
    rw [Body.split, Option.map_eq_none_iff] at hsplit
    exact absurd hsplit (Body.collection_of_entries h.entries_ne_nil)
  | case8 m fresh hfits hplural size hsize head rest hsplit id fresh' hdraw first fresh'' hfirst
      second fresh''' hsecond ihfirst ihsecond =>
    have hcut := Body.cut_of_split hsplit
    obtain ⟨hhead, hrest⟩ := entries_of_halves hsize hsplit
    rw [hfirst] at ihfirst
    rw [hsecond] at ihsecond
    obtain ⟨tried, htried, heq⟩ := ihfirst
      (h.of_kind _ (Body.kind_eq_of_cleared hcut.cleared_first) hhead)
    obtain ⟨tried', htried', heq'⟩ := ihsecond
      (h.of_kind _ (Body.kind_eq_of_cleared hcut.cleared_second) hrest)
    cases hdraw
    refine ⟨tried ++ tried', ?_, ?_⟩
    · exact .halved (by simpa using hfits) hsize hsplit htried htried'
    · rw [List.map_append, ← heq, ← heq']

/-! ## Frames and runs of entries -/

/-- The frame that is sent for a part that is tried, whose sender is then `fresh`. -/
inductive StandsFor (limit : Option Nat) : Bytes → Message × Fresh → Prop
  /-- The part is within the limit, and the frame is that of the part. -/
  | carried {q : Message} {fresh : Fresh} (hfits : q.fits limit = true) :
    StandsFor limit q.encode (q, fresh)
  /-- The part is larger than the limit and has a single entry, and the frame reports this. -/
  | refused {p q : Message} {fresh : Fresh} {e : Entry} (hlarge : q.fits limit = false)
      (hentry : q.body.entries = [e]) (hfinal : p.isFinal = true) (hnamed : p.Named)
      (hid : p.header.messageId = fresh.drawId.1)
      (hcorrelation : p.header.correlationId = q.header.correlationId)
      (hbody : p.body =
        ⟨.protocolException, some (Fault.maxSizeExceeded.message, 17, ()), KeyMap.empty, ()⟩) :
    StandsFor limit p.encode (q, fresh)

theorem Tried.standsFor {limit : Option Nat} {m : Message} {fresh fresh' : Fresh}
    {tried : List (Message × Fresh)} (h : Tried limit m fresh tried fresh') :
    ∀ t ∈ tried, StandsFor limit (answer limit t).message.encode t := by
  induction h with
  | @whole m fresh hfits =>
    simp only [List.mem_singleton, forall_eq]
    rw [answer_of_fits hfits]
    exact .carried hfits
  | @refused m fresh hlarge hsize =>
    simp only [List.mem_singleton, forall_eq]
    rw [answer, if_neg (by simp [hlarge])]
    obtain ⟨e, hentry⟩ := List.length_eq_one_iff.1 (Body.cuttableSize_eq hsize)
    exact .refused hlarge hentry (isFinal_setFinal _ true) ⟨rfl, rfl⟩ rfl rfl rfl
  | halved _ _ _ _ _ ihfirst ihsecond =>
    intro t ht
    rcases List.mem_append.1 ht with ht | ht
    · exact ihfirst t ht
    · exact ihsecond t ht

/-- The frames of a message with entries stand, one after the other, for the parts that are tried, which
hold consecutive runs of these entries: nothing is left out, sent twice or moved.  A frame carries its
run within the limit, unless the run is a single entry and the very part that was tried for it is too
large. -/
theorem runs_of_frames {m : Message} {limit : Option Nat} {fresh : Fresh} {size : Nat}
    (hplural : m.isPlural = true) (hsize : m.body.cuttableSize = some size) (hpos : 0 < size)
    (hchunkable : m.isChunkable = false) :
    ∃ tried, Tried limit m fresh tried (m.frames limit fresh).2 ∧
      tried.flatMap (·.1.body.entries) = m.body.entries ∧
      (∀ t ∈ tried, Piece m t.1 ∧ t.1.body.entries ≠ []) ∧
      List.Forall₂ (StandsFor limit) (m.frames limit fresh).1 tried := by
  have hentries : m.body.entries ≠ [] := by
    apply List.ne_nil_of_length_pos
    rw [Body.cuttableSize_eq hsize]
    exact hpos
  have hdivisible : m.Divisible := ⟨hplural, hentries, hchunkable⟩
  obtain ⟨tried, htried, hparts⟩ : ∃ tried, Tried limit m fresh tried (m.frames limit fresh).2 ∧
      (m.parts limit fresh).1 = tried.map (answer limit) := parts_tried hdivisible
  refine ⟨tried, htried, htried.entries_eq, htried.piece_of_mem hentries, ?_⟩
  have hframes : (m.frames limit fresh).1 =
      (m.parts limit fresh).1.map (fun p => p.message.encode) := rfl
  rw [hframes, hparts, List.map_map, List.forall₂_map_left_iff, List.forall₂_same]
  exact htried.standsFor

/-- A request to delete the objects with the given names. -/
def deleting (uris : List (String × String)) : Body :=
  ⟨.deleteDataObjects, KeyMap.ofList uris, false, ()⟩

/-- Three names, of which the one in the middle is too long for a frame of 25 bytes. -/
def oneLongName : Message :=
  request (deleting [("a", "eml:///1"), ("b", String.ofList (List.replicate 40 'b')),
    ("c", "eml:///3")])

/-- The name in the middle is refused; the frames before and after it are not affected. -/
theorem runs_of_frames_oneLongName :
    (oneLongName.parts (some 25) countingFresh).1.map Part.isRefusal = [false, true, false] ∧
      ∃ tried, Tried (some 25) oneLongName countingFresh tried
          (oneLongName.frames (some 25) countingFresh).2 ∧
        tried.flatMap (·.1.body.entries) = oneLongName.body.entries ∧
        (∀ t ∈ tried, Piece oneLongName t.1 ∧ t.1.body.entries ≠ []) ∧
        List.Forall₂ (StandsFor (some 25)) (oneLongName.frames (some 25) countingFresh).1 tried := by
  have hplural : oneLongName.isPlural = true := by decide +kernel
  have hsize : oneLongName.body.cuttableSize = some 3 := by decide +kernel
  have hchunkable : oneLongName.isChunkable = false := by decide +kernel
  exact ⟨by decide +kernel, runs_of_frames hplural hsize (by decide) hchunkable⟩

end Message

end Etp
