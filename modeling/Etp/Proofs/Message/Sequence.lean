import Etp.Proofs.Message.Reassembly

/-!
# The parts of a message form a sequence

A receiver finds the parts of an exchange by their identifiers and its end by the final flag.  Wherever
a message is cut, the first part keeps its identifiers, the parts after it answer its exchange, and the
final flag of the message is on the last part alone.  A message may open its exchange, and then the first
part has another correlation than the parts that follow, but belongs to the same exchange.
-/

namespace Etp.Message

/-- Parts of `m`, of which the first has the identifiers of `m` and the others answer its exchange. -/
structure Sequenced (m first : Message) (rest : List Message) : Prop where
  messageId_eq : first.header.messageId = m.header.messageId
  correlationId_eq : first.header.correlationId = m.header.correlationId
  answer : ∀ p ∈ rest, p.header.correlationId = m.exchangeId

namespace Sequenced

variable {m : Message}

theorem whole (m : Message) : Sequenced m m [] := ⟨rfl, rfl, by simp⟩

theorem chunked {blob : Uuid} {data : Bytes} {chunks : List Message}
    (hcarries : Carries m blob data chunks) : Sequenced m (m.referencer blob) chunks where
  messageId_eq := rfl
  correlationId_eq := rfl
  answer := by
    intro c hc
    obtain ⟨id, isLast, hframed⟩ := hcarries.framed c hc
    rw [hframed]
    rfl

/-- The parts of the second half follow those of the first half. -/
theorem halved {head rest : Body} {id : Int64} {p q : Message} {ps qs : List Message}
    (hexchange : m.exchangeId ≠ 0) (hfirst : Sequenced (m.firstHalf head) p ps)
    (hsecond : Sequenced (m.secondHalf rest id) q qs) : Sequenced m p (ps ++ q :: qs) where
  messageId_eq := hfirst.messageId_eq
  correlationId_eq := hfirst.correlationId_eq
  answer := by
    have hsame := exchangeId_secondHalf id rest hexchange
    intro r hr
    rcases List.mem_append.1 hr with hr | hr
    · exact hfirst.answer r hr
    · rcases List.mem_cons.1 hr with rfl | hr
      · exact hsecond.correlationId_eq
      · exact (hsecond.answer r hr).trans hsame

end Sequenced

/-- What is sent for a message is a sequence of its parts. -/
theorem Spread.sequenced {m : Message} {leaves : List Leaf} (h : Spread m leaves)
    (hexchange : m.exchangeId ≠ 0) :
    ∃ first rest, leaves.flatMap Leaf.messages = first :: rest ∧ Sequenced m first rest := by
  induction h with
  | whole m => exact ⟨m, [], rfl, .whole m⟩
  | @chunked m object blob chunks hobjects hdata hcarries =>
    exact ⟨m.referencer blob, chunks, List.flatMap_singleton _ _, .chunked hcarries⟩
  | @halved m count head rest id leaves leaves' _ _ _ _ _ ihfirst ihsecond =>
    have hsame := exchangeId_secondHalf id rest hexchange
    obtain ⟨p, ps, hfirst, hsequenced⟩ := ihfirst hexchange
    obtain ⟨q, qs, hsecond, hsequenced'⟩ := ihsecond (hsame ▸ hexchange)
    refine ⟨p, ps ++ q :: qs, ?_, .halved hexchange hsequenced hsequenced'⟩
    rw [Leaf.messages_flatMap_append, hfirst, hsecond]
    rfl

/-- A message that is sent in several frames becomes a sequence of multipart messages in its exchange.
The first one has its identifiers, the others answer it, and the last one is final if the message is. -/
theorem frames_sequenced {m : Message} {limit : Option Nat} {fresh : Fresh}
    (hexchange : m.exchangeId ≠ 0) (hsent : Sent (m.parts limit fresh).1)
    (hmany : 2 ≤ (m.frames limit fresh).1.length) :
    ∃ first middle last,
      (m.parts limit fresh).1.map Part.message = first :: (middle ++ [last]) ∧
      (m.frames limit fresh).1 = (first :: (middle ++ [last])).map encode ∧
      (∀ p ∈ first :: (middle ++ [last]), p.isMultipart = true ∧ p.exchangeId = m.exchangeId) ∧
      first.header.messageId = m.header.messageId ∧
      first.header.correlationId = m.header.correlationId ∧
      (∀ p ∈ middle ++ [last], p.header.correlationId = m.exchangeId) ∧
      (∀ p ∈ first :: middle, p.isFinal = false) ∧ last.isFinal = m.isFinal := by
  obtain ⟨leaves, houtcome⟩ := parts_spread hsent
  have hspread := houtcome.spread
  rw [houtcome.messages_eq, houtcome.frames_eq]
  rw [houtcome.frames_eq, List.length_map] at hmany
  have hsplit : leaves ≠ [.whole m] := by
    rintro rfl
    rw [Leaf.flatMap_messages_whole, List.length_singleton] at hmany
    omega
  have hmember : ∀ p ∈ leaves.flatMap Leaf.messages,
      p.isMultipart = true ∧ p.exchangeId = m.exchangeId := fun p hp =>
    ⟨hspread.isMultipart hsplit p hp, (hspread.isPartOf p hp).exchangeId_eq hexchange⟩
  obtain ⟨first, rest, hfirst, hsequenced⟩ := hspread.sequenced hexchange
  obtain ⟨before, last, hlast, hbefore, hfinal⟩ := hspread.ends
  -- There are at least two parts, so the last one is not the first one.
  cases before with
  | nil =>
    rw [hlast, List.nil_append, List.length_singleton] at hmany
    omega
  | cons p middle =>
    rw [hlast] at hmember ⊢
    rw [hlast] at hfirst
    obtain ⟨rfl, rfl⟩ := List.cons.inj hfirst
    exact ⟨p, middle, last, rfl, rfl, hmember, hsequenced.messageId_eq,
      hsequenced.correlationId_eq, hsequenced.answer, hbefore, hfinal⟩

/-- Two halves, each of a referencer and its chunks. -/
theorem frames_sequenced_twoLarge :
    twoLarge.exchangeId = 4 ∧ (twoLarge.frames (some 80) countingFresh).1.length = 8 ∧
      ∃ first middle last,
        (twoLarge.parts (some 80) countingFresh).1.map Part.message =
          first :: (middle ++ [last]) ∧
        (twoLarge.frames (some 80) countingFresh).1 = (first :: (middle ++ [last])).map encode ∧
        (∀ p ∈ first :: (middle ++ [last]),
          p.isMultipart = true ∧ p.exchangeId = twoLarge.exchangeId) ∧
        first.header.messageId = twoLarge.header.messageId ∧
        first.header.correlationId = twoLarge.header.correlationId ∧
        (∀ p ∈ middle ++ [last], p.header.correlationId = twoLarge.exchangeId) ∧
        (∀ p ∈ first :: middle, p.isFinal = false) ∧ last.isFinal = twoLarge.isFinal := by
  have hcount : (twoLarge.frames (some 80) countingFresh).1.length = 8 := by
    rw [frames, parts_twoLarge]
    decide +kernel
  have hsent : Sent (twoLarge.parts (some 80) countingFresh).1 := by
    rw [parts_twoLarge]
    decide +kernel
  have hexchange : twoLarge.exchangeId = 4 := by decide +kernel
  refine ⟨hexchange, hcount, frames_sequenced ?_ hsent (by omega)⟩
  rw [hexchange]
  decide

end Etp.Message
