import Etp.Wire.Cost

/-!
# Reading bytes

A `Reader` consumes the front of a byte string or says why it cannot.  Every elementary read is
all or nothing: it takes the bytes it needs, or it fails with the number of bytes that are missing
and nothing has been taken.  A reader also claims the room of the values that it returns, and fails
when the allowance for them is used up.

`Reader.Reads` is the streaming statement used for every format of this library: the reader gets the
value back from its written form, whatever follows it, exactly if the allowance covers the cost of
the value.
-/

namespace Etp

/-- A byte string: a frame, a payload, or a part of one. -/
abbrev Bytes := List UInt8

namespace Wire

/-- The integers that a varint can announce, as error reports name them. -/
inductive IntegerKind where
  | u32
  | u64
  | u128
  | i32
  | i64
  | i128
  | reserved
  deriving DecidableEq, Repr

/-- The name of an integer kind in an error report. -/
def IntegerKind.name : IntegerKind → String
  | .u32 => "U32"
  | .u64 => "U64"
  | .u128 => "U128"
  | .i32 => "I32"
  | .i64 => "I64"
  | .i128 => "I128"
  | .reserved => "Reserved"

/-- Why a byte string is not the written form of a value. -/
inductive DecodeError where
  /-- A read needs this many bytes more than there are. -/
  | unexpectedEnd (additional : Nat)
  /-- The values claim more memory than they may. -/
  | limitExceeded
  /-- A varint announces a wider integer than the field holds. -/
  | invalidInteger (expected found : IntegerKind)
  /-- A variant number lies above the highest one. -/
  | unexpectedVariant (found highest : Nat)
  /-- The bytes of a text are valid UTF-8 only up to this position. -/
  | invalidText (validUpTo : Nat)
  /-- A truth value is written as neither 0 nor 1. -/
  | invalidBool (byte : UInt8)
  deriving DecidableEq, Repr

/-- The detail that a report of a decoding failure gives. -/
def DecodeError.message : DecodeError → String
  | .unexpectedEnd additional => s!"additional {additional}"
  | .limitExceeded => ""
  | .invalidInteger expected found => s!"expected {expected.name}, found {found.name}"
  | .unexpectedVariant found highest => s!"found {found}, allowed 0..={highest}"
  | .invalidText validUpTo => s!"valid up to {validUpTo}"
  | .invalidBool byte => toString byte.toNat

/-- What a reader draws on: the bytes that are left, and the memory that may still be claimed. -/
structure Supply where
  bytes : Bytes
  allowance : Nat
  deriving DecidableEq

/-- A reader returns a value and what is left of its supply, or fails. -/
def Reader (α : Type) : Type := Supply → Except DecodeError (α × Supply)

namespace Reader

variable {α β γ : Type}

/-- Reads a byte string from its beginning; returns the value and the bytes that follow it. -/
def run (reader : Reader α) (bytes : Bytes) : Except DecodeError (α × Bytes) :=
  match reader ⟨bytes, byteLimit⟩ with
  | .ok (a, left) => .ok (a, left.bytes)
  | .error e => .error e

/-- Reads nothing. -/
protected def pure (a : α) : Reader α := fun supply => .ok (a, supply)

/-- Reads one value, then whatever that value calls for. -/
protected def bind (first : Reader α) (next : α → Reader β) : Reader β := fun supply =>
  match first supply with
  | .ok (a, left) => next a left
  | .error e => .error e

instance : Monad Reader where
  pure := Reader.pure
  bind := Reader.bind

/-- Fails without reading. -/
def fail (e : DecodeError) : Reader α := fun _ => .error e

theorem pure_apply (a : α) (supply : Supply) : (pure a : Reader α) supply = .ok (a, supply) := rfl

theorem bind_apply_ok {first : Reader α} {f : α → Reader β} {supply left : Supply} {a : α}
    (hfirst : first supply = .ok (a, left)) : (first >>= f) supply = f a left := by
  show Reader.bind first f supply = _
  simp [Reader.bind, hfirst]

theorem bind_apply_error {first : Reader α} {f : α → Reader β} {supply : Supply}
    {e : DecodeError} (hfirst : first supply = .error e) :
    (first >>= f) supply = .error e := by
  show Reader.bind first f supply = _
  simp [Reader.bind, hfirst]

/-- The reader takes exactly `written` and returns `a`, whatever follows; it does so at the given
cost, and an allowance that does not cover the cost is the only reason for which it fails. -/
def Reads (reader : Reader α) (written : Bytes) (a : α) (cost : Cost) : Prop :=
  ∀ rest allowance, reader ⟨written ++ rest, allowance⟩ =
    if cost.need ≤ allowance then .ok (a, ⟨rest, allowance - cost.spent⟩)
    else .error .limitExceeded

theorem Reads.ok {reader : Reader α} {written : Bytes} {a : α} {cost : Cost}
    (h : reader.Reads written a cost) (rest : Bytes) {allowance : Nat}
    (hneed : cost.need ≤ allowance) :
    reader ⟨written ++ rest, allowance⟩ = .ok (a, ⟨rest, allowance - cost.spent⟩) := by
  rw [h, if_pos hneed]

theorem Reads.error {reader : Reader α} {written : Bytes} {a : α} {cost : Cost}
    (h : reader.Reads written a cost) (rest : Bytes) {allowance : Nat}
    (hneed : ¬ cost.need ≤ allowance) :
    reader ⟨written ++ rest, allowance⟩ = .error .limitExceeded := by
  rw [h, if_neg hneed]

theorem Reads.pure (a : α) : (Pure.pure a : Reader α).Reads [] a .free := fun _ _ => rfl

theorem Reads.bind {first : Reader α} {f : α → Reader β} {u v : Bytes} {a : α} {b : β}
    {c d : Cost} (hfirst : first.Reads u a c) (hnext : (f a).Reads v b d) :
    (first >>= f).Reads (u ++ v) b (c.followedBy d) := by
  intro rest allowance
  have hspent := c.spent_le_need
  rw [List.append_assoc]
  by_cases hc : c.need ≤ allowance
  · rw [bind_apply_ok (hfirst.ok (v ++ rest) hc), hnext rest, Nat.sub_sub]
    refine ite_congr (propext ?_) (fun _ => rfl) (fun _ => rfl)
    simp only [Cost.followedBy]
    omega
  · rw [bind_apply_error (hfirst.error (v ++ rest) hc), if_neg]
    simp only [Cost.followedBy]
    omega

/-- What comes after the value may be decided without reading on. -/
theorem Reads.bindPure {reader : Reader α} {f : α → Reader β} {written : Bytes} {a : α} {b : β}
    {cost : Cost} (h : reader.Reads written a cost) (hf : f a = Pure.pure b) :
    (reader >>= f).Reads written b cost := by
  have hnext : (f a).Reads [] b .free := hf ▸ Reads.pure b
  simpa using h.bind hnext

theorem Reads.map {reader : Reader α} {written : Bytes} {a : α} {cost : Cost} (f : α → β)
    (h : reader.Reads written a cost) :
    (reader >>= fun a => (Pure.pure (f a) : Reader β)).Reads written (f a) cost :=
  h.bindPure rfl

/-- What a whole byte string gives: the value and what follows it, if the cost keeps to the
limit. -/
theorem Reads.run_eq {reader : Reader α} {written : Bytes} {a : α} {cost : Cost}
    (h : reader.Reads written a cost) (rest : Bytes) :
    reader.run (written ++ rest) =
      if cost.need ≤ byteLimit then .ok (a, rest) else .error .limitExceeded := by
  rw [run, h]
  by_cases hcost : cost.need ≤ byteLimit
  · simp only [if_pos hcost]
  · simp only [if_neg hcost]

/-- Claims memory. -/
def claim (size : Nat) : Reader Unit := fun supply =>
  if size ≤ supply.allowance then
    .ok ((), { supply with allowance := supply.allowance - size })
  else .error .limitExceeded

theorem claim_reads (size : Nat) : (claim size).Reads [] () (.claim size) := fun _ _ => rfl

theorem claim_bind_ok {size allowance : Nat} (f : Unit → Reader α) (bytes : Bytes)
    (h : size ≤ allowance) :
    (claim size >>= f) ⟨bytes, allowance⟩ = f () ⟨bytes, allowance - size⟩ :=
  bind_apply_ok (if_pos h)

theorem claim_bind_error {size allowance : Nat} (f : Unit → Reader α) (bytes : Bytes)
    (h : ¬ size ≤ allowance) :
    (claim size >>= f) ⟨bytes, allowance⟩ = .error .limitExceeded :=
  bind_apply_error (if_neg h)

theorem Reads.afterClaim {reader : Reader α} {written : Bytes} {a : α} {cost : Cost}
    (h : reader.Reads written a cost) (size : Nat) :
    (claim size >>= fun _ => reader).Reads written a ((Cost.claim size).followedBy cost) :=
  (claim_reads size).bind (f := fun _ => reader) h

/-- Takes the next byte. -/
def byte : Reader UInt8 := fun supply =>
  match supply.bytes with
  | [] => .error (.unexpectedEnd 1)
  | b :: rest => .ok (b, { supply with bytes := rest })

theorem byte_reads (b : UInt8) : byte.Reads [b] b .free := fun _ _ => rfl

theorem Reads.afterByte {f : UInt8 → Reader α} {b : UInt8} {written : Bytes} {a : α} {cost : Cost}
    (h : (f b).Reads written a cost) : (byte >>= f).Reads (b :: written) a cost := by
  simpa using (byte_reads b).bind h

/-- Takes the next byte and claims room for it. -/
def tag : Reader UInt8 := do
  claim 1
  byte

theorem tag_reads (b : UInt8) : tag.Reads [b] b (.claim 1) := by
  simpa [tag] using (byte_reads b).afterClaim 1

theorem Reads.afterTag {f : UInt8 → Reader α} {b : UInt8} {written : Bytes} {a : α} {cost : Cost}
    (h : (f b).Reads written a cost) :
    (tag >>= f).Reads (b :: written) a ((Cost.claim 1).followedBy cost) :=
  (tag_reads b).bind h

/-- Takes the next `count` bytes, all of them or none. -/
def take (count : Nat) : Reader { bytes : Bytes // bytes.length = count } := fun supply =>
  if h : (supply.bytes.take count).length = count then
    .ok (⟨supply.bytes.take count, h⟩, { supply with bytes := supply.bytes.drop count })
  else
    .error (.unexpectedEnd (count - (supply.bytes.take count).length))

theorem take_reads (bytes : Bytes) (count : Nat) (h : bytes.length = count) :
    (take count).Reads bytes ⟨bytes, h⟩ .free := by
  intro rest allowance
  subst h
  simp [take, Cost.free]

/-- Whether at least `count` bytes follow; takes none of them. -/
def follows (count : Nat) : Reader Bool := fun supply =>
  .ok (decide ((supply.bytes.take count).length = count), supply)

/-- Reads `count` entries for each of which `size` is claimed already and given back before it is
read; `taken` holds those already read, last first. -/
def entriesAfter (size : Nat) (entry : Reader α) : Nat → List α → Reader (List α)
  | 0, taken, supply => .ok (taken.reverse, supply)
  | count + 1, taken, supply =>
    match entry { supply with allowance := supply.allowance + size } with
    | .ok (a, left) => entriesAfter size entry count (a :: taken) left
    | .error e => .error e

/-- Reads `count` entries one after the other, each reckoned at `size`. -/
def entries (size : Nat) (entry : Reader α) (count : Nat) : Reader (List α) := do
  claim (count * size)
  entriesAfter size entry count []

theorem entriesAfter_reads (size : Nat) (entry : Reader α) (write : α → Bytes) (cost : α → Cost)
    (as : List α) (hentry : ∀ a ∈ as, entry.Reads (write a) a (cost a)) (taken : List α)
    (rest : Bytes) (allowance : Nat) (hclaimed : as.length * size ≤ allowance) :
    entriesAfter size entry as.length taken
        ⟨as.flatMap write ++ rest, allowance - as.length * size⟩ =
      if (Cost.entries size (as.map cost)).need ≤ allowance then
        .ok (taken.reverse ++ as, ⟨rest, allowance - (Cost.entries size (as.map cost)).spent⟩)
      else .error .limitExceeded := by
  induction as generalizing taken allowance with
  | nil => simp [entriesAfter, Cost.entries, Cost.free]
  | cons a as ih =>
    have hhead := hentry a (by simp)
    have hspent := (cost a).spent_le_need
    have hlater := Cost.length_mul_le_need_entries size (as.map cost)
    simp only [List.length_cons, Nat.add_mul, Nat.one_mul, List.length_map] at hclaimed hlater
    have hback : allowance - (as.length * size + size) + size = allowance - as.length * size := by
      omega
    simp only [List.flatMap_cons, List.length_cons, entriesAfter, List.append_assoc, Nat.add_mul,
      Nat.one_mul, hback, List.map_cons, Cost.entries, List.length_map]
    by_cases hc : (cost a).need ≤ allowance - as.length * size
    · have hleft : allowance - as.length * size - (cost a).spent =
          allowance - (cost a).spent - as.length * size := by omega
      rw [hhead.ok _ hc]
      simp only [hleft]
      rw [ih (fun b hb => hentry b (by simp [hb])) (a :: taken) (allowance - (cost a).spent)
        (by omega), Nat.sub_sub]
      refine ite_congr (propext ?_) (fun _ => by simp) (fun _ => rfl)
      omega
    · rw [hhead.error _ hc, if_neg (by omega)]

theorem entries_reads (size : Nat) (entry : Reader α) (write : α → Bytes) (cost : α → Cost)
    (as : List α) (hentry : ∀ a ∈ as, entry.Reads (write a) a (cost a)) :
    (entries size entry as.length).Reads (as.flatMap write) as
      (Cost.entries size (as.map cost)) := by
  intro rest allowance
  have hall := Cost.length_mul_le_need_entries size (as.map cost)
  rw [List.length_map] at hall
  by_cases hclaimed : as.length * size ≤ allowance
  · rw [entries, claim_bind_ok _ _ hclaimed]
    simpa using entriesAfter_reads size entry write cost as hentry [] rest allowance hclaimed
  · rw [entries, claim_bind_error _ _ hclaimed, if_neg (by omega)]

end Reader

end Wire

end Etp
