import Etp.Message.Basic

/-!
# Assemblies

The parts of unfinished exchanges.  An exchange has at most one assembly; its age counts from the
part that opened it.
-/

namespace Etp

/-- The parts of an exchange that have arrived so far. -/
structure Assembly where
  exchangeId : Int64
  /-- The time, in milliseconds, at which the first part arrived. -/
  openedAt : Nat
  /-- The parts in the order of arrival. -/
  parts : List Message
  deriving DecidableEq

/-- The age of an assembly in milliseconds; one opened later than now has none. -/
def Assembly.age (a : Assembly) (now : Nat) : Nat := now - a.openedAt

/-- The assembly with one more part, if it is that of the exchange `id`. -/
def Assembly.addPart (id : Int64) (part : Message) (a : Assembly) : Assembly :=
  if a.exchangeId = id then { a with parts := a.parts ++ [part] } else a

@[simp] theorem Assembly.exchangeId_addPart (id : Int64) (part : Message) (a : Assembly) :
    (a.addPart id part).exchangeId = a.exchangeId := by
  unfold addPart
  split <;> rfl

/-- Assemblies of distinct exchanges, in the order in which they were opened. -/
structure Assemblies where
  toList : List Assembly
  distinct : (toList.map Assembly.exchangeId).Nodup
  deriving DecidableEq

namespace Assemblies

/-- No assembly. -/
def empty : Assemblies := ⟨[], List.nodup_nil⟩

/-- The number of assemblies. -/
def size (as : Assemblies) : Nat := as.toList.length

/-- The parts of an exchange, in the order of arrival. -/
def parts (as : Assemblies) (id : Int64) : List Message :=
  ((as.toList.find? (fun a => a.exchangeId == id)).map Assembly.parts).getD []

/-- Whether an exchange has an assembly. -/
def contains (as : Assemblies) (id : Int64) : Bool :=
  as.toList.any (fun a => a.exchangeId == id)

/-- Adds a part to the assembly of an exchange, which it opens if there is none. -/
def push (as : Assemblies) (id : Int64) (part : Message) (now : Nat) : Assemblies :=
  if h : as.contains id then
    ⟨as.toList.map (Assembly.addPart id part), by
      simpa [List.map_map, Function.comp_def] using as.distinct⟩
  else
    ⟨as.toList ++ [⟨id, now, [part]⟩], by
      have hnew : ∀ a ∈ as.toList, a.exchangeId ≠ id := by
        simpa [contains] using h
      simpa [List.nodup_append, as.distinct] using hnew⟩

/-- The assemblies that have a property. -/
def filter (as : Assemblies) (p : Assembly → Bool) : Assemblies :=
  ⟨as.toList.filter p, as.distinct.sublist (List.filter_sublist.map _)⟩

/-- Drops the assembly of an exchange. -/
def erase (as : Assemblies) (id : Int64) : Assemblies :=
  as.filter (fun a => a.exchangeId ≠ id)

/-- The exchanges whose assemblies are older than `maxAge` milliseconds. -/
def expired (as : Assemblies) (now maxAge : Nat) : List Int64 :=
  (as.toList.filter (fun a => maxAge < a.age now)).map Assembly.exchangeId

/-- The assemblies that are not older than `maxAge` milliseconds. -/
def current (as : Assemblies) (now maxAge : Nat) : Assemblies :=
  as.filter (fun a => a.age now ≤ maxAge)

end Assemblies

end Etp
