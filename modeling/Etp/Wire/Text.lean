import Etp.Wire.Reader

/-!
# Text as bytes

A text is written as its UTF-8 bytes.  Bytes that are no UTF-8 are refused with the length of their
longest valid beginning, counted in whole characters.
-/

namespace Etp.Wire

/-- A byte that continues a character of several bytes. -/
def isContinuation (b : UInt8) : Bool := 0x80 ≤ b && b ≤ 0xBF

/-- The number of continuation bytes of the character that starts with `lead`, if `lead` followed
by `rest` starts with a whole, shortest-form character that is no surrogate. -/
def continuationCount (lead : UInt8) (rest : Bytes) : Option Nat :=
  if lead ≤ 0x7F then some 0
  else if 0xC2 ≤ lead && lead ≤ 0xDF then
    match rest with
    | b :: _ => if isContinuation b then some 1 else none
    | [] => none
  else if 0xE0 ≤ lead && lead ≤ 0xEF then
    match rest with
    | b :: c :: _ =>
      let low : UInt8 := if lead = 0xE0 then 0xA0 else 0x80
      let high : UInt8 := if lead = 0xED then 0x9F else 0xBF
      if low ≤ b && b ≤ high && isContinuation c then some 2 else none
    | _ => none
  else if 0xF0 ≤ lead && lead ≤ 0xF4 then
    match rest with
    | b :: c :: d :: _ =>
      let low : UInt8 := if lead = 0xF0 then 0x90 else 0x80
      let high : UInt8 := if lead = 0xF4 then 0x8F else 0xBF
      if low ≤ b && b ≤ high && isContinuation c && isContinuation d then some 3 else none
    | _ => none
  else none

/-- The length of the longest beginning of a byte string that consists of whole characters. -/
def validUpTo : Bytes → Nat
  | [] => 0
  | lead :: rest =>
    match continuationCount lead rest with
    | some count => 1 + count + validUpTo (rest.drop count)
    | none => 0
termination_by bytes => bytes.length

/-- The UTF-8 bytes of a text. -/
def textBytes (text : String) : Bytes := text.toByteArray.data.toList

/-- The text with the given UTF-8 bytes. -/
def textOfBytes? (bytes : Bytes) : Option String := String.fromUTF8? bytes.toByteArray

@[simp] theorem textOfBytes?_textBytes (text : String) :
    textOfBytes? (textBytes text) = some text := by
  have hbytes : (textBytes text).toByteArray = text.toByteArray := by
    apply ByteArray.ext
    simp [textBytes, List.data_toByteArray]
  unfold textOfBytes? String.fromUTF8?
  rw [hbytes, dif_pos text.isValidUTF8]
  rfl

/-- Reads a text of `count` bytes; all of them are taken before they are judged. -/
def readText (count : Nat) : Reader String := do
  let bytes ← Reader.take count
  match textOfBytes? bytes.val with
  | some text => pure text
  | none => Reader.fail (.invalidText (validUpTo bytes.val))

theorem text_reads (text : String) :
    (readText (textBytes text).length).Reads (textBytes text) text .free := by
  intro rest allowance
  have htake := (Reader.take_reads (textBytes text) _ rfl).ok rest (Nat.zero_le allowance)
  rw [readText, Reader.bind_apply_ok htake]
  simp [Reader.pure_apply, Cost.free]

end Etp.Wire
