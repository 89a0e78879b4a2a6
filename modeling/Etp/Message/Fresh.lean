import Etp.Role
import Etp.Uuid

/-!
# Fresh identifiers

Message identifiers advance by two, so that the two ends of a session never choose the same one:
a server starts with 1 and a client with 2.  The counter itself is not bounded.  An identifier may
be drawn as long as the one after it is a 64-bit integer too; `IdCounter.isOverdrawn` tells
afterwards whether that was so for all identifiers drawn.
-/

namespace Etp

/-- The next message identifier. -/
structure IdCounter where
  next : Int
  deriving DecidableEq

namespace IdCounter

/-- The distance between two identifiers of one counter. -/
def step : Int := 2

/-- The counter of an endpoint at the start of a session. -/
def forRole : Role → IdCounter
  | .server => ⟨1⟩
  | .client => ⟨2⟩

/-- Takes the next identifier. -/
def draw (c : IdCounter) : Int64 × IdCounter := (Int64.ofInt c.next, ⟨c.next + step⟩)

/-- Takes several identifiers. -/
def drawMany : (count : Nat) → IdCounter → List Int64 × IdCounter
  | 0, c => ([], c)
  | count + 1, c =>
    let (id, c) := c.draw
    let (ids, c) := drawMany count c
    (id :: ids, c)

/-- Whether an identifier was drawn that the counter did not have any more. -/
def isOverdrawn (c : IdCounter) : Bool := Int64.maxValue.toInt < c.next

/-- What is reported when a counter is overdrawn. -/
def exhausted : String := "message id counter exhausted"

end IdCounter

/-- What a sender draws its fresh identifiers from: message identifiers and blob identifiers. -/
structure Fresh where
  ids : IdCounter
  blobs : Uuid.Supply

namespace Fresh

/-- Takes a message identifier. -/
def drawId (f : Fresh) : Int64 × Fresh :=
  let (id, ids) := f.ids.draw
  (id, { f with ids := ids })

/-- Takes a blob identifier. -/
def drawBlob (f : Fresh) : Uuid × Fresh :=
  let (blob, blobs) := f.blobs.draw
  (blob, { f with blobs := blobs })

end Fresh

end Etp
