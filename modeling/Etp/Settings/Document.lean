import Etp.Json.Reader
import Etp.Settings.Basic

/-!
# Settings documents

Settings are kept in a document of five fields, each of which may be left out; fields of other names
are ignored.  Capability values are written as plain values without their kind.  When such a value
is read it takes the first kind that it fits: null, a truth value, a 32-bit integer, a 64-bit
integer, a floating-point number, a text, a list of 64-bit integers (also the empty list), of
floating-point numbers, or of texts.
-/

namespace Etp

open Number

namespace Json

/-- The number, if it is an integer of 64 bits. -/
def int64? : Json → Option Int64
  | integer i => if (Int64.ofInt i).toInt = i then some (Int64.ofInt i) else none
  | _ => none

/-- The number, if it is an integer of 32 bits. -/
def int32? : Json → Option Int32
  | integer i => if (Int32.ofInt i).toInt = i then some (Int32.ofInt i) else none
  | _ => none

/-- The closest floating-point number, if it is a number. -/
def double? : Json → Option Double
  | integer i => some (Double.ofInt i)
  | real d => some d
  | _ => none

/-- The text, if it is one. -/
def text? : Json → Option String
  | text t => some t
  | _ => none

/-- The truth value, if it is one. -/
def bool? : Json → Option Bool
  | bool b => some b
  | _ => none

/-- A floating-point number; one that is infinite or undefined is written as null. -/
def ofDouble (d : Double) : Json := if d.isFinite then real d else null

end Json

namespace DataValue

/-- The first kind of list that fits all items. -/
def ofItems? (items : List Json) : Option DataValue :=
  match items.mapM Json.int64? with
  | some is => some (longs is)
  | none =>
    match items.mapM Json.double? with
    | some ds => some (doubles ds)
    | none => (items.mapM Json.text?).map texts

/-- The value of the first kind that fits. -/
def ofJson? : Json → Option DataValue
  | .null => some null
  | .bool b => some (boolean b)
  | .integer i =>
    match (Json.integer i).int32?, (Json.integer i).int64? with
    | some v, _ => some (int v)
    | none, some v => some (long v)
    | none, none => some (double (Double.ofInt i))
  | .real d => some (double d)
  | .text t => some (text t)
  | .list items => ofItems? items
  | .object _ => none

/-- The plain value, without its kind. -/
def toJson : DataValue → Json
  | null => .null
  | boolean b => .bool b
  | int v => .integer v.toInt
  | long v => .integer v.toInt
  | double d => .ofDouble d
  | float s => .ofDouble s.widen
  | text t => .text t
  | longs is => .list (is.map (fun i => .integer i.toInt))
  | doubles ds => .list (ds.map .ofDouble)
  | texts ts => .list (ts.map .text)
  | bytes bs => .list (bs.map (fun b => .integer b.toNat))

end DataValue

/-- The role with a name. -/
def Role.named? (name : String) : Option Role :=
  [Role.client, Role.server].find? (fun r => r.name == name)

/-- The role that a document names, by a text or by the only field of an object, which is null. -/
def Role.ofJson? : Json → Option Role
  | .text name => named? name
  | .object [(name, .null)] => named? name
  | _ => none

namespace Settings

/-- Capability values by name. -/
def capabilitiesOfJson? : Json → Option Capabilities
  | .object fields =>
    (fields.mapM (fun f => (DataValue.ofJson? f.2).map (fun v => (f.1, v)))).map KeyMap.ofList
  | _ => none

/-- The field with a name, or a default if there is none. -/
def fieldOr {α : Type} (fields : List (String × Json)) (name : String) (default : α)
    (read : Json → Option α) : Option α :=
  match Json.field? fields name with
  | none => some default
  | some value => read value

/-- The settings in the fields of a document. -/
def ofFields? (fields : List (String × Json)) : Option Settings := do
  let role ← fieldOr fields "role" Settings.default.role Role.ofJson?
  let authRequired ← fieldOr fields "auth_required" Settings.default.authRequired Json.bool?
  let login ← fieldOr fields "login" Settings.default.login Json.text?
  let ip ← fieldOr fields "ip" Settings.default.ip Json.text?
  let capabilities ← fieldOr fields "endpoint_capabilities" Settings.default.capabilities
    capabilitiesOfJson?
  return ⟨role, authRequired, login, ip, capabilities⟩

/-- The names of the fields, in the order in which a list gives their values. -/
def fieldNames : List String := ["role", "auth_required", "login", "ip", "endpoint_capabilities"]

/-- The settings in a document: an object of named fields, or a list of the values of the first
fields. -/
def ofJson? : Json → Option Settings
  | .object fields => ofFields? fields
  | .list items =>
    if items.length ≤ fieldNames.length then ofFields? (fieldNames.zip items) else none
  | _ => none

/-- The settings in the text of a document. -/
def parse (source : String) : Option Settings := (Json.parse source).bind ofJson?

/-- The document of the settings. -/
def toJson (s : Settings) : Json :=
  .object [("role", .text s.role.name), ("auth_required", .bool s.authRequired),
    ("login", .text s.login), ("ip", .text s.ip),
    ("endpoint_capabilities",
      .object (s.capabilities.entries.map (fun e => (e.1, e.2.toJson))))]

end Settings

end Etp
