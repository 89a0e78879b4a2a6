import Etp.Proofs.List
import Etp.Proofs.Number.Widening
import Etp.Proofs.Peer.Negotiation
import Etp.Settings.Document

/-!
# Settings that are saved and loaded again

A capability value is written without its kind, and reading takes the first kind that fits what is
written.  So a value may come back as one of another kind: `DataValue.reread` says which.  It is still the
same integer, if it was one, and is written in the same way; only a floating-point number that is infinite
or undefined has no written form of its own.  `Settings.reloaded` is what follows for whole settings.
-/

namespace Etp

open Number

namespace KeyMap

variable {α β : Type}

theorem keys_mapValues (f : α → β) (m : KeyMap α) : (m.mapValues f).keys = m.keys := by
  simp [keys, mapValues, Function.comp_def]

theorem get?_mapValues (f : α → β) (m : KeyMap α) (key : String) :
    (m.mapValues f).get? key = (m.get? key).map f := by
  obtain ⟨entries, hascending⟩ := m
  simp only [get?, mapValues]
  clear hascending
  induction entries with
  | nil => rfl
  | cons entry entries ih =>
    obtain ⟨k, value⟩ := entry
    rw [List.map_cons, lookup_cons, lookup_cons, ih]
    split
    · rfl
    · rfl

end KeyMap

namespace Json

/-! ## Numbers -/

theorem int64?_integer (v : Int64) : int64? (.integer v.toInt) = some v := by
  simp [int64?]

theorem int32?_integer (v : Int32) : int32? (.integer v.toInt) = some v := by
  simp [int32?]

theorem toInt_ofInt_byte (b : UInt8) : (Int64.ofInt b.toNat).toInt = b.toNat := by
  have hlt := b.toNat_lt
  exact Int64.toInt_ofInt_of_le (by omega) (by omega)

theorem int64?_byte (b : UInt8) : int64? (.integer b.toNat) = some (Int64.ofInt b.toNat) :=
  if_pos (toInt_ofInt_byte b)

theorem ofDouble_of_isFinite {d : Double} (h : d.isFinite = true) : ofDouble d = .real d := if_pos h

end Json

namespace DataValue

/-- Whether no floating-point number in the value is infinite or undefined. -/
def isFinite : DataValue → Bool
  | double d => d.isFinite
  | float s => s.isFinite
  | doubles ds => ds.all Double.isFinite
  | _ => true

/-- The value of the first kind that fits what is written of a value: integers take the smaller kind in
which they have a place, bytes are integers, and every list without items is one of integers. -/
def reread : DataValue → DataValue
  | null => null
  | boolean b => boolean b
  | int v => int v
  | long v => if (Int32.ofInt v.toInt).toInt = v.toInt then int (Int32.ofInt v.toInt) else long v
  | double d => double d
  | float s => double s.widen
  | text t => text t
  | longs is => longs is
  | doubles [] => longs []
  | doubles (d :: ds) => doubles (d :: ds)
  | texts [] => longs []
  | texts (t :: ts) => texts (t :: ts)
  | bytes bs => longs (bs.map (fun b => Int64.ofInt b.toNat))

theorem reread_long (v : Int64) : (long v).reread =
    if (Int32.ofInt v.toInt).toInt = v.toInt then int (Int32.ofInt v.toInt) else long v := rfl

/-! ## Lists -/

theorem ofItems?_longs {α : Type} {write : α → Json} {back : α → Int64} {as : List α}
    (h : ∀ a ∈ as, (write a).int64? = some (back a)) :
    ofItems? (as.map write) = some (longs (as.map back)) := by
  rw [ofItems?, mapM_map_eq_some h]

theorem ofItems?_doubles {d : Double} {ds : List Double} :
    ofItems? ((d :: ds).map .real) = some (doubles (d :: ds)) := by
  have hlongs : ((d :: ds).map Json.real).mapM Json.int64? = none := rfl
  have hdoubles : ((d :: ds).map Json.real).mapM Json.double? = some ((d :: ds).map id) :=
    mapM_map_eq_some (fun _ _ => rfl)
  rw [ofItems?, hlongs, hdoubles, List.map_id]

theorem ofItems?_texts {t : String} {ts : List String} :
    ofItems? ((t :: ts).map .text) = some (texts (t :: ts)) := by
  have hlongs : ((t :: ts).map Json.text).mapM Json.int64? = none := rfl
  have hdoubles : ((t :: ts).map Json.text).mapM Json.double? = none := rfl
  have htexts : ((t :: ts).map Json.text).mapM Json.text? = some ((t :: ts).map id) :=
    mapM_map_eq_some (fun _ _ => rfl)
  rw [ofItems?, hlongs, hdoubles, htexts, List.map_id]
  rfl

theorem map_ofDouble {ds : List Double} (h : ∀ d ∈ ds, d.isFinite = true) :
    ds.map Json.ofDouble = ds.map .real :=
  List.map_congr_left (fun d hd => Json.ofDouble_of_isFinite (h d hd))

/-! ## Values -/

theorem ofJson?_toJson {v : DataValue} (h : v.isFinite = true) :
    ofJson? v.toJson = some v.reread := by
  cases v with
  | null => rfl
  | boolean b => rfl
  | int v =>
    rw [toJson, ofJson?, Json.int32?_integer]
    rfl
  | long v =>
    rw [reread_long, toJson, ofJson?, Json.int64?_integer, Json.int32?]
    by_cases hsmall : (Int32.ofInt v.toInt).toInt = v.toInt
    · rw [if_pos hsmall, if_pos hsmall]
    · rw [if_neg hsmall, if_neg hsmall]
  | double d =>
    rw [toJson, Json.ofDouble_of_isFinite h]
    rfl
  | float s =>
    rw [toJson, Json.ofDouble_of_isFinite (Single.isFinite_widen h)]
    rfl
  | text t => rfl
  | longs is =>
    have hitems : ofItems? (is.map (fun i => .integer i.toInt)) = some (longs (is.map id)) :=
      ofItems?_longs (fun i _ => Json.int64?_integer i)
    rw [List.map_id] at hitems
    exact hitems
  | doubles ds =>
    rw [toJson, map_ofDouble (List.all_eq_true.1 h)]
    cases ds with
    | nil => rfl
    | cons d ds => exact ofItems?_doubles
  | texts ts =>
    cases ts with
    | nil => rfl
    | cons t ts => exact ofItems?_texts
  | bytes bs => exact ofItems?_longs (fun b _ => Json.int64?_byte b)

/-- A value that comes back is the same integer, if it was one. -/
theorem asInteger_reread (v : DataValue) : v.reread.asInteger = v.asInteger := by
  cases v with
  | long v =>
    rw [reread_long]
    split
    case isTrue hsmall => exact congrArg some hsmall
    case isFalse => rfl
  | doubles ds =>
    cases ds with
    | nil => rfl
    | cons d ds => rfl
  | texts ts =>
    cases ts with
    | nil => rfl
    | cons t ts => rfl
  | _ => rfl

/-- A value that comes back is written in the same way. -/
theorem toJson_reread (v : DataValue) : v.reread.toJson = v.toJson := by
  cases v with
  | long v =>
    rw [reread_long]
    split
    case isTrue hsmall => exact congrArg Json.integer hsmall
    case isFalse => rfl
  | doubles ds =>
    cases ds with
    | nil => rfl
    | cons d ds => rfl
  | texts ts =>
    cases ts with
    | nil => rfl
    | cons t ts => rfl
  | bytes bs =>
    simp only [reread, toJson, List.map_map]
    refine congrArg Json.list (List.map_congr_left (fun b _ => ?_))
    exact congrArg Json.integer (Json.toInt_ofInt_byte b)
  | _ => rfl

end DataValue

namespace Capabilities

/-- The capabilities as they come back. -/
def reread (cs : Capabilities) : Capabilities := cs.mapValues DataValue.reread

theorem integer?_reread (cs : Capabilities) (name : String) :
    cs.reread.integer? name = cs.integer? name := by
  rw [integer?, integer?, reread, KeyMap.get?_mapValues]
  cases cs.get? name with
  | none => rfl
  | some v => exact v.asInteger_reread

end Capabilities

namespace Role

theorem ofJson?_name (r : Role) : ofJson? (.text r.name) = some r := by
  cases r with
  | client => rfl
  | server => rfl

end Role

namespace Settings

/-- Whether no floating-point number among the capabilities is infinite or undefined. -/
def isFinite (s : Settings) : Bool := s.capabilities.entries.all (fun e => e.2.isFinite)

theorem capabilitiesOfJson?_toJson {s : Settings} (h : s.isFinite = true) :
    capabilitiesOfJson? (.object (s.capabilities.entries.map (fun e => (e.1, e.2.toJson)))) =
      some s.capabilities.reread := by
  have hentries : (s.capabilities.entries.map (fun e => (e.1, e.2.toJson))).mapM
      (fun f => (DataValue.ofJson? f.2).map (fun v => (f.1, v))) =
        some (s.capabilities.entries.map (fun e => (e.1, e.2.reread))) := by
    apply mapM_map_eq_some
    intro e he
    rw [DataValue.ofJson?_toJson (List.all_eq_true.1 h e he)]
    rfl
  rw [capabilitiesOfJson?, hentries]
  exact congrArg some s.capabilities.reread.ofList_entries

/-- Only the kinds of capability values change on the way. -/
theorem ofJson?_toJson {s : Settings} (h : s.isFinite = true) :
    ofJson? s.toJson = some { s with capabilities := s.capabilities.reread } := by
  have hrole := s.role.ofJson?_name
  have hcapabilities := capabilitiesOfJson?_toJson h
  simp [toJson, ofJson?, ofFields?, fieldOr, Json.field?, List.lookup_cons, Json.bool?, Json.text?, hrole,
    hcapabilities]

/-- Capabilities that came back are written in the same way. -/
theorem toJson_reread (s : Settings) :
    toJson { s with capabilities := s.capabilities.reread } = s.toJson := by
  simp [toJson, Capabilities.reread, KeyMap.mapValues, DataValue.toJson_reread, Function.comp_def]

/-- Settings whose floating-point numbers are all finite can be loaded from the document in which they were
saved.  They keep their meaning: the role, the login, the address, whether authorization is asked for, the
names of the capabilities, and the integer under every name, so that the limits and the time after which
an exchange is dropped are the same.  The settings that were loaded are saved in the same document. -/
theorem reloaded {s : Settings} (hfinite : s.isFinite = true) :
    ∃ t, ofJson? s.toJson = some t ∧
      t.role = s.role ∧ t.authRequired = s.authRequired ∧ t.requiresAuth = s.requiresAuth ∧
      t.login = s.login ∧ t.ip = s.ip ∧ t.capabilities.keys = s.capabilities.keys ∧
      (∀ name, t.capabilities.integer? name = s.capabilities.integer? name) ∧
      t.capabilities.maxFrameSize = s.capabilities.maxFrameSize ∧
      t.capabilities.maxConcurrentMultipart = s.capabilities.maxConcurrentMultipart ∧
      t.capabilities.multipartTimeout = s.capabilities.multipartTimeout ∧
      t.toJson = s.toJson := by
  have hinteger := s.capabilities.integer?_reread
  refine ⟨_, ofJson?_toJson hfinite, rfl, rfl, rfl, rfl, rfl, ?_, hinteger, ?_, ?_, ?_, s.toJson_reread⟩
  · exact KeyMap.keys_mapValues _ _
  · rw [Capabilities.maxFrameSize, Capabilities.maxFrameSize, hinteger]
  · rw [Capabilities.maxConcurrentMultipart, Capabilities.maxConcurrentMultipart, hinteger]
  · rw [Capabilities.multipartTimeout, Capabilities.multipartTimeout, hinteger]

/-- Settings with a value at the edge of every kind that is read as another one, and with such as stay. -/
def edged : Settings where
  role := .client
  authRequired := true
  login := "reader"
  ip := "10.0.0.7"
  capabilities := KeyMap.ofList
    [(Capability.maxWebSocketMessagePayloadSize.name, .long 2147483647),
      (Capability.maxConcurrentMultipart.name, .int 3),
      (Capability.multipartMessageTimeoutPeriod.name, .long 2147483648),
      ("VendorBytes", .bytes [0, 255]), ("VendorFloor", .long Int64.minValue),
      ("VendorList", .doubles []), ("VendorNames", .texts []), ("VendorRatio", .float ⟨0x3dcccccd⟩),
      ("VendorRatios", .doubles [⟨0x7fefffffffffffff⟩, ⟨0x8000000000000000⟩])]

/-- What comes back are other values with the same meaning. -/
theorem reloaded_edged :
    edged.isFinite = true ∧
      ∃ t, ofJson? edged.toJson = some t ∧ t.role = .client ∧ t.authRequired = true ∧
        t.login = "reader" ∧ t.ip = "10.0.0.7" ∧ t.capabilities.keys = edged.capabilities.keys ∧
        t.capabilities.get? Capability.maxWebSocketMessagePayloadSize.name = some (.int 2147483647) ∧
        t.capabilities.get? Capability.multipartMessageTimeoutPeriod.name = some (.long 2147483648) ∧
        t.capabilities.maxFrameSize = some 2147483647 ∧
        t.capabilities.maxConcurrentMultipart = 3 ∧
        t.capabilities.multipartTimeout = some 2147483648 ∧ t.toJson = edged.toJson := by
  have hfinite : edged.isFinite = true := by decide +kernel
  obtain ⟨t, ht, hrole, hauth, -, hlogin, hip, hkeys, -, hsize, hcount, htimeout, hjson⟩ :=
    reloaded hfinite
  have hedged := ofJson?_toJson hfinite
  obtain rfl : t = { edged with capabilities := edged.capabilities.reread } :=
    Option.some.inj (ht.symm.trans hedged)
  refine ⟨hfinite, _, ht, hrole, hauth, hlogin, hip, hkeys, ?_, ?_, ?_, ?_, ?_, hjson⟩
  · decide +kernel
  · decide +kernel
  · rw [hsize]
    decide +kernel
  · rw [hcount]
    decide +kernel
  · rw [htimeout]
    decide +kernel

end Settings

end Etp
