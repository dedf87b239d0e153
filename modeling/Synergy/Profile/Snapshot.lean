import Synergy.Lib.Json
import Synergy.Profile.ProfileConfig

/-!
# Decoding a snapshot

`from_json` of `json.hpp`, one instance for each type that a snapshot is made of, and
`ProfileConfig::fromJsonSnapshot`. The parser is a parameter. `from_json` is a recursion over the
type that is decoded: every instance says which values it reads as what, and refuses all others with
an exception.

What comes after it is `Screen::apply`, and there a screen whose status has no known name is not
refused: `stringToScreenStatus` says `throw` with no exception at hand, which ends the process.
-/

set_option autoImplicit false

namespace Synergy

open Lib

/-! ## `json.hpp` -/

/-- What decoding may throw, all of it derived from `std::exception`. -/
inductive JsonException where
  | runtimeError (what : String)
  | rangeError (what : String)
  /-- `boost::numeric_cast`, of a number that is out of range. -/
  | badNumericCast
  /-- `get_object`, of something else. -/
  | invalidType
  /-- `tao::json::from_string`. -/
  | parseError
  deriving DecidableEq

/-- The value of an integral type of the given range. -/
abbrev Ranged (lowest highest : ℤ) := {z : ℤ // lowest ≤ z ∧ z ≤ highest}

/-- An `int`, an `uint32_t` and an `uint64_t`. -/
abbrev CInt := Ranged (-2 ^ 31) (2 ^ 31 - 1)

abbrev CUInt32 := Ranged 0 (2 ^ 32 - 1)

abbrev CUInt64 := Ranged 0 (2 ^ 64 - 1)

/-- `json::to_string (src.type ())`. -/
def typeName : Json → String
  | .null => "null"
  | .boolean _ => "boolean"
  | .unsigned _ => "unsigned"
  | .signed _ => "signed"
  | .double _ => "double"
  | .string _ => "string"
  | .array _ => "array"
  | .object _ => "object"

def mistyped (field expected : String) (json : Json) : JsonException :=
  .runtimeError ("Expected field '" ++ field ++ "' to be " ++ expected ++
    ", but found a value of '" ++ typeName json ++ "' type")

def requiresRounding (field : String) : JsonException :=
  .rangeError ("Expected field '" ++ field ++ "' to be of integral type, but found a " ++
    "floating point value that requires rounding")

def Ranged.numericCast {lowest highest : ℤ} (z : ℤ) :
    Except JsonException (Ranged lowest highest) :=
  if h : lowest ≤ z ∧ z ≤ highest then .ok ⟨z, h⟩ else .error .badNumericCast

/-- The fields of a `json::value` that is an object. -/
def getObject : Json → Except JsonException (List (String × Json))
  | .object fields => .ok fields
  | _ => .error .invalidType

/-- A required field of a struct. -/
def fromField {α : Type} [FromJson JsonException α] (fields : List (String × Json))
    (name : String) : Except JsonException α :=
  match fields.lookup name with
  | none | some .null => .error (.runtimeError ("Missing or null '" ++ name ++ "' field"))
  | some json => FromJson.fromJson name json

theorem Ranged.numericCast_eq_ok {lowest highest z : ℤ} {a : Ranged lowest highest} :
    Ranged.numericCast z = .ok a ↔ z = a := by
  unfold Ranged.numericCast
  split
  · rename_i h
    rw [Except.ok.injEq, Subtype.ext_iff]
  · rename_i h
    refine ⟨fun heq => absurd heq (by simp), fun heq => absurd (heq ▸ a.2) h⟩

theorem getObject_eq_ok {json : Json} {fields : List (String × Json)} :
    getObject json = .ok fields ↔ json = .object fields := by
  cases json <;> simp [getObject]

theorem fromField_eq_ok {α : Type} [FromJson JsonException α] {fields : List (String × Json)}
    {name : String} {a : α} : fromField fields name = .ok a ↔ ReadsField fields name a := by
  unfold fromField ReadsField
  split
  · rename_i h
    simp [h]
  · rename_i h
    simp [h]
  · rename_i json hnull h
    rw [FromJson.fromJson_eq_ok, h]
    constructor
    · intro hreads
      exact ⟨json, rfl, hnull, hreads⟩
    · rintro ⟨json', heq, -, hreads⟩
      cases heq
      exact hreads

instance : FromJson JsonException Bool where
  fromJson field
    | .boolean b => .ok b
    | json => .error (mistyped field "a boolean" json)
  Reads json b := json = .boolean b
  fromJson_eq_ok {_ json _} := by cases json <;> simp

instance : FromJson JsonException String where
  fromJson field
    | .string s => .ok s
    | json => .error (mistyped field "a string" json)
  Reads json s := json = .string s
  fromJson_eq_ok {_ json _} := by cases json <;> simp

/-- The overload for integral types. `modf` of an infinite number leaves no fraction. -/
def integralFromJson {lowest highest : ℤ} (field : String) :
    Json → Except JsonException (Ranged lowest highest)
  | .unsigned n => Ranged.numericCast n.toNat
  | .signed n => Ranged.numericCast n.toInt
  | .double (.finite q) =>
    if q.den = 1 then Ranged.numericCast q.num else .error (requiresRounding field)
  | .double (.infinite _) => .error .badNumericCast
  | .double .nan => .error (requiresRounding field)
  | json => .error (mistyped field "of integral type" json)

instance {lowest highest : ℤ} : FromJson JsonException (Ranged lowest highest) where
  fromJson := integralFromJson
  Reads json a := json.integer = some (a : ℤ)
  fromJson_eq_ok {field json a} := by
    unfold integralFromJson Json.integer
    split
    · rw [Ranged.numericCast_eq_ok, Option.some.injEq]
    · rw [Ranged.numericCast_eq_ok, Option.some.injEq]
    · split
      · rename_i h
        rw [Ranged.numericCast_eq_ok]
        simp [h]
      · rename_i h
        simp [h]
    · simp
    · simp
    · simp

/-- The overload for vectors. -/
def vectorFromJson {α : Type} [FromJson JsonException α] (field : String) :
    Json → Except JsonException (List α)
  | .array elements => elements.mapM (FromJson.fromJson "")
  | json => .error (mistyped field "an array" json)

instance {α : Type} [FromJson JsonException α] : FromJson JsonException (List α) where
  fromJson := vectorFromJson
  Reads json as := ∃ elements, json = .array elements ∧ List.Forall₂ FromJson.Reads elements as
  fromJson_eq_ok {field json as} := by
    cases json with
    | array elements =>
      have h : elements.mapM (FromJson.fromJson "") = .ok as ↔ _ := Except.mapM_eq_ok
      simp only [FromJson.fromJson_eq_ok] at h
      simpa [vectorFromJson] using h
    | _ => simp [vectorFromJson]

/-! ## The structs of a snapshot -/

structure ProfileSnapshot where
  id : CInt
  name : String
  server : CInt
  configVersion : CInt

structure ScreenSnapshot where
  id : CInt
  name : String
  xPos : CInt
  yPos : CInt
  active : Bool
  status : String
  ipList : String
  version : CUInt64
  errorCode : CUInt32
  errorMessage : String

structure ProfileConfigSnapshot where
  profile : ProfileSnapshot
  screens : List ScreenSnapshot

def ProfileSnapshot.fromJson (json : Json) : Except JsonException ProfileSnapshot := do
  let fields ← getObject json
  let id ← fromField fields "id"
  let name ← fromField fields "name"
  let server ← fromField fields "server"
  let configVersion ← fromField fields "configVersion"
  return { id, name, server, configVersion }

def ScreenSnapshot.fromJson (json : Json) : Except JsonException ScreenSnapshot := do
  let fields ← getObject json
  let id ← fromField fields "id"
  let name ← fromField fields "name"
  let xPos ← fromField fields "x_pos"
  let yPos ← fromField fields "y_pos"
  let active ← fromField fields "active"
  let status ← fromField fields "status"
  let ipList ← fromField fields "ipList"
  let version ← fromField fields "version"
  let errorCode ← fromField fields "error_code"
  let errorMessage ← fromField fields "error_message"
  return { id, name, xPos, yPos, active, status, ipList, version, errorCode, errorMessage }

/-- The fields of the object, each read as the field of the struct. -/
structure ProfileSnapshot.Reads (fields : List (String × Json)) (s : ProfileSnapshot) : Prop where
  id : ReadsField fields "id" s.id
  name : ReadsField fields "name" s.name
  server : ReadsField fields "server" s.server
  configVersion : ReadsField fields "configVersion" s.configVersion

structure ScreenSnapshot.Reads (fields : List (String × Json)) (s : ScreenSnapshot) : Prop where
  id : ReadsField fields "id" s.id
  name : ReadsField fields "name" s.name
  xPos : ReadsField fields "x_pos" s.xPos
  yPos : ReadsField fields "y_pos" s.yPos
  active : ReadsField fields "active" s.active
  status : ReadsField fields "status" s.status
  ipList : ReadsField fields "ipList" s.ipList
  version : ReadsField fields "version" s.version
  errorCode : ReadsField fields "error_code" s.errorCode
  errorMessage : ReadsField fields "error_message" s.errorMessage

instance : FromJson JsonException ProfileSnapshot where
  fromJson _ := ProfileSnapshot.fromJson
  Reads json s := ∃ fields, json = .object fields ∧ s.Reads fields
  fromJson_eq_ok {_ json s} := by
    simp only [ProfileSnapshot.fromJson, bind, pure, Except.bind_eq_ok, getObject_eq_ok,
      fromField_eq_ok]
    constructor
    · rintro ⟨fields, hfields, id, hid, name, hname, server, hserver, version, hversion, heq⟩
      cases heq
      exact ⟨fields, hfields, hid, hname, hserver, hversion⟩
    · rintro ⟨fields, hfields, h⟩
      exact ⟨fields, hfields, _, h.id, _, h.name, _, h.server, _, h.configVersion, rfl⟩

instance : FromJson JsonException ScreenSnapshot where
  fromJson _ := ScreenSnapshot.fromJson
  Reads json s := ∃ fields, json = .object fields ∧ s.Reads fields
  fromJson_eq_ok {_ json s} := by
    simp only [ScreenSnapshot.fromJson, bind, pure, Except.bind_eq_ok, getObject_eq_ok,
      fromField_eq_ok]
    constructor
    · rintro ⟨fields, hfields, id, hid, name, hname, x, hx, y, hy, active, hactive, status, hstatus,
        ipList, hipList, version, hversion, code, hcode, message, hmessage, heq⟩
      cases heq
      exact ⟨fields, hfields, hid, hname, hx, hy, hactive, hstatus, hipList, hversion, hcode,
        hmessage⟩
    · rintro ⟨fields, hfields, h⟩
      exact ⟨fields, hfields, _, h.id, _, h.name, _, h.xPos, _, h.yPos, _, h.active, _, h.status,
        _, h.ipList, _, h.version, _, h.errorCode, _, h.errorMessage, rfl⟩

def ProfileConfigSnapshot.fromJson (json : Json) : Except JsonException ProfileConfigSnapshot := do
  let fields ← getObject json
  let profile ← fromField fields "profile"
  let screens ← fromField fields "screens"
  return { profile, screens }

structure ProfileConfigSnapshot.Reads (fields : List (String × Json)) (s : ProfileConfigSnapshot) :
    Prop where
  profile : ReadsField fields "profile" s.profile
  screens : ReadsField fields "screens" s.screens

instance : FromJson JsonException ProfileConfigSnapshot where
  fromJson _ := ProfileConfigSnapshot.fromJson
  Reads json s := ∃ fields, json = .object fields ∧ s.Reads fields
  fromJson_eq_ok {_ json s} := by
    simp only [ProfileConfigSnapshot.fromJson, bind, pure, Except.bind_eq_ok, getObject_eq_ok,
      fromField_eq_ok]
    constructor
    · rintro ⟨fields, hfields, profile, hprofile, screens, hscreens, heq⟩
      cases heq
      exact ⟨fields, hfields, hprofile, hscreens⟩
    · rintro ⟨fields, hfields, h⟩
      exact ⟨fields, hfields, _, h.profile, _, h.screens, rfl⟩

/-! ## From the snapshot to the profile -/

def kScreenWidth : Int := 86

def kScreenHeight : Int := 58

/-- `throw` without an exception is `none`. -/
def stringToScreenStatus (str : String) : Option ScreenStatus :=
  if str = "Connected" then some .kConnected
  else if str = "Connecting" ∨ str = "ConnectingWithError" then some .kConnecting
  else if str = "Disconnected" then some .kDisconnected
  else if str = "Inactive" then some .kInactive
  else none

def Screen.apply (screen : Screen) (ss : ScreenSnapshot) : Option Screen :=
  (stringToScreenStatus ss.status).map fun status =>
    { screen with
      id := ss.id.val
      name := ss.name
      active := ss.active
      x := ss.xPos.val
      y := ss.yPos.val
      width := kScreenWidth
      height := kScreenHeight
      status := status
      ipList := ss.ipList
      errorCode := UInt32.ofNat ss.errorCode.val.toNat
      errorMessage := ss.errorMessage }

namespace ProfileConfig

/-- The end of a call: it returns, it throws, or it ends the process. -/
inductive Outcome (α : Type) where
  | returns (a : α)
  | throws (ex : JsonException)
  | terminates
  deriving DecidableEq

/-- The rest of `fromJsonSnapshot`, after `from_json`. -/
def ofSnapshot (snapshot : ProfileConfigSnapshot) : Outcome ProfileConfig :=
  match snapshot.screens.mapM (Screen.apply { id := 0 }) with
  | none => .terminates
  | some screens =>
    .returns
      { profile :=
          { id := snapshot.profile.id.val
            version := snapshot.profile.configVersion.val
            server := snapshot.profile.server.val
            name := snapshot.profile.name }
        screens := screens }

def fromJsonSnapshot (parse : String → Option Json) (text : String) : Outcome ProfileConfig :=
  match parse text with
  | none => .throws .parseError
  | some json =>
    match FromJson.fromJson "" json with
    | .error ex => .throws ex
    | .ok snapshot => ofSnapshot snapshot

end ProfileConfig

/-! ## What a snapshot stands for -/

/-- The known names. -/
inductive StatusName : String → ScreenStatus → Prop
  | connected : StatusName "Connected" .kConnected
  | connecting : StatusName "Connecting" .kConnecting
  | connectingWithError : StatusName "ConnectingWithError" .kConnecting
  | disconnected : StatusName "Disconnected" .kDisconnected
  | inactive : StatusName "Inactive" .kInactive

/-- The screen has the fields of the snapshot, and the size that all screens have. -/
structure ScreenSnapshot.Describes (ss : ScreenSnapshot) (screen : Screen) : Prop where
  id : screen.id = ss.id
  name : screen.name = ss.name
  active : screen.active = ss.active
  x : screen.x = ss.xPos
  y : screen.y = ss.yPos
  width : screen.width = kScreenWidth
  height : screen.height = kScreenHeight
  status : StatusName ss.status screen.status
  ipList : screen.ipList = ss.ipList
  errorCode : (screen.errorCode.toNat : ℤ) = ss.errorCode
  errorMessage : screen.errorMessage = ss.errorMessage

structure ProfileConfigSnapshot.Describes (snapshot : ProfileConfigSnapshot) (m : ProfileConfig) :
    Prop where
  id : m.profile.id = snapshot.profile.id
  version : m.profile.version = snapshot.profile.configVersion
  server : m.profile.server = snapshot.profile.server
  name : m.profile.name = snapshot.profile.name
  screens : List.Forall₂ ScreenSnapshot.Describes snapshot.screens m.screens

/-- The value has all fields of a snapshot, of the right types and in range. -/
def IsSnapshot (json : Json) (snapshot : ProfileConfigSnapshot) : Prop :=
  FromJson.Reads json snapshot

/-- The value is a snapshot of that profile. -/
def SnapshotOf (json : Json) (m : ProfileConfig) : Prop :=
  ∃ snapshot, IsSnapshot json snapshot ∧ snapshot.Describes m

/-- Every status has a known name. -/
def ProfileConfigSnapshot.StatusesKnown (snapshot : ProfileConfigSnapshot) : Prop :=
  ∀ ss ∈ snapshot.screens, ∃ status, StatusName ss.status status

theorem stringToScreenStatus_eq_some {str : String} {status : ScreenStatus} :
    stringToScreenStatus str = some status ↔ StatusName str status := by
  unfold stringToScreenStatus
  constructor
  · intro h
    split at h
    · rename_i hstr
      cases h
      exact hstr ▸ .connected
    · split at h
      · rename_i hstr
        cases h
        rcases hstr with rfl | rfl
        · exact .connecting
        · exact .connectingWithError
      · split at h
        · rename_i hstr
          cases h
          exact hstr ▸ .disconnected
        · split at h
          · rename_i hstr
            cases h
            exact hstr ▸ .inactive
          · exact absurd h (by simp)
  · intro h
    cases h <;> decide

theorem Screen.apply_eq_some {screen screen' : Screen} {ss : ScreenSnapshot} :
    screen.apply ss = some screen' ↔ ss.Describes screen' := by
  have hcode : ∀ code : UInt32, (code.toNat : ℤ) = ss.errorCode ↔
      UInt32.ofNat ss.errorCode.val.toNat = code := by
    intro code
    obtain ⟨z, hlow, hhigh⟩ := ss.errorCode
    obtain ⟨n, rfl⟩ := Int.eq_ofNat_of_zero_le hlow
    have hn : n < 2 ^ 32 := by omega
    show (code.toNat : ℤ) = (n : ℤ) ↔ UInt32.ofNat (n : ℤ).toNat = code
    rw [← UInt32.toNat_inj, Int.toNat_natCast, UInt32.toNat_ofNat', Nat.mod_eq_of_lt hn,
      Int.natCast_inj, eq_comm]
  unfold apply
  rw [Option.map_eq_some_iff]
  simp only [stringToScreenStatus_eq_some]
  constructor
  · rintro ⟨status, hstatus, rfl⟩
    exact ⟨rfl, rfl, rfl, rfl, rfl, rfl, rfl, hstatus, rfl, (hcode _).mpr rfl, rfl⟩
  · rintro h
    refine ⟨screen'.status, h.status, ?_⟩
    rw [(hcode _).mp h.errorCode, ← h.id, ← h.name, ← h.active, ← h.x, ← h.y, ← h.width, ← h.height,
      ← h.ipList, ← h.errorMessage]

theorem Screen.apply_eq_none {screen : Screen} {ss : ScreenSnapshot} :
    screen.apply ss = none ↔ ¬∃ status, StatusName ss.status status := by
  unfold apply
  rw [Option.map_eq_none_iff, Option.eq_none_iff_forall_ne_some]
  simp only [ne_eq, stringToScreenStatus_eq_some, not_exists]

/-- The loop over the screens. -/
theorem mapM_apply_eq_some {screen : Screen} {snapshots : List ScreenSnapshot}
    {screens : List Screen} : snapshots.mapM screen.apply = some screens ↔
      List.Forall₂ ScreenSnapshot.Describes snapshots screens := by
  rw [mapM_eq_some]
  simp only [Screen.apply_eq_some]

theorem mapM_apply_eq_none {screen : Screen} {snapshots : List ScreenSnapshot} :
    snapshots.mapM screen.apply = none ↔
      ∃ ss ∈ snapshots, ¬∃ status, StatusName ss.status status := by
  induction snapshots with
  | nil => simp
  | cons ss snapshots ih =>
    rw [List.mapM_cons, List.exists_mem_cons_iff, ← ih, ← @Screen.apply_eq_none screen]
    cases screen.apply ss with
    | none => simp
    | some t => cases snapshots.mapM screen.apply <;> simp

theorem IsSnapshot.unique {json : Json} {snapshot snapshot' : ProfileConfigSnapshot}
    (h : IsSnapshot json snapshot) (h' : IsSnapshot json snapshot') : snapshot = snapshot' := by
  have heq : FromJson.fromJson "" json = .ok snapshot := FromJson.fromJson_eq_ok.mpr h
  rw [FromJson.fromJson_eq_ok.mpr h'] at heq
  exact (Except.ok.inj heq).symm

namespace ProfileConfig

variable {snapshot : ProfileConfigSnapshot} {m : ProfileConfig}

theorem ofSnapshot_eq_returns : ofSnapshot snapshot = .returns m ↔ snapshot.Describes m := by
  unfold ofSnapshot
  split
  · rename_i hnone
    refine ⟨fun h => absurd h (by simp), fun h => ?_⟩
    rw [mapM_apply_eq_some.mpr h.screens] at hnone
    exact absurd hnone (by simp)
  · rename_i screens hscreens
    rw [mapM_apply_eq_some] at hscreens
    constructor
    · intro h
      cases h
      exact ⟨rfl, rfl, rfl, rfl, hscreens⟩
    · intro h
      have heq : snapshot.screens.mapM (Screen.apply { id := 0 }) = some _ :=
        mapM_apply_eq_some.mpr hscreens
      rw [mapM_apply_eq_some.mpr h.screens] at heq
      rw [← h.id, ← h.version, ← h.server, ← h.name, ← Option.some.inj heq]

theorem ofSnapshot_ne_throws (snapshot : ProfileConfigSnapshot) (ex : JsonException) :
    ofSnapshot snapshot ≠ .throws ex := by
  unfold ofSnapshot
  split <;> simp

theorem ofSnapshot_eq_terminates :
    ofSnapshot snapshot = .terminates ↔ ¬snapshot.StatusesKnown := by
  have hnone : snapshot.screens.mapM (Screen.apply { id := 0 }) = none ↔ _ := mapM_apply_eq_none
  unfold ofSnapshot
  split
  · rename_i h
    simpa [ProfileConfigSnapshot.StatusesKnown] using hnone.mp h
  · rename_i screens h
    rw [h] at hnone
    simpa [ProfileConfigSnapshot.StatusesKnown] using hnone

variable {parse : String → Option Json} {text : String}

/-- Decoding fails, or goes on with what the text stands for. -/
theorem fromJsonSnapshot_cases (parse : String → Option Json) (text : String) :
    ((∃ ex, fromJsonSnapshot parse text = .throws ex) ∧
      ∀ json snapshot, parse text = some json → ¬IsSnapshot json snapshot) ∨
    ∃ json snapshot, parse text = some json ∧ IsSnapshot json snapshot ∧
      fromJsonSnapshot parse text = ofSnapshot snapshot := by
  unfold fromJsonSnapshot
  cases hparse : parse text with
  | none =>
    left
    exact ⟨⟨_, rfl⟩, fun _ _ h => absurd h (by simp)⟩
  | some json =>
    simp only
    cases hjson : FromJson.fromJson (α := ProfileConfigSnapshot) "" json with
    | error ex =>
      left
      refine ⟨⟨_, rfl⟩, ?_⟩
      intro json' snapshot heq hsnapshot
      cases heq
      rw [FromJson.fromJson_eq_ok.mpr hsnapshot] at hjson
      exact absurd hjson (by simp)
    | ok snapshot =>
      right
      exact ⟨json, snapshot, rfl, FromJson.fromJson_eq_ok.mp hjson, rfl⟩

end ProfileConfig

end Synergy
