import HomelabInventory.ExceptLoop
import HomelabInventory.JoinedText
import HomelabInventory.OrderedMap
import HomelabInventory.Text
import Mathlib.Data.Rat.Defs

/-!
# Telemetry entities and their keys

The entities of the six telemetry families as the telemetry store receives
them: JSON objects, the text that names an entity, the columns its row is keyed
by, and the fields whose change is an event in the life of the entity.
-/

namespace HomelabInventory.Telemetry

/-- A JSON value. Arrays and objects are given by their canonical text, in which the fields
of an object are sorted; two values have one canonical text only when they are equal. -/
inductive Value where
  | null
  | bool (value : Bool)
  | number (value : ℚ)
  | text (value : String)
  | nested (canonicalJson : String)
  deriving DecidableEq

/-- A JSON object of telemetry, by its fields. -/
abbrev Entity := BTreeMap String Value

/-! ## Identity -/

/-- The white space and the line terminators that `String.prototype.trim` removes. -/
def isTrimmed (c : Char) : Bool :=
  (isWhitespace c && c.toNat != 0x85) || c.toNat == 0xFEFF

/-- `value.trim()`. -/
def trimmed (value : String) : String :=
  String.ofList ((value.toList.dropWhile isTrimmed).rdropWhile isTrimmed)

/-- `value.first ?? value.second ?? …`: the first field that is neither missing nor null,
or else the last one. -/
def Entity.coalesce (value : Entity) : List String → Option Value
  | [] => none
  | [field] => value[field]?
  | field :: rest =>
    match value[field]? with
    | none | some .null => Entity.coalesce value rest
    | some found => some found

/-- `value.first ?? value.second ?? … ?? fallback`. -/
def Entity.coalesceOr (value : Entity) (fields : List String) (fallback : Value) : Value :=
  match value.coalesce fields with
  | none | some .null => fallback
  | some found => found

/-- The trimmed text of an identity field. -/
def required (value : Option Value) (label : String) : Except String String :=
  match value with
  | some (.text text) =>
    if trimmed text = "" then .error (label ++ " identity is required.") else .ok (trimmed text)
  | _ => .error (label ++ " identity is required.")

/-- The separator of the texts of a key, and of the columns of a row. -/
def keySeparator : Char := Char.ofNat 0

def serviceManager (value : Entity) : Value :=
  value.coalesceOr ["manager", "serviceManager"] (.text "systemd")

def serviceKey (value : Entity) : Except String String := do
  let manager ← required (some (serviceManager value)) "service manager"
  let name ← required (value.coalesce ["name", "key"]) "service"
  return joinText keySeparator [manager, name]

def containerKey (value : Entity) : Except String String := do
  let runtime ← required value["runtime"]? "container runtime"
  let runtimeId ← required (value.coalesce ["runtimeId", "id"]) "container"
  return joinText keySeparator [runtime, runtimeId]

def mountKey (value : Entity) : Except String String :=
  required (value.coalesce ["mountPoint", "mount", "key"]) "filesystem mount"

def deviceKey (value : Entity) : Except String String :=
  required (value.coalesce ["deviceId", "device", "key", "name"]) "storage device"

def gpuKey (value : Entity) : Except String String :=
  required (value.coalesce ["id", "pciAddress", "uuid", "key", "name"]) "GPU"

def sensorKey (value : Entity) : Except String String :=
  required (value.coalesce ["key", "id", "name"]) "sensor"

/-! ## Families -/

/-- The families of entities. -/
inductive Family where
  | services | containers | filesystems | gpus | sensors | storageHealth
  deriving DecidableEq

/-- The families whose entities have a life that is recorded as events. -/
inductive EventFamily where
  | service | container | storageHealth
  deriving DecidableEq

namespace Family

/-- `FAMILY_CONFIG[name].family`. -/
def eventFamily : Family → Option EventFamily
  | services => some .service
  | containers => some .container
  | storageHealth => some .storageHealth
  | filesystems | gpus | sensors => none

/-- `FAMILY_CONFIG[name].key`. -/
def key : Family → Entity → Except String String
  | services => serviceKey
  | containers => containerKey
  | filesystems => mountKey
  | gpus => gpuKey
  | sensors => sensorKey
  | storageHealth => deviceKey

/-- The columns that key the rows of a family, besides the host. -/
def keyColumns : Family → List String
  | services => ["service_manager", "service_key"]
  | containers => ["runtime", "runtime_id"]
  | filesystems => ["mount_key"]
  | gpus => ["gpu_key"]
  | sensors => ["sensor_key"]
  | storageHealth => ["device_key"]

end Family

/-- A field bound to a text column that is not null. -/
def bindText : Option Value → Except String String
  | some (.text text) => .ok text
  | _ => .error "constraint failed: NOT NULL text column"

/-- The values of the key columns. The columns of services and containers take the fields as
they came, the column of the other families takes the entity key. -/
def tableKeyParts (name : Family) (value : Entity) : Except String (List String) :=
  match name with
  | .services => do
    let manager ← bindText (some (serviceManager value))
    let service ← bindText (value.coalesce ["name", "key"])
    return [manager, service]
  | .containers => do
    let runtime ← bindText value["runtime"]?
    let runtimeId ← bindText (value.coalesce ["runtimeId", "id"])
    return [runtime, runtimeId]
  | name => do
    let key ← name.key value
    return [key]

/-- A row has a value for each key column. -/
theorem length_tableKeyParts {name : Family} {value : Entity} {parts : List String}
    (h : tableKeyParts name value = .ok parts) : parts.length = name.keyColumns.length := by
  cases name
  case services | containers =>
    obtain ⟨first, -, h⟩ := bind_eq_ok.mp h
    obtain ⟨second, -, h⟩ := bind_eq_ok.mp h
    rw [← pure_eq_ok.mp h]
    rfl
  all_goals
    obtain ⟨key, -, h⟩ := bind_eq_ok.mp h
    rw [← pure_eq_ok.mp h]
    rfl

/-! ## Lifecycle -/

/-- The fields of an entity whose change is an event, by name; a field that is missing
stays missing. -/
def lifecycleState (family : EventFamily) (value : Entity) : List (String × Option Value) :=
  match family with
  | .service => [
      ("name", value.coalesce ["name", "key"]),
      ("manager", some (serviceManager value)),
      ("activeState", some (value.coalesceOr ["activeState", "state"] .null)),
      ("subState", some (value.coalesceOr ["subState"] .null)),
      ("enabled", some (value.coalesceOr ["enabled"] .null)),
      ("classification", some (value.coalesceOr ["classification", "scope"] .null))]
  | .container => [
      ("runtime", value["runtime"]?),
      ("runtimeId", value.coalesce ["runtimeId", "id"]),
      ("name", some (value.coalesceOr ["name"] .null)),
      ("image", some (value.coalesceOr ["image"] .null)),
      ("state", some (value.coalesceOr ["state"] .null)),
      ("health", some (value.coalesceOr ["health"] .null)),
      ("ports", some (value.coalesceOr ["ports"] (.nested "[]"))),
      ("networks", some (value.coalesceOr ["networks", "network"] (.nested "[]"))),
      ("serviceName", some (value.coalesceOr ["serviceName", "composeService"] .null))]
  | .storageHealth => [
      ("deviceId", value.coalesce ["deviceId", "device", "key"]),
      ("kind", some (value.coalesceOr ["kind"] .null)),
      ("state", some (value.coalesceOr ["state", "health"] .null)),
      ("warnings", some (value.coalesceOr ["warnings"] (.nested "[]")))]

end HomelabInventory.Telemetry
