import ChainIndex.Json
import ChainIndex.Dict
import ChainIndex.Text.Hex
import ChainIndex.Text.Base64

/-!
# Records in JSON

A record is read from an object, whose unknown members are ignored, or from an array of its
fields in their declared order. A field is required, has a default, or is optional; an optional
field that is absent is `none`, except that an array has to reach it. A known name that is given
twice is refused.

Byte strings that name things are hexadecimal text, free-form ones base64 text; `null` stands for
the empty byte string in both.
-/

namespace ChainIndex.Json

/-- The members of a record by name, and whether they came as an array. -/
structure Members where
  fields : List (String × Json)
  listed : Bool
deriving Repr, Inhabited

/-- The first value with a name. -/
def lookup (name : String) : List (String × Json) → Option Json
  | [] => none
  | (k, v) :: rest => if k = name then some v else lookup name rest

/-- Whether no two of the members have the same name among `names`. -/
def areDistinct (names : List String) : List (String × Json) → Bool
  | [] => true
  | (k, _) :: rest => !(names.contains k && rest.any (·.1 == k)) && areDistinct names rest

/-- The members of a record with fields of the given names. -/
def members? (names : List String) : Json → Option Members
  | .object ms => if areDistinct names ms then some ⟨ms, false⟩ else none
  | .array vs => if vs.length ≤ names.length then some ⟨names.zip vs, true⟩ else none
  | _ => none

/-- A value or `null`. -/
def nullable? {α : Type} (read : Json → Option α) : Json → Option (Option α)
  | .null => some none
  | v => (read v).map some

namespace Members

variable {α : Type}

/-- A field that must be there. -/
def required (m : Members) (name : String) (read : Json → Option α) : Option α :=
  (lookup name m.fields).bind read

/-- A field with a value for its absence. -/
def defaulted (m : Members) (name : String) (value : α) (read : Json → Option α) : Option α :=
  match lookup name m.fields with
  | none => some value
  | some v => read v

/-- A field that may be `null`, or absent unless the record is an array. -/
def optional (m : Members) (name : String) (read : Json → Option α) : Option (Option α) :=
  match lookup name m.fields with
  | none => if m.listed then none else some none
  | some v => nullable? read v

end Members

/-! ### Reading scalars and containers -/

/-- Text. -/
def string? : Json → Option String
  | .string s => some s
  | _ => none

/-- A truth value. -/
def bool? : Json → Option Bool
  | .bool b => some b
  | _ => none

/-- An integer that a 64-bit counter can hold. -/
def uint64? : Json → Option UInt64
  | .int n => if 0 ≤ n ∧ n < 0x10000000000000000 then some (UInt64.ofNat n.toNat) else none
  | _ => none

/-- An integer that a 32-bit counter can hold. -/
def uint32? : Json → Option UInt32
  | .int n => if 0 ≤ n ∧ n < 0x100000000 then some (UInt32.ofNat n.toNat) else none
  | _ => none

/-- An integer of thirty-two bits with sign. -/
def int32? : Json → Option Int32
  | .int n => if -0x80000000 ≤ n ∧ n < 0x80000000 then some (Int32.ofInt n) else none
  | _ => none

/-- Hexadecimal text, or `null` for no byte. -/
def hexBytes? : Json → Option Bytes
  | .null => some []
  | .string s => (Hex.decodeText s).toOption
  | _ => none

/-- Base64 text, or `null` for no byte. -/
def base64Bytes? : Json → Option Bytes
  | .null => some []
  | .string s => Base64.decode? s
  | _ => none

/-- An array of values that are read alike. -/
def list? {α : Type} (read : Json → Option α) : Json → Option (List α)
  | .array vs => vs.mapM read
  | _ => none

/-- An object of values that are read alike, the last value of a name being the one that
counts. -/
def dict? {α : Type} (read : Json → Option α) : Json → Option (Dict α)
  | .object ms => (ms.mapM fun m => (read m.2).map fun a => (m.1, a)).map Dict.ofList
  | _ => none

/-- The name of a choice without content: quoted, or the only name of an object with `null`. -/
def choice? : Json → Option String
  | .string s => some s
  | .object [(name, .null)] => some name
  | _ => none

/-! ### Writing scalars and containers -/

/-- A 64-bit counter. -/
def uint64 (n : UInt64) : Json := .nat n.toNat

/-- A 32-bit counter. -/
def uint32 (n : UInt32) : Json := .nat n.toNat

/-- An integer of thirty-two bits with sign. -/
def int32 (n : Int32) : Json := .int n.toInt

/-- A byte string that names something. -/
def hexBytes (bs : Bytes) : Json := .string (Hex.encode bs)

/-- A byte string of free form. -/
def base64Bytes (bs : Bytes) : Json := .string (Base64.encode bs)

/-- An array of values that are written alike. -/
def list {α : Type} (write : α → Json) (xs : List α) : Json := .array (xs.map write)

/-- An object of values that are written alike. -/
def dict {α : Type} (write : α → Json) (d : Dict α) : Json :=
  .object (d.entries.map fun e => (e.1, write e.2))

/-- A value that may be absent. -/
def optional {α : Type} (write : α → Json) : Option α → Json
  | none => .null
  | some a => write a

/-! ### Writing optional members -/

/-- The members of an optional text. -/
def textField (name value : String) : List (String × Json) :=
  if value.isEmpty then [] else [(name, .string value)]

/-- The members of an optional byte string of free form. -/
def bytesField (name : String) (value : Bytes) : List (String × Json) :=
  if value.isEmpty then [] else [(name, .base64Bytes value)]

/-- The members of a switch. -/
def switchField (name : String) (value : Bool) : List (String × Json) :=
  if value then [(name, .bool true)] else []

/-- The members of an optional count. -/
def countField (name : String) (value : UInt64) : List (String × Json) :=
  if value = 0 then [] else [(name, .uint64 value)]

/-- The members of an optional amount. -/
def amountField (name : String) (value : Binary64) : List (String × Json) :=
  if value = .zero then [] else [(name, .float value)]

/-- The members of an optional list. -/
def listField {α : Type} (name : String) (write : α → Json) (values : List α) :
    List (String × Json) :=
  if values.isEmpty then [] else [(name, .list write values)]

end ChainIndex.Json
