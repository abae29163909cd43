import ChainIndex.Number.Binary64

/-!
# JSON values

One type serves both directions: the values that blocks are read from and the bodies of the
documents that are written. The order of the members of an object is kept, and so are members
with the same name, because a record refuses a name that is given twice.
-/

namespace ChainIndex

/-- A JSON value. -/
inductive Json where
  | null
  | bool (b : Bool)
  /-- A number written without fraction and exponent. -/
  | int (n : Int)
  /-- A computed amount; values that are read never hold one. -/
  | float (x : Binary64)
  | string (s : String)
  | array (elements : List Json)
  | object (members : List (String × Json))
  /-- A value that is well formed but fits no field: a number with a fraction or an exponent, text
  that is not Unicode, or an object with such text for a name. Only what nobody reads may hold
  it. -/
  | foreign
deriving Repr, Inhabited

namespace Json

/-- A count as a number. -/
def nat (n : Nat) : Json :=
  .int (Int.ofNat n)

/-- Texts as an array. -/
def strings (ss : List String) : Json :=
  .array (ss.map .string)

end Json

end ChainIndex
