import ChainIndex.Table

/-!
# Roles and properties of tokens

Grants and revocations of roles, grouped by role and in order of arrival within a role, and
changes of what the owner of a token may do, in order of arrival.
-/

namespace ChainIndex

/-- A role on a token that an address gets or loses. -/
structure RoleChange where
  token : String
  address : String
  granted : Bool
deriving Repr, DecidableEq, Inhabited

/-- New values of properties of a token, by their names. -/
structure PropertyChange where
  token : String
  properties : Table Bool

instance : Inhabited PropertyChange := ⟨⟨"", .empty⟩⟩

/-- The changes of roles and properties in a block. -/
structure RoleBook where
  roles : Table (List RoleChange) := .empty
  properties : List PropertyChange := []
deriving Inhabited

namespace RoleBook

/-- Notes a change of a role after the earlier ones. -/
def addRole (b : RoleBook) (role : String) (change : RoleChange) : RoleBook :=
  { b with roles := b.roles.alter role fun changes => changes.getD [] ++ [change] }

/-- Notes a change of properties after the earlier ones. -/
def addProperties (b : RoleBook) (change : PropertyChange) : RoleBook :=
  { b with properties := b.properties ++ [change] }

/-- Whether nothing is noted. -/
def isEmpty (b : RoleBook) : Bool :=
  b.roles.isEmpty && b.properties.isEmpty

end RoleBook

end ChainIndex
