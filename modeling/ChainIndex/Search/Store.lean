import ChainIndex.Error
import ChainIndex.Token.Registry

/-!
# The token store

Blocks do not tell the type and the owner of a token that an earlier block has issued; what is
stored already does. The store may fail, and then there is no answer for the block. Every request is
noted, also one that fails.
-/

namespace ChainIndex

/-- Looks identifiers up in an index. -/
abbrev TokenStore := (ids : List String) → (index : String) → Except Error (List StoredToken)

/-- The store of an empty index. -/
def TokenStore.empty : TokenStore :=
  fun _ _ => .ok []

/-- A request to the store. -/
structure StoreCall where
  ids : List String
  index : String
deriving Repr, DecidableEq, Inhabited

/-- What comes of asking the store: the requests made, and a value or the error of the last one. -/
structure Consultation (α : Type) where
  calls : List StoreCall
  result : Except Error α

namespace Consultation

variable {α β : Type}

/-- A value without any request. -/
def of (a : α) : Consultation α :=
  ⟨[], .ok a⟩

/-- What comes of asking on, which a failure prevents. -/
def andThen (c : Consultation α) (next : α → Consultation β) : Consultation β :=
  match c.result with
  | .error e => ⟨c.calls, .error e⟩
  | .ok a => ⟨c.calls ++ (next a).calls, (next a).result⟩

end Consultation

instance : Monad Consultation where
  pure := Consultation.of
  bind := Consultation.andThen

/-- A registry with the types and owners that the store has for its collections. A registry without
tokens asks nothing. -/
def TokenStore.resolve (store : TokenStore) (index : String) (r : Registry) :
    Consultation Registry :=
  if r.isEmpty then .of r
  else ⟨[⟨r.collections, index⟩], (store r.collections index).map r.resolve⟩

end ChainIndex
