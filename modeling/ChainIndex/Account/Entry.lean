import ChainIndex.Block

/-!
# What has changed of which account

The accounts of a block in the order of their addresses: those whose balance is shown, and every
token that an account holds. An account that has only received something else, so that its balance
is neither empty nor zero and has not changed, is shown already.
-/

namespace ChainIndex

/-- An account whose balance is shown. -/
structure AccountEntry where
  account : AlteredAccount
  isSender : Bool
deriving Repr, DecidableEq, Inhabited

/-- A token that an account holds or has held. -/
structure HoldingEntry where
  account : AlteredAccount
  collection : String
  nonce : UInt64
  isSender : Bool
  isCreated : Bool
deriving Repr, DecidableEq, Inhabited

/-- The accounts of a block in the order of their addresses. -/
def orderedAccounts (accounts : Dict AlteredAccount) : List AlteredAccount :=
  accounts.values.mergeSort fun a b => decide (a.address ≤ b.address)

namespace AlteredAccount

/-- Whether the account has sent something. -/
def isSender (a : AlteredAccount) : Bool :=
  match a.details with
  | some d => d.isSender
  | none => false

/-- Whether the balance of the account has changed. -/
def balanceChanged (a : AlteredAccount) : Bool :=
  match a.details with
  | some d => d.balanceChanged
  | none => false

/-- Whether a block leaves the account as it is shown already. -/
def isUntouched (a : AlteredAccount) : Bool :=
  !a.balanceChanged && !a.isSender && !a.balance.isEmpty && a.balance != "0"

/-- The tokens that an account holds or has held. -/
def holdingEntries (a : AlteredAccount) : List HoldingEntry :=
  a.tokens.map fun h =>
    { account := a
      collection := h.identifier
      nonce := h.nonce
      isSender := a.isSender
      isCreated := match h.details with
        | some d => d.isCreated
        | none => false }

end AlteredAccount

/-- The accounts whose balance is shown. -/
def accountEntries (accounts : Dict AlteredAccount) : List AccountEntry :=
  ((orderedAccounts accounts).filter (!·.isUntouched)).map fun a => ⟨a, a.isSender⟩

/-- The tokens that the accounts hold or have held. -/
def holdingEntries (accounts : Dict AlteredAccount) : List HoldingEntry :=
  (orderedAccounts accounts).flatMap (·.holdingEntries)

end ChainIndex
