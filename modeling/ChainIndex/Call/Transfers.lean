import ChainIndex.Call
import ChainIndex.Number.Digits

/-!
# Transfers in calls

A transfer of items is first sent by the owner to itself, with the destination among the
arguments, and is then delivered to the destination without that argument. Either way the
arguments give the tokens and may end in a function for the destination to run.
-/

namespace ChainIndex

/-- One token on its way. -/
structure TokenTransfer where
  token : Bytes
  nonce : UInt64
  value : String
deriving Repr, DecidableEq

/-- The tokens that a call transfers, where to, and the function to run there. -/
structure Transfers where
  destination : Bytes
  function : String
  items : List TokenTransfer
deriving Repr, DecidableEq

/-- The decimal text of the number that bytes hold. -/
def decimalOfBytes (bs : Bytes) : String :=
  Digits.ofNat (Bytes.toNat bs)

namespace TokenTransfer

/-- The transfer that a token, a nonce and a value describe. -/
def ofArgs (token nonce value : Bytes) : TokenTransfer :=
  ⟨token, Bytes.toUInt64 nonce, decimalOfBytes value⟩

/-- The transfers that arguments describe, three by three. -/
def listOfArgs : List Bytes → List TokenTransfer
  | token :: nonce :: value :: rest => ofArgs token nonce value :: listOfArgs rest
  | _ => []

end TokenTransfer

namespace Transfers

/-- The text of the argument that names a function, empty if it is missing. -/
def functionAt (args : List Bytes) (i : Nat) : String :=
  match args[i]? with
  | some function => Utf8.lenient function
  | none => ""

/-- The transfer of one item: token, nonce, value, the destination if the owner sends, and
perhaps a function. -/
def ofNftArgs? (args : List Bytes) (sender receiver : Bytes) : Option Transfers :=
  match args with
  | token :: nonce :: value :: rest =>
    let item := TokenTransfer.ofArgs token nonce value
    if sender = receiver then
      match rest with
      | [] => none
      | destination :: rest => some ⟨destination, functionAt rest 0, [item]⟩
    else some ⟨receiver, functionAt rest 0, [item]⟩
  | _ => none

/-- The transfers that a count and as many triples describe, and perhaps a function. -/
def ofCountedArgs? (destination : Bytes) : List Bytes → Option Transfers
  | [] => none
  | count :: args =>
    let n := (Bytes.toUInt64 count).toNat
    if n = 0 ∨ args.length < 3 * n then none
    else
      some ⟨destination, functionAt args (3 * n), TokenTransfer.listOfArgs (args.take (3 * n))⟩

/-- The transfer of any number of items: the destination if the owner sends, a count, triples of
token, nonce and value, and perhaps a function. -/
def ofMultiArgs? (args : List Bytes) (sender receiver : Bytes) : Option Transfers :=
  if sender = receiver then
    match args with
    | [] => none
    | destination :: args => ofCountedArgs? destination args
  else ofCountedArgs? receiver args

end Transfers

end ChainIndex
