import ChainIndex.Proofs.Call.Alignment
import ChainIndex.Proofs.Call.Transfers
import ChainIndex.Proofs.Token.Resolve

/-!
# Which item is held

An owner who freezes, unfreezes or wipes an item names it by its collection with the bytes of its
nonce right behind. Nothing parts the two: the six characters at the end of a collection and the
bytes of a nonce may all be dashes. But the ticker in front has none, so the collection ends six
characters behind the first dash, and a hold is read as one on the item that was named. What is read
tells the collection and the nonce (`CallReader.read_itemHold`).

The argument is taken apart from the front, and the identifier that is shown can be taken apart in
the same way, which is what makes it tell its parts: the first dash ends the ticker, the next six
characters are the random ones, and what is left is empty or a dash and a nonce. From behind this
would not do, since a nonce of zero adds no dash, and the last dash may be a random character.
-/

namespace ChainIndex

/-- A collection as the network names it: a ticker without a dash, a dash, and six characters that
are drawn at random. -/
structure IssuedCollection where
  ticker : String
  random : String
  isAscii_ticker : isAsciiText ticker = true
  dash_not_mem_ticker : '-' ∉ ticker.toList
  isAscii_random : isAsciiText random = true
  size_random : random.utf8ByteSize = 6

/-- The name of a collection. -/
def IssuedCollection.name (c : IssuedCollection) : String :=
  c.ticker ++ "-" ++ c.random

/-- An owner's hold on an item of a collection. -/
structure ItemHold where
  function : String
  function_mem : function ∈ blockingNames
  collection : IssuedCollection
  nonce : UInt64

namespace ItemHold

/-- The call by which an item is held. Its only argument is the name of the collection and the bytes
of the nonce, as few as it needs. -/
def call (h : ItemHold) : Call :=
  ⟨h.function, [Utf8.encode h.collection.name ++ Bytes.ofNat h.nonce.toNat]⟩

/-- The identifier of the item. -/
def token (h : ItemHold) : String :=
  tokenIdentifier h.collection.name h.nonce

end ItemHold

/-! ### Where the collection ends -/

namespace IssuedCollection

theorem toList_name (c : IssuedCollection) :
    c.name.toList = c.ticker.toList ++ '-' :: c.random.toList := by
  have hdash : "-".toList = ['-'] := by decide
  simp [name, String.toList_append, hdash]

theorem isAsciiText_name (c : IssuedCollection) : isAsciiText c.name = true := by
  have hdash : isAsciiText "-" = true := by decide
  simp [name, isAsciiText_append, c.isAscii_ticker, hdash, c.isAscii_random]

theorem encode_name (c : IssuedCollection) :
    Utf8.encode c.name = Utf8.encode c.ticker ++ 0x2D :: Utf8.encode c.random := by
  have hdash : Utf8.encodeChar '-' = [0x2D] := by decide
  rw [Utf8.encode, toList_name, Utf8.encodeChars_append, Utf8.encodeChars_cons, hdash]
  rfl

theorem length_encode_random (c : IssuedCollection) : (Utf8.encode c.random).length = 6 := by
  rw [Utf8.length_encode, c.size_random]

theorem length_random (c : IssuedCollection) : c.random.toList.length = 6 := by
  have hascii := isAsciiText_eq_true_iff.mp c.isAscii_random
  rw [← c.length_encode_random, Utf8.encode, Utf8.encodeChars_of_ascii hascii, List.length_map]

/-- The first dash is the one behind the ticker. -/
theorem ne_dash_of_mem_ticker (c : IssuedCollection) :
    ∀ b ∈ Utf8.encode c.ticker, (b != 0x2D) = true := by
  intro b hb
  rw [bne_iff_ne]
  intro hdash
  rw [hdash] at hb
  exact c.dash_not_mem_ticker (Utf8.ofNat_mem_of_mem_encodeChars (by decide) hb)

/-- Whatever bytes stand behind the name of a collection, they are taken for a nonce. -/
theorem splitRawIdentifier_name (c : IssuedCollection) (bs : Bytes) :
    splitRawIdentifier (Utf8.encode c.name ++ bs) = (c.name, Bytes.toUInt64 bs) := by
  have harg : Utf8.encode c.name ++ bs =
      Utf8.encode c.ticker ++ 0x2D :: (Utf8.encode c.random ++ bs) := by
    rw [encode_name, List.append_assoc, List.cons_append]
  have hticker : (Utf8.encode c.name ++ bs).takeWhile (· != 0x2D) = Utf8.encode c.ticker := by
    rw [harg, List.takeWhile_append_of_pos c.ne_dash_of_mem_ticker]
    simp
  have hrest : ((Utf8.encode c.name ++ bs).dropWhile (· != 0x2D)).drop 1 =
      Utf8.encode c.random ++ bs := by
    rw [harg, List.dropWhile_append_of_pos c.ne_dash_of_mem_ticker]
    simp
  have hlength := c.length_encode_random
  rw [splitRawIdentifier, hticker, hrest]
  split
  · next hshort =>
      -- nothing stands behind the name
      rw [List.length_append, hlength] at hshort
      have hbs : bs = [] := List.length_eq_zero_iff.mp (by omega)
      rw [hbs, List.append_nil, Utf8.lenient_encode]
      rfl
  · rw [List.take_left' hlength, List.drop_left' hlength, Utf8.lenient_encode,
      Utf8.lenient_encode, name]

end IssuedCollection

/-! ### What an identifier tells -/

/-- Where texts without a dash stand in front of the first dash, both sides of it can be told. -/
theorem eq_of_append_first_dash {xs ys ts us : List Char} (hx : '-' ∉ xs) (hy : '-' ∉ ys)
    (h : xs ++ '-' :: ts = ys ++ '-' :: us) : xs = ys ∧ ts = us := by
  have hreverse : ts.reverse ++ '-' :: xs.reverse = us.reverse ++ '-' :: ys.reverse := by
    simpa using congrArg List.reverse h
  have hsides := eq_of_append_dash (by simpa using hx) (by simpa using hy) hreverse
  exact ⟨List.reverse_injective hsides.2, List.reverse_injective hsides.1⟩

/-- What the identifier of an item adds to the name of its collection. -/
def itemEnding (nonce : UInt64) : List Char :=
  if nonce = 0 then [] else '-' :: (Hex.encode (Bytes.ofNat nonce.toNat)).toList

theorem toList_tokenIdentifier_eq_append (collection : String) (nonce : UInt64) :
    (tokenIdentifier collection nonce).toList = collection.toList ++ itemEnding nonce := by
  unfold itemEnding
  split
  · next h => rw [tokenIdentifier, if_pos h, List.append_nil]
  · next h => exact toList_tokenIdentifier h collection

theorem itemEnding_injective {nonce nonce' : UInt64} (h : itemEnding nonce = itemEnding nonce') :
    nonce = nonce' := by
  unfold itemEnding at h
  split at h
  · split at h
    · next hzero hzero' => rw [hzero, hzero']
    · cases h
  · split at h
    · cases h
    · have hbytes := Hex.encode_injective (String.toList_inj.mp (List.cons.inj h).2)
      exact UInt64.toNat.inj (ofNat_injective hbytes)

/-- The identifier of an item tells the collection and the nonce. -/
theorem IssuedCollection.eq_of_tokenIdentifier_eq {c c' : IssuedCollection} {nonce nonce' : UInt64}
    (h : tokenIdentifier c.name nonce = tokenIdentifier c'.name nonce') :
    c = c' ∧ nonce = nonce' := by
  have hchars := congrArg String.toList h
  rw [toList_tokenIdentifier_eq_append, toList_tokenIdentifier_eq_append, toList_name, toList_name,
    List.append_assoc, List.append_assoc, List.cons_append, List.cons_append] at hchars
  obtain ⟨hticker, hrest⟩ :=
    eq_of_append_first_dash c.dash_not_mem_ticker c'.dash_not_mem_ticker hchars
  obtain ⟨hrandom, hending⟩ :=
    List.append_inj hrest (c.length_random.trans c'.length_random.symm)
  refine ⟨?_, itemEnding_injective hending⟩
  cases c
  cases c'
  rw [mk.injEq]
  exact ⟨String.toList_inj.mp hticker, String.toList_inj.mp hrandom⟩

/-! ### Main result -/

namespace CallReader

/-- A hold on an item says the function and the identifier of the item, and nothing else. -/
theorem readBlocking_itemHold (h : ItemHold) :
    readBlocking h.call = { operation := h.function, tokens := [h.token] } := by
  rw [readBlocking, ItemHold.call]
  dsimp only
  rw [h.collection.splitRawIdentifier_name, Bytes.toUInt64_ofNat,
    if_pos h.collection.isAsciiText_name]
  rfl

/-- The six characters count as six bytes, being ASCII, so the reader cuts where the name ends. -/
theorem read_of_itemHold (r : CallReader) {receiver : Bytes}
    (hreceiver : r.addresses.isNobody receiver = false) (sender : Bytes) (h : ItemHold) :
    r.read h.call.toData sender receiver = { operation := h.function, tokens := [h.token] } := by
  have hnames : ∀ name ∈ blockingNames, Call.IsName name := by decide
  have hcalls : r.Calls h.call.toData receiver h.call :=
    .of_toData rfl (hnames _ h.function_mem) hreceiver
  have hkind : CallKind.ofName h.call.function = .blocking :=
    CallKind.ofName_eq_blocking_iff.mpr h.function_mem
  rw [read, readWith_of_blocking hcalls hkind, readBlocking_itemHold]

/-- A hold on an item is read as one on that item, and holds on different items are read as holds on
different tokens, whoever reads them. -/
theorem read_itemHold (r : CallReader) {receiver : Bytes}
    (hreceiver : r.addresses.isNobody receiver = false) (sender : Bytes) (h : ItemHold) :
    r.read h.call.toData sender receiver = { operation := h.function, tokens := [h.token] } ∧
      ∀ (r' : CallReader) (sender' receiver' : Bytes) (h' : ItemHold),
        r'.addresses.isNobody receiver' = false →
        (r'.read h'.call.toData sender' receiver').tokens =
          (r.read h.call.toData sender receiver).tokens →
        h'.collection = h.collection ∧ h'.nonce = h.nonce := by
  refine ⟨r.read_of_itemHold hreceiver sender h, ?_⟩
  intro r' sender' receiver' h' hreceiver' htokens
  rw [r'.read_of_itemHold hreceiver' sender' h', r.read_of_itemHold hreceiver sender h] at htokens
  exact IssuedCollection.eq_of_tokenIdentifier_eq (List.cons.inj htokens).1

/-- Items of a collection with dashes among its random characters. The nonce of the first is the
number that a dash stands for. -/
theorem read_itemHold_of_dashes :
    let r : CallReader := ⟨⟨.hex, "", 1, by decide⟩, ⟨1, by decide⟩⟩
    let c : IssuedCollection :=
      ⟨"NFT", "a-b---", by decide, by decide, by decide, by decide⟩
    let item : ItemHold := ⟨"ESDTFreeze", by decide, c, 0x2D⟩
    let other : ItemHold := ⟨"ESDTWipe", by decide, c, 0x2D2D⟩
    r.addresses.isNobody [2] = false ∧
      r.read item.call.toData [1] [2] =
        { operation := "ESDTFreeze", tokens := ["NFT-a-b----2d"] } ∧
      (r.read other.call.toData [1] [2]).tokens ≠ (r.read item.call.toData [1] [2]).tokens := by
  intro r c item other
  have hreceiver : r.addresses.isNobody [2] = false := by decide
  have htoken : item.token = "NFT-a-b----2d" := by decide +kernel
  obtain ⟨hread, happart⟩ := read_itemHold r hreceiver [1] item
  refine ⟨hreceiver, by rw [hread, htoken], fun htokens => ?_⟩
  exact absurd (happart r [1] [2] other hreceiver htokens).2 (by decide)

end CallReader

end ChainIndex
