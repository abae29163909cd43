import ChainIndex.Json.Reader
import ChainIndex.Proofs.Json.Tokens

/-!
# Written text tells the value

The text of a value splits into the tokens of the value (`Json.IsExact.tokenizes`), and the reader
puts the value together from these tokens again (`Json.IsExact.assembles`). So the text that is
written for a value is read as that value (`Json.ofString?_render`), unless a computed amount or
something foreign is in it.

Both halves are inductions over the value, by way of the tokens that it should have. The first one
cannot be about the text of the value alone, since a number is only known to be over when something
else begins; so `Tokenizes` takes in whatever stands behind the text. The second one starts in the
middle of containers that are not closed yet; so `Assembles` takes in any stack of them, and says
that the stack is left as it was.
-/

namespace ChainIndex.Json

/-- Nothing in a value is a computed amount or foreign. -/
inductive IsExact : Json → Prop where
  | null : IsExact .null
  | bool (b : Bool) : IsExact (.bool b)
  | int (n : Int) : IsExact (.int n)
  | string (s : String) : IsExact (.string s)
  | array {vs : List Json} (h : ∀ v ∈ vs, IsExact v) : IsExact (.array vs)
  | object {ms : List (String × Json)} (h : ∀ m ∈ ms, IsExact m.2) : IsExact (.object ms)

mutual

/-- The tokens of a value. -/
def tokensOf : Json → List Token
  | .string s => [.text (some s)]
  | .array [] => [.openBracket, .closeBracket]
  | .array (v :: vs) => .openBracket :: (tokensOf v ++ tokensOfElements vs)
  | .object [] => [.openBrace, .closeBrace]
  | .object ((name, v) :: ms) =>
    .openBrace :: .text (some name) :: .colon :: (tokensOf v ++ tokensOfMembers ms)
  | v => [.scalar v]

/-- The tokens of further elements and the end of the array. -/
def tokensOfElements : List Json → List Token
  | [] => [.closeBracket]
  | v :: vs => .comma :: (tokensOf v ++ tokensOfElements vs)

/-- The tokens of further members and the end of the object. -/
def tokensOfMembers : List (String × Json) → List Token
  | [] => [.closeBrace]
  | (name, v) :: ms =>
    .comma :: .text (some name) :: .colon :: (tokensOf v ++ tokensOfMembers ms)

end

/-! ### From text to tokens -/

/-- The character of a token that is a sign. -/
def Token.sign? : Token → Option Char
  | .openBrace => some '\x7b'
  | .closeBrace => some '\x7d'
  | .openBracket => some '['
  | .closeBracket => some ']'
  | .comma => some ','
  | .colon => some ':'
  | .scalar _ | .text _ => none

theorem tokensAfter_sign {t : Token} {c : Char} (h : t.sign? = some c) (cs : List Char)
    (rest : Bytes) : tokensAfter [] (Utf8.encodeChars (c :: cs) ++ rest) =
      (tokensAfter [] (Utf8.encodeChars cs ++ rest)).map (t :: ·) := by
  cases t <;> cases h <;> rfl

/-- The text of a value gives the tokens of the value wherever no word goes on behind it. -/
def Tokenizes (v : Json) : Prop :=
  ∀ rest, EndsWord rest → tokensAfter [] (Utf8.encodeChars (renderChars v) ++ rest) =
    (tokensAfter [] rest).map (tokensOf v ++ ·)

theorem endsWord_sign {c : Char} (h : isWordByte (UInt8.ofNat c.toNat) = false)
    (hascii : c.toNat < 0x80) (cs : List Char) (rest : Bytes) :
    EndsWord (Utf8.encodeChars (c :: cs) ++ rest) := by
  rw [Utf8.encodeChars_cons, Utf8.encodeChar_of_ascii hascii]
  rintro b ⟨⟩
  exact h

theorem endsWord_renderElements (vs : List Json) (rest : Bytes) :
    EndsWord (Utf8.encodeChars (renderElements vs) ++ rest) := by
  cases vs with
  | nil => exact endsWord_sign (c := ']') (by decide) (by decide) _ rest
  | cons v vs => exact endsWord_sign (c := ',') (by decide) (by decide) _ rest

theorem endsWord_renderMembers (ms : List (String × Json)) (rest : Bytes) :
    EndsWord (Utf8.encodeChars (renderMembers ms) ++ rest) := by
  cases ms with
  | nil => exact endsWord_sign (c := '\x7d') (by decide) (by decide) _ rest
  | cons m ms => exact endsWord_sign (c := ',') (by decide) (by decide) _ rest

theorem tokensAfter_renderElements {vs : List Json} (h : ∀ v ∈ vs, Tokenizes v) (rest : Bytes) :
    tokensAfter [] (Utf8.encodeChars (renderElements vs) ++ rest) =
      (tokensAfter [] rest).map (tokensOfElements vs ++ ·) := by
  induction vs with
  | nil => exact tokensAfter_sign (t := .closeBracket) rfl [] rest
  | cons v vs ih =>
      rw [List.forall_mem_cons] at h
      rw [renderElements, List.cons_append, tokensAfter_sign (t := .comma) rfl,
        Utf8.encodeChars_append, List.append_assoc, h.1 _ (endsWord_renderElements vs rest), ih h.2,
        Option.map_map, Option.map_map, tokensOfElements]
      simp only [Function.comp_def, List.cons_append, List.append_assoc]

/-- The tokens of one member, with what stands behind its value. -/
theorem tokensAfter_member (name : String) {v : Json} (h : Tokenizes v) {cs : List Char}
    {ts : List Token} {rest : Bytes} (hends : EndsWord (Utf8.encodeChars cs ++ rest))
    (hcs : tokensAfter [] (Utf8.encodeChars cs ++ rest) = (tokensAfter [] rest).map (ts ++ ·)) :
    tokensAfter [] (Utf8.encodeChars (quote name ++ ':' :: renderChars v ++ cs) ++ rest) =
      (tokensAfter [] rest).map (.text (some name) :: .colon :: (tokensOf v ++ ts) ++ ·) := by
  rw [List.append_assoc, Utf8.encodeChars_append, List.append_assoc, tokensAfter_quote,
    List.cons_append, tokensAfter_sign (t := .colon) rfl, Utf8.encodeChars_append,
    List.append_assoc, h _ hends, hcs, Option.map_map, Option.map_map, Option.map_map]
  simp only [Function.comp_def, List.cons_append, List.append_assoc]

theorem tokensAfter_renderMembers {ms : List (String × Json)} (h : ∀ m ∈ ms, Tokenizes m.2)
    (rest : Bytes) : tokensAfter [] (Utf8.encodeChars (renderMembers ms) ++ rest) =
      (tokensAfter [] rest).map (tokensOfMembers ms ++ ·) := by
  induction ms with
  | nil => exact tokensAfter_sign (t := .closeBrace) rfl [] rest
  | cons m ms ih =>
      obtain ⟨name, v⟩ := m
      rw [List.forall_mem_cons] at h
      rw [renderMembers, List.cons_append, List.cons_append, tokensAfter_sign (t := .comma) rfl,
        tokensAfter_member name h.1 (endsWord_renderMembers ms rest) (ih h.2), Option.map_map]
      rfl

/-- The text of a value splits into the tokens of the value. -/
theorem IsExact.tokenizes {v : Json} (h : IsExact v) : Tokenizes v := by
  -- a word must be told from what follows; text and containers end with a sign of their own
  induction h with
  | null =>
      intro rest hrest
      rw [renderChars]
      exact tokensAfter_word "null".toList (by decide) (by decide) rfl hrest
  | bool b =>
      intro rest hrest
      cases b with
      | true =>
          rw [renderChars]
          exact tokensAfter_word "true".toList (by decide) (by decide) rfl hrest
      | false =>
          rw [renderChars]
          exact tokensAfter_word "false".toList (by decide) (by decide) rfl hrest
  | int n =>
      intro rest hrest
      have hwords : ((Digits.ofInt n).toList.all fun c => decide (IsWordChar c)) = true :=
        List.all_eq_true.mpr fun c hc => decide_eq_true (isWordChar_of_mem_ofInt hc)
      exact tokensAfter_word _ (toList_ofInt_ne_nil n) hwords (scalar?_ofInt n) hrest
  | string s => exact fun rest _ => tokensAfter_quote s rest
  | @array vs _ ih =>
      intro rest hrest
      cases vs with
      | nil =>
          rw [renderChars, tokensAfter_sign (t := .openBracket) rfl,
            tokensAfter_sign (t := .closeBracket) rfl, Option.map_map]
          rfl
      | cons v vs =>
          rw [List.forall_mem_cons] at ih
          rw [renderChars, List.cons_append, tokensAfter_sign (t := .openBracket) rfl,
            Utf8.encodeChars_append, List.append_assoc, ih.1 _ (endsWord_renderElements vs rest),
            tokensAfter_renderElements ih.2, Option.map_map, Option.map_map, tokensOf]
          simp only [Function.comp_def, List.cons_append, List.append_assoc]
  | @object ms _ ih =>
      intro rest hrest
      cases ms with
      | nil =>
          rw [renderChars, tokensAfter_sign (t := .openBrace) rfl,
            tokensAfter_sign (t := .closeBrace) rfl, Option.map_map]
          rfl
      | cons m ms =>
          obtain ⟨name, v⟩ := m
          rw [List.forall_mem_cons] at ih
          rw [renderChars, List.cons_append, List.cons_append,
            tokensAfter_sign (t := .openBrace) rfl,
            tokensAfter_member name ih.1 (endsWord_renderMembers ms rest)
              (tokensAfter_renderMembers ih.2 rest), Option.map_map]
          rfl

/-! ### From tokens to the value

A container is read from left to right, and what it holds so far lies on the stack in reverse. So
the lemma about further elements is about an array part way through, with some elements done. -/

/-- The reader takes the tokens of a value for that value. -/
def Assembles (v : Json) : Prop :=
  ∀ frames, (tokensOf v).foldlM Reader.step ⟨frames, .value⟩ = some ⟨frames, .after v⟩

/-- No value begins with the end of an array. -/
theorem tokensOf_eq_cons (v : Json) : ∃ t ts, tokensOf v = t :: ts ∧ t ≠ .closeBracket := by
  unfold tokensOf
  split
  all_goals exact ⟨_, _, rfl, Token.noConfusion⟩

/-- The first element of an array is read like any other one. -/
theorem Assembles.first {v : Json} (h : Assembles v) (done : List Json) (frames : List Frame) :
    (tokensOf v).foldlM Reader.step ⟨.elements done :: frames, .first⟩ =
      some ⟨.elements done :: frames, .after v⟩ := by
  have hvalue := h (.elements done :: frames)
  obtain ⟨t, ts, hts, ht⟩ := tokensOf_eq_cons v
  have hstep : Reader.step ⟨.elements done :: frames, .first⟩ t =
      Reader.step ⟨.elements done :: frames, .value⟩ t := by
    cases t with
    | closeBracket => exact absurd rfl ht
    | openBrace | closeBrace | openBracket | comma | colon | scalar v | text s => rfl
  rw [hts, List.foldlM_cons] at hvalue ⊢
  rwa [hstep]

theorem foldlM_tokensOfElements {vs : List Json} (h : ∀ v ∈ vs, Assembles v) (done : List Json)
    (v : Json) (frames : List Frame) :
    (tokensOfElements vs).foldlM Reader.step ⟨.elements done :: frames, .after v⟩ =
      some ⟨frames, .after (.array (done.reverse ++ v :: vs))⟩ := by
  induction vs generalizing done v with
  | nil =>
      have hclose : Reader.step ⟨.elements done :: frames, .after v⟩ .closeBracket =
          some ⟨frames, .after (.array (v :: done).reverse)⟩ := rfl
      rw [tokensOfElements, List.foldlM_cons, hclose, List.reverse_cons]
      rfl
  | cons w vs ih =>
      rw [List.forall_mem_cons] at h
      have hcomma : Reader.step ⟨.elements done :: frames, .after v⟩ .comma =
          some ⟨.elements (v :: done) :: frames, .value⟩ := rfl
      rw [tokensOfElements, List.foldlM_cons, hcomma, Option.bind_eq_bind, Option.bind_some,
        List.foldlM_append, h.1, Option.bind_eq_bind, Option.bind_some, ih h.2, List.reverse_cons,
        List.append_assoc, List.singleton_append]

/-- Members whose names are Unicode. -/
def named (ms : List (String × Json)) : List (Option String × Json) :=
  ms.map fun m => (some m.1, m.2)

theorem reverse_named_append (ms : List (String × Json)) (name : String) (v : Json) :
    (named (ms ++ [(name, v)])).reverse = (some name, v) :: (named ms).reverse := by
  rw [named, named, List.map_append, List.reverse_append]
  rfl

theorem ofMembers_named (ms : List (String × Json)) : ofMembers (named ms) = .object ms := by
  have hnames : (named ms).mapM (fun m => m.1.map fun name => (name, m.2)) = some ms :=
    mapM_map_eq_some (fun m => (some m.1, m.2)) _ (fun _ => rfl) ms
  rw [ofMembers, hnames]

/-- What a reader does behind the name of a member. -/
theorem Assembles.member {v : Json} (h : Assembles v) (frames : List Frame) (ts : List Token) :
    (Token.colon :: (tokensOf v ++ ts)).foldlM Reader.step ⟨frames, .colon⟩ =
      ts.foldlM Reader.step ⟨frames, .after v⟩ := by
  have hcolon : Reader.step ⟨frames, .colon⟩ .colon = some ⟨frames, .value⟩ := by
    cases frames <;> rfl
  rw [List.foldlM_cons, hcolon, Option.bind_eq_bind, Option.bind_some, List.foldlM_append, h,
    Option.bind_eq_bind, Option.bind_some]

theorem foldlM_tokensOfMembers {ms : List (String × Json)} (h : ∀ m ∈ ms, Assembles m.2)
    (done : List (String × Json)) (name : String) (v : Json) (frames : List Frame) :
    (tokensOfMembers ms).foldlM Reader.step
      ⟨.members (named done).reverse (some name) :: frames, .after v⟩ =
      some ⟨frames, .after (.object (done ++ (name, v) :: ms))⟩ := by
  -- a member is put to the others only when the next one begins, so the last one is kept apart
  induction ms generalizing done name v with
  | nil =>
      have hclose : Reader.step ⟨.members (named done).reverse (some name) :: frames, .after v⟩
          .closeBrace = some ⟨frames, .after (ofMembers
            ((some name, v) :: (named done).reverse).reverse)⟩ := rfl
      rw [tokensOfMembers, List.foldlM_cons, hclose, ← reverse_named_append, List.reverse_reverse,
        ofMembers_named]
      rfl
  | cons m ms ih =>
      obtain ⟨name', w⟩ := m
      rw [List.forall_mem_cons] at h
      have hcomma : Reader.step ⟨.members (named done).reverse (some name) :: frames, .after v⟩
          .comma = some ⟨.members ((some name, v) :: (named done).reverse) none :: frames, .name⟩ :=
        rfl
      have hname : Reader.step ⟨.members ((some name, v) :: (named done).reverse) none :: frames,
          .name⟩ (.text (some name')) = some
            ⟨.members ((some name, v) :: (named done).reverse) (some name') :: frames, .colon⟩ :=
        rfl
      rw [tokensOfMembers, List.foldlM_cons, hcomma, Option.bind_eq_bind, Option.bind_some,
        List.foldlM_cons, hname, Option.bind_eq_bind, Option.bind_some, h.1.member,
        ← reverse_named_append, ih h.2 (done ++ [(name, v)]) name' w, List.append_assoc,
        List.singleton_append]

/-- The reader puts a value together from its tokens. -/
theorem IsExact.assembles {v : Json} (h : IsExact v) : Assembles v := by
  induction h with
  | null | bool b | int n | string s => exact fun _ => rfl
  | @array vs _ ih =>
      intro frames
      cases vs with
      | nil => rfl
      | cons v vs =>
          rw [List.forall_mem_cons] at ih
          have hopen : Reader.step ⟨frames, .value⟩ .openBracket =
              some ⟨.elements [] :: frames, .first⟩ := rfl
          rw [tokensOf, List.foldlM_cons, hopen, Option.bind_eq_bind, Option.bind_some,
            List.foldlM_append, ih.1.first, Option.bind_eq_bind, Option.bind_some,
            foldlM_tokensOfElements ih.2]
          rfl
  | @object ms _ ih =>
      intro frames
      cases ms with
      | nil => rfl
      | cons m ms =>
          obtain ⟨name, v⟩ := m
          rw [List.forall_mem_cons] at ih
          have hopen : Reader.step ⟨frames, .value⟩ .openBrace =
              some ⟨.members [] none :: frames, .first⟩ := rfl
          have hname : Reader.step ⟨.members [] none :: frames, .first⟩ (.text (some name)) =
              some ⟨.members [] (some name) :: frames, .colon⟩ := rfl
          rw [tokensOf, List.foldlM_cons, hopen, Option.bind_eq_bind, Option.bind_some,
            List.foldlM_cons, hname, Option.bind_eq_bind, Option.bind_some, ih.1.member]
          exact foldlM_tokensOfMembers ih.2 [] name v frames

/-- The text that is written for a value is read as that value. -/
theorem ofString?_render {v : Json} (h : IsExact v) : ofString? v.render = some v := by
  have htokens : tokens? (Utf8.encode v.render) = some (tokensOf v) := by
    have hchars := h.tokenizes [] (by rintro b ⟨⟩)
    rw [List.append_nil] at hchars
    rw [tokens?, Utf8.encode, render, String.toList_ofList, hchars]
    exact congrArg some (List.append_nil _)
  rw [ofString?, ofBytes?, htokens, Option.bind_some, h.assembles, Option.bind_some]
  rfl

end ChainIndex.Json
