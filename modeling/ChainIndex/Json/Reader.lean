import ChainIndex.Json.Token

/-!
# Reading JSON text

The reader takes the tokens one by one. Containers part way through are frames on a stack, so
depth is limited by nothing but the text, and every token is looked at once.
-/

namespace ChainIndex.Json

/-- A container part way through: what is in it so far, latest first. An object also has the name
that the next value goes with. -/
inductive Frame where
  | elements (done : List Json)
  | members (done : List (Option String × Json)) (name : Option String)
deriving Inhabited

/-- What the next token may be. -/
inductive Expected where
  /-- A value. -/
  | value
  /-- The first element or member, or the end of a container just opened. -/
  | first
  /-- The name of a further member. -/
  | name
  /-- The colon after a name. -/
  | colon
  /-- After a whole value: a comma, the end of the container, or nothing more. -/
  | after (v : Json)
deriving Inhabited

/-- The reader between two tokens. -/
structure Reader where
  frames : List Frame
  expected : Expected
deriving Inhabited

/-- The value of quoted text. -/
def ofText : Option String → Json
  | some s => .string s
  | none => .foreign

/-- The object of members, foreign if one of its names is not Unicode. -/
def ofMembers (ms : List (Option String × Json)) : Json :=
  match ms.mapM fun m => m.1.map fun name => (name, m.2) with
  | some members => .object members
  | none => .foreign

/-- The reader after the first token of a value. -/
def beginValue (frames : List Frame) : Token → Option Reader
  | .scalar v => some ⟨frames, .after v⟩
  | .text s => some ⟨frames, .after (ofText s)⟩
  | .openBracket => some ⟨.elements [] :: frames, .first⟩
  | .openBrace => some ⟨.members [] none :: frames, .first⟩
  | _ => none

/-- The reader after one more token. -/
def Reader.step (r : Reader) (t : Token) : Option Reader :=
  match r.expected, r.frames, t with
  | .value, frames, t => beginValue frames t
  | .first, .elements _ :: frames, .closeBracket => some ⟨frames, .after (.array [])⟩
  | .first, .elements done :: frames, t => beginValue (.elements done :: frames) t
  | .first, .members _ _ :: frames, .closeBrace => some ⟨frames, .after (.object [])⟩
  | .first, .members done _ :: frames, .text s => some ⟨.members done s :: frames, .colon⟩
  | .name, .members done _ :: frames, .text s => some ⟨.members done s :: frames, .colon⟩
  | .colon, frames, .colon => some ⟨frames, .value⟩
  | .after v, .elements done :: frames, .comma => some ⟨.elements (v :: done) :: frames, .value⟩
  | .after v, .elements done :: frames, .closeBracket =>
    some ⟨frames, .after (.array (v :: done).reverse)⟩
  | .after v, .members done s :: frames, .comma =>
    some ⟨.members ((s, v) :: done) none :: frames, .name⟩
  | .after v, .members done s :: frames, .closeBrace =>
    some ⟨frames, .after (ofMembers ((s, v) :: done).reverse)⟩
  | _, _, _ => none

/-- The whole value that has been read, if nothing is left open. -/
def Reader.result? : Reader → Option Json
  | ⟨[], .after v⟩ => some v
  | _ => none

/-- The value of JSON text given as bytes. -/
def ofBytes? (bs : Bytes) : Option Json :=
  (tokens? bs).bind fun ts => (ts.foldlM Reader.step ⟨[], .value⟩).bind Reader.result?

/-- The value of JSON text. -/
def ofString? (s : String) : Option Json :=
  ofBytes? (Utf8.encode s)

end ChainIndex.Json
