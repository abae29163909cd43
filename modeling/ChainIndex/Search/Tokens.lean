import ChainIndex.Search.Document
import ChainIndex.Text.Utf8
import ChainIndex.Token.Format
import ChainIndex.Token.Metadata

/-!
# Documents of tokens

Collections are stored under their names and items under their identifiers. An item that is burnt
or wiped is deleted if it is the only one of its kind.
-/

namespace ChainIndex

/-- The documents of created items. -/
def createdDocuments (index : String) (created : Registry) : List Document :=
  created.shownItems.map fun t => .put index t.identifier t.toJson

/-- The document of a token that is issued, or that changes its owner or its type. -/
def TokenRecord.issueDocument (index : String) (t : TokenRecord) : Document :=
  if t.transfersOwnership then
    .update index t.collection (.transferOwnership (t.owners.headD {}) t.currentOwner) t.toJson
  else if t.becomesDynamic then
    .script index t.collection (.becomeDynamic t.type t.timestamp)
  else .update index t.collection .replaceKeepingRoles t.toJson

/-- Whether a change concerns items themselves; freezing is about what one holder has. -/
def ItemChange.isOfItem : ItemChange → Bool
  | freeze _ => false
  | _ => true

/-- The documents about changes of items. -/
def itemDocuments (index : String) (updates : List ItemUpdate) : List Document :=
  (updates.filter (·.change.isOfItem)).map fun u =>
    .script index u.identifier (.changeItem u.change)

/-- The documents of tokens, and those about changes of items. -/
def tokenDocuments (index : String) (issued : List TokenRecord) (updates : List ItemUpdate) :
    List Document :=
  issued.map (·.issueDocument index) ++ itemDocuments index updates

/-- The documents of items that exist no more. -/
def removalDocuments (index : String) (removed : Registry) : List Document :=
  (removed.entries.filter fun t => TokenType.isNonFungible t.type).map fun t =>
    .delete index t.identifier

/-- The document about a change of a role. -/
def RoleChange.document (index role : String) (c : RoleChange) : Document :=
  let script := UpdateScript.setRole role c.address c.granted
  if c.granted then
    .update index c.token script
      (.object [("roles", .object [(role, .strings [c.address])])])
  else .script index c.token script

/-- The documents about roles and properties. -/
def roleDocuments (index : String) (b : RoleBook) : List Document :=
  (b.roles.entries.flatMap fun e => e.2.map (·.document index e.1))
  ++ b.properties.map fun p => .script index p.token (.setProperties p.properties)

/-- What a tag is stored under: base64 text of its front part. -/
def tagId (tag : String) : String :=
  Base64.encode (Utf8.encode (Text.cut Text.maxIdBytes tag))

/-- The documents about tags. -/
def tagDocuments (index : String) (tags : TagCounts) : List Document :=
  tags.entries.map fun e =>
    .update index (tagId e.1) (.incrementTag e.2) (.object [("count", .nat e.2)])

end ChainIndex
