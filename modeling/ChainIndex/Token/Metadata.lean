import ChainIndex.Block
import ChainIndex.Table
import ChainIndex.Text.Lowercase
import ChainIndex.Text.Utf8

/-!
# The metadata of items

An item of a collection is created with a name, a creator, links and attributes. Attributes are
segments between semicolons, each a key and a colon in front of values between commas; the first
segment with a key is the one that counts. Two keys are known: tags, which are shown in lower case,
and the link to further metadata.
-/

namespace ChainIndex

/-- The values that a segment of attributes lists for a key. What follows a second colon is not
read, and empty values do not count. -/
def segmentValues? (key : String) (segment : List Char) : Option (List String) :=
  match segment.splitOn ':' with
  | name :: values :: _ =>
    if name = key.toList then
      some (((values.splitOn ',').filter (!·.isEmpty)).map String.ofList)
    else none
  | _ => none

/-- The values of a key in attributes. -/
def attributeValues (key : String) (attributes : Bytes) : List String :=
  let segments := (Utf8.lenient attributes).toList.splitOn ';'
  (segments.findSome? (segmentValues? key)).getD []

/-- The tags in attributes. -/
def attributeTags (attributes : Bytes) : List String :=
  (attributeValues "tags" attributes).map Text.lowercase

/-- The link to further metadata in attributes, or the empty text. -/
def attributeLink (attributes : Bytes) : String :=
  match attributeValues "metadata" attributes with
  | [] => ""
  | link :: _ => Text.cutField link

/-- How a link into well-known distributed storage begins. -/
def storageFronts : List String :=
  ["https://ipfs.io/ipfs/", "ipfs://", "https://dweb.link/ipfs"]

/-- Whether a link leads into well-known distributed storage. -/
def isStorageLink (uri : Bytes) : Bool :=
  storageFronts.any (fun front => (Utf8.encode front).isPrefixOf uri)
    || (Bytes.hasPart (Utf8.encode ".pinata.cloud/ipfs") uri
      && (Utf8.encode "https://").isPrefixOf uri)

/-- The metadata of an item as the index shows it. -/
structure TokenMetadata where
  name : String := ""
  creator : String := ""
  royalties : UInt32 := 0
  hash : Bytes := []
  uris : List Bytes := []
  tags : List String := []
  attributes : Bytes := []
  link : String := ""
  hasUris : Bool := false
  isStored : Bool := false
deriving Repr, DecidableEq, Inhabited

/-- The metadata that a node reports, as the index shows it. Whether the item is stored well is
told by its first link. -/
def TokenMetadata.ofRaw (raw : RawMetadata) : TokenMetadata :=
  { name := raw.name
    creator := raw.creator
    royalties := raw.royalties
    hash := raw.hash
    uris := raw.uris
    tags := attributeTags raw.attributes
    attributes := raw.attributes
    link := attributeLink raw.attributes
    hasUris := raw.uris.any (!·.isEmpty)
    isStored := match raw.uris with
      | [] => false
      | uri :: _ => isStorageLink uri }

/-! ### Counts of tags

How many items have been created with each tag. An item counts once for a tag however often it
repeats it, and the empty tag does not count. -/

/-- The number of items by tag. -/
abbrev TagCounts := Table Nat

namespace TagCounts

/-- The distinct tags of an item. -/
def distinctTags (tags : List String) : List String :=
  (tags.filter (!·.isEmpty)).eraseDups

/-- Counts one more item with a tag. -/
def increment (counts : TagCounts) (tag : String) : TagCounts :=
  counts.alter tag fun n => n.getD 0 + 1

/-- Counts an item with its tags. -/
def addItem (counts : TagCounts) (tags : List String) : TagCounts :=
  (distinctTags tags).foldl increment counts

end TagCounts

end ChainIndex
