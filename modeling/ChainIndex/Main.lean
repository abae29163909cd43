import ChainIndex.Config.Environment
import ChainIndex.Indexer
import ChainIndex.Search.Format

/-!
# Command line

Reads blocks from the JSON files that are named as arguments and prints their documents, one to a
line. The settings come from the environment. The first error ends the run.
-/

namespace ChainIndex

/-- The values that the variables of the settings have. -/
def environment : IO (String → Option String) := do
  let values ← Config.variableNames.mapM fun name => return (name, ← IO.getEnv name)
  return fun name => (values.lookup name).join

/-- The documents of a block given as text in bytes. -/
def Indexer.processBytes (x : Indexer) (bytes : Bytes) : Except Error (List Document) := do
  match (Json.ofBytes? bytes).bind Block.ofJson? with
  | none => .error (.serialization "not a block")
  | some block => (x.process .empty block).result

/-- Indexes the blocks in files and prints their documents. -/
def runFiles (paths : List String) : IO (Except Error Unit) := do
  match Config.ofEnvironment (← environment) >>= Indexer.ofConfig with
  | .error e => return .error e
  | .ok indexer =>
    for path in paths do
      let bytes ← IO.FS.readBinFile path
      match indexer.processBytes bytes.toList with
      | .error e => return .error e
      | .ok documents =>
        for document in documents do
          IO.println document.line
    return .ok ()

end ChainIndex

/-- Indexes the blocks in the files that are named as arguments. -/
def main (args : List String) : IO UInt32 := do
  match ← ChainIndex.runFiles args with
  | .ok () => return 0
  | .error e =>
    IO.eprintln e.display
    return 1
