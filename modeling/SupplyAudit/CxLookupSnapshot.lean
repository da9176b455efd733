import SupplyAudit.CrossShardSupply

/-!
# The destination lookup snapshot

`cx-lookup-snapshot` copies the canonical lookups up to a cutoff into a new
database, together with the hashes of the blocks they name. Batches only group
the writes and are left out; a Go map may be iterated in any order.
-/

namespace CxLookupSnapshot

open ByteWords NumeralText ReceiptKeys ChainDatabase CrossShardSupply

structure SnapshotSummary where
  sourceDB : String := ""
  outputDB : String := ""
  cutoffBlock : UInt64 := 0
  keysScanned : Nat := 0
  lookupEntries : Nat := 0
  afterCutoff : Nat := 0
  nonCanonical : Nat := 0
  exportedLookups : Nat := 0
  exportedBlockHashes : Nat := 0
  deriving DecidableEq

structure SnapshotFlags where
  sourcePath : String
  outputPath : String
  cutoff : UInt64

inductive SnapshotError where
  | usage
  | outputExists
  | decodeLookup (key : Bytes) (err : String)
  | conflict (number : UInt64)
  | iterate (err : String)
  deriving DecidableEq

def SnapshotError.text : SnapshotError → String
  | .usage => "usage"
  | .outputExists => "output path already exists or cannot be stated"
  | .decodeLookup key err => "decode lookup key " ++ hexText key ++ ": " ++ err
  | .conflict number =>
    "conflicting canonical hashes at block " ++ toString number.toNat
  | .iterate err => "iterate lookup entries: " ++ err

/-- The order in which a map's entries are visited. -/
structure MapOrder where
  visit : List (UInt64 × Hash) → List (UInt64 × Hash)
  perm : ∀ entries, (visit entries).Perm entries

structure SnapshotState where
  result : SnapshotSummary
  exportedBlocks : List (UInt64 × Hash) := []
  batch : List Record := []

/-- A map write: the entry replaces a previous one of the same block. -/
def setBlock (blocks : List (UInt64 × Hash)) (number : UInt64) (hash : Hash) :
    List (UInt64 × Hash) :=
  (number, hash) :: blocks.filter (fun b => b.1 ≠ number)

/-- The body of the loop over the records under the lookup prefix. -/
def scanLookup (lib : Codec) (cutoff : UInt64) (source : Database) (st : SnapshotState)
    (record : Record) : Except SnapshotError SnapshotState :=
  let result := { st.result with keysScanned := st.result.keysScanned + 1 }
  if record.1.length ≠ cxLookupPrefix.length + hashLength then .ok { st with result := result }
  else
    let result := { result with lookupEntries := result.lookupEntries + 1 }
    match lib.decodeLookup record.2 with
    | .error err => .error (.decodeLookup record.1 err)
    | .ok entry =>
      if entry.blockIndex > cutoff then
        .ok { st with result := { result with afterCutoff := result.afterCutoff + 1 } }
      else if rawdbReadCanonicalHash source entry.blockIndex ≠ entry.blockHash then
        .ok { st with result := { result with nonCanonical := result.nonCanonical + 1 } }
      else if ∃ prior ∈ st.exportedBlocks.lookup entry.blockIndex, prior ≠ entry.blockHash then
        .error (.conflict entry.blockIndex)
      else .ok
        { result := { result with exportedLookups := result.exportedLookups + 1 }
          exportedBlocks := setBlock st.exportedBlocks entry.blockIndex entry.blockHash
          batch := st.batch ++ [record] }

def blockRecord (block : UInt64 × Hash) : Record := (canonicalHashKey block.1, block.2.data)

/-- The command: the new database and the summary it prints. -/
def main (lib : Codec) (flags : SnapshotFlags) (outputExists : Bool) (source : Database)
    (order : MapOrder) : Except SnapshotError (Store × SnapshotSummary) :=
  if flags.sourcePath = "" ∨ flags.outputPath = "" ∨ flags.cutoff = 0 then .error .usage
  else if outputExists then .error .outputExists
  else
    let iterator := source.newIterator cxLookupPrefix
    let result : SnapshotSummary :=
      { sourceDB := flags.sourcePath
        outputDB := flags.outputPath
        cutoffBlock := flags.cutoff }
    match iterator.1.foldlM (scanLookup lib flags.cutoff source) { result := result } with
    | .error err => .error err
    | .ok st =>
      match iterator.2 with
      | some err => .error (.iterate err)
      | none =>
        let blocks := order.visit st.exportedBlocks
        .ok ((Store.empty.write st.batch).write (blocks.map blockRecord),
          { st.result with exportedBlockHashes := blocks.length })

end CxLookupSnapshot
