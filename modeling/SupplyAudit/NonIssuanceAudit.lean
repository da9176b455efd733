import Mathlib.Data.List.Sort
import SupplyAudit.AuditFiles
import SupplyAudit.KeyedTable

/-!
# The non-issuance audit

`build-non-issuance-audit.py` combines reviewed inventories of addresses that
are not issued with retained balances at recipients of historical credits and
with the credit of proven leaks, and checks the total against the gross claim.
-/

namespace NonIssuanceAudit

open ScriptValues FallibleScan KeyedTable HarmonyAddress TraceInspection AuditFiles

/-- `ATTO` -/
def atto : Nat := 10 ^ 18

/-- An amount in ONE, with eighteen decimals. -/
def one (amount : Int) : String :=
  let sign := if amount < 0 then "-" else ""
  let fraction := toString (amount.natAbs % atto)
  sign ++ toString (amount.natAbs / atto) ++ "." ++
    "".pushn '0' (18 - fraction.length) ++ fraction

/-- A sorted list of texts as a message shows it. -/
def listText (texts : List String) : String :=
  "[" ++ ", ".intercalate ((texts.insertionSort fun a b => a ≤ b).map fun text =>
    "'" ++ text ++ "'") ++ "]"

variable (py : AuditText)

/-! ## Reviewed inventories -/

structure Category where
  rows : Nat := 0
  positiveRows : Nat := 0
  atto : Int := 0
  deriving DecidableEq

def Category.add (a b : Category) : Category :=
  ⟨a.rows + b.rows, a.positiveRows + b.positiveRows, a.atto + b.atto⟩

structure Existing where
  rows : List Row := []
  seen : List String := []
  categories : List (Option String × Category) := []

/-- The counters of a category, which start at nothing, with more rows added. -/
def addCategory (categories : List (Option String × Category))
    (entry : Option String × Category) : List (Option String × Category) :=
  update categories entry.1 {} fun category => category.add entry.2

/-- The body of the loop over one inventory's rows. -/
def addExisting (path : String) (st : Existing) (numbered : Row × Nat) :
    Except AuditError Existing := do
  let row := numbered.1
  let place := rowPlace path numbered.2
  let address ← lowerField py.toPyText row "address_hex"
  require (address ∉ st.seen) (.valueError (place ++ "duplicate address " ++ address))
  let amount ← intField py.toPyText row "not_issued_atto"
  require (0 ≤ amount) (.valueError (place ++ "invalid not-issued amount"))
  let claim ← intField py.toPyText row "cutoff_claim_atto"
  require (amount ≤ claim) (.valueError (place ++ "invalid not-issued amount"))
  let category ← raisePython (row.get "category")
  .ok
    { rows := st.rows ++ [row]
      seen := address :: st.seen
      categories := addCategory st.categories (category, ⟨1, if 0 < amount then 1 else 0, amount⟩) }

def loadExisting (file : CsvFile) : Except AuditError Existing :=
  file.rows.zipIdx.foldlM (addExisting py file.path) {}

/-- The body of the loop over the inventories. -/
def addInventory (st : Existing) (file : CsvFile) : Except AuditError Existing := do
  let loaded ← loadExisting py file
  let overlap := loaded.seen.filter (· ∈ st.seen)
  require (overlap = []) (.valueError (file.path ++ ": addresses already in another inventory: " ++
    listText overlap))
  .ok ⟨st.rows ++ loaded.rows, st.seen ++ loaded.seen,
    loaded.categories.foldl addCategory st.categories⟩

def loadInventories (files : List CsvFile) : Except AuditError Existing :=
  files.foldlM (addInventory py) {}

/-! ## Retained balances -/

/-- `false_value` -/
def falseValue : Option String → Except AuditError Bool
  | none => .error (.attributeError "'NoneType' object has no attribute 'strip'")
  | some text => .ok (py.lower (py.strip text) ∈ ["", "0", "false", "no"])

structure Incident where
  inputAddresses : Nat := 0
  positiveAddresses : Nat := 0
  retainedCapAtto : Int := 0
  above1000One : Nat := 0
  deriving DecidableEq

structure Retained where
  rows : List Row := []
  seen : List String := []
  byIncident : List (Option String × Incident) := []
  blocks : List (Int × Nat) := []

/-- The retained balances. An evidence file that exists is known by its path
from the output directory. -/
structure RetainedFile extends CsvFile where
  evidence : String → Option String

def RetainedFile.find (file : RetainedFile) : Option String → Except AuditError String
  | none => .error (.typeError "unsupported operand type(s) for /: 'PosixPath' and 'NoneType'")
  | some name =>
    match file.evidence name with
    | none => .error (.fileNotFound name)
    | some path => .ok path

/-- A row of the written file. -/
def retainedRow (row : Row) (bech32 address : String) (incident : Option String)
    (initial cutoffBalance retained : Int) (evidence : String) : Except AuditError Row := do
  let cutoffBlock ← raisePython (row.get "cutoff_block")
  let verificationBlock ← raisePython (row.get "rpc_block")
  .ok [("address_bech32", some bech32), ("address_hex", some address), ("incident", incident),
    ("initial_distribution_atto", some (toString initial)),
    ("cutoff_balance_atto", some (toString cutoffBalance)),
    ("retained_cap_atto", some (toString retained)), ("retained_cap_one", some (one retained)),
    ("cutoff_block", cutoffBlock), ("verification_block", verificationBlock),
    ("source_evidence", some evidence), ("migration_treatment", some "not_issued")]

/-- The rows that a retained balance adds to the written file. -/
def retainedRows (row : Row) (address : String) (incident : Option String)
    (initial cutoffBalance retained : Int) (evidence : String) : Except AuditError (List Row) :=
  if 0 < retained then do
    let bech32 ← raiseAddress (toBech32 address)
    let written ← retainedRow row bech32 address incident initial cutoffBalance retained evidence
    .ok [written]
  else .ok []

def Incident.add (incident : Incident) (retained : Int) : Incident :=
  if 0 < retained then
    ⟨incident.inputAddresses + 1, incident.positiveAddresses + 1,
      incident.retainedCapAtto + retained,
      incident.above1000One + if 1000 * (atto : Int) < retained then 1 else 0⟩
  else { incident with inputAddresses := incident.inputAddresses + 1 }

/-- The body of the loop over retained balances. -/
def addRetained (file : RetainedFile) (st : Retained) (numbered : Row × Nat) :
    Except AuditError Retained := do
  let row := numbered.1
  let place := rowPlace file.path numbered.2
  let address ← lowerField py.toPyText row "address"
  require (address ∉ st.seen) (.valueError (place ++ "duplicate address " ++ address))
  let incident ← raisePython (row.get "incident")
  let initial ← intField py.toPyText row "initial_amount_atto"
  let cutoffBalance ← intField py.toPyText row "cutoff_balance_atto"
  let rpcBalance ← intField py.toPyText row "rpc_balance_atto"
  let retained ← intField py.toPyText row "rpc_retained_cap_atto"
  require (retained = min initial rpcBalance)
    (.valueError (place ++ "retained cap does not match inputs"))
  require (cutoffBalance = rpcBalance) (.valueError (place ++ "balance changed after cutoff"))
  let changedCell ← raisePython (row.get "balance_changed_from_sep10")
  let unchanged ← falseValue py changedCell
  require (unchanged = true) (.valueError (place ++ "balance changed after cutoff"))
  let rawFile ← raisePython (row.get "raw_file")
  let evidence ← file.find rawFile
  let block ← intField py.toPyText row "rpc_block"
  let written ← retainedRows row address incident initial cutoffBalance retained evidence
  .ok
    { rows := st.rows ++ written
      seen := address :: st.seen
      byIncident := update st.byIncident incident {} fun summary => summary.add retained
      blocks := update st.blocks block 0 fun count => count + 1 }

/-- The counted blocks as a message shows them, the most frequent first. -/
def countsText (blocks : List (Int × Nat)) : String :=
  if blocks = [] then "Counter()"
  else "Counter(" ++ "\x7b" ++ ", ".intercalate ((blocks.insertionSort fun a b => b.2 ≤ a.2).map
    fun entry => toString entry.1 ++ ": " ++ toString entry.2) ++ "\x7d" ++ ")"

/-- The loaded balances and the one block that they were read at. -/
def loadRetained (file : RetainedFile) : Except AuditError (Retained × Int) := do
  let st ← file.rows.zipIdx.foldlM (addRetained py file) {}
  match st.blocks with
  | [(block, _)] => .ok (st, block)
  | blocks => .error (.valueError ("retained balances use multiple RPC blocks: " ++
      countsText blocks))

/-! ## Both lists -/

structure Loaded where
  existing : Existing
  retained : Retained
  verificationBlock : Int

/-- The addresses of written rows. -/
def addresses (rows : List Row) : List (Option String) :=
  rows.map fun row => (row.lookup "address_hex").join

/-- The inventories and the retained balances, which share no address. -/
def load (inventories : List CsvFile) (balances : RetainedFile) : Except AuditError Loaded := do
  let existing ← loadInventories py inventories
  let (retained, block) ← loadRetained py balances
  let overlap := existing.seen.filter fun address => some address ∈ addresses retained.rows
  require (overlap = []) (.valueError
    ("retained historical-hack addresses overlap the existing non-issuance inventory: " ++
      listText overlap))
  .ok ⟨existing, retained, block⟩

end NonIssuanceAudit
