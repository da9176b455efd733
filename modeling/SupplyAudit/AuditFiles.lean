import SupplyAudit.FallibleScan
import SupplyAudit.HarmonyAddress
import SupplyAudit.ScriptValues

/-!
# Files and errors of the audit scripts

An audit script reads CSV files row by row and stops with an exception. Rows are
named in messages by their line; the header is line 1.
-/

namespace AuditFiles

open ScriptValues FallibleScan HarmonyAddress

inductive AuditError where
  | python (err : PyError)
  | address (err : AddressError)
  | keyError (text : String)
  | valueError (text : String)
  | runtimeError (text : String)
  | typeError (text : String)
  | attributeError (text : String)
  | indexError
  | fileNotFound (path : String)
  | fileExists (path : String)
  deriving DecidableEq

def AuditError.text : AuditError → String
  | .python err => err.text
  | .address err => err.text
  | .keyError text => text
  | .valueError text => text
  | .runtimeError text => text
  | .typeError text => text
  | .attributeError text => text
  | .indexError => "list index out of range"
  | .fileNotFound path => path
  | .fileExists path => "[Errno 17] File exists: '" ++ path ++ "'"

/-- An exception of the language. -/
def raisePython {α : Type} : Except PyError α → Except AuditError α
  | .error err => .error (.python err)
  | .ok a => .ok a

def raiseAddress {α : Type} : Except AddressError α → Except AuditError α
  | .error err => .error (.address err)
  | .ok a => .ok a

@[simp] theorem raisePython_ok {α : Type} {r : Except PyError α} {a : α} :
    raisePython r = .ok a ↔ r = .ok a := by
  cases r with
  | error err => simp [raisePython]
  | ok b => simp [raisePython]

@[simp] theorem raiseAddress_ok {α : Type} {r : Except AddressError α} {a : α} :
    raiseAddress r = .ok a ↔ r = .ok a := by
  cases r with
  | error err => simp [raiseAddress]
  | ok b => simp [raiseAddress]

/-- `if not condition: raise err` -/
def require (condition : Prop) [Decidable condition] (err : AuditError) : Except AuditError Unit :=
  if condition then .ok () else .error err

theorem require_ok {condition : Prop} [Decidable condition] {err : AuditError} {u : Unit} :
    require condition err = .ok u ↔ condition := by
  rw [require]
  split
  · simpa
  · simpa

theorem require_of {condition : Prop} [Decidable condition] (h : condition) (err : AuditError) :
    require condition err = .ok () := if_pos h

structure CsvFile where
  path : String
  rows : List Row

/-- The numbered rows of all files. -/
def places (files : List CsvFile) : List (CsvFile × (Row × Nat)) :=
  files.flatMap fun file => file.rows.zipIdx.map fun numbered => (file, numbered)

def allRows (files : List CsvFile) : List Row := files.flatMap CsvFile.rows

theorem places_rows (files : List CsvFile) :
    (places files).map (fun place => place.2.1) = allRows files := by
  induction files with
  | nil => rfl
  | cons file rest ih =>
    have hfile : (file.rows.zipIdx.map fun numbered => (file, numbered)).map
        (fun place => place.2.1) = file.rows := by
      rw [List.map_map]
      exact List.zipIdx_map_fst 0 file.rows
    rw [places, List.flatMap_cons, List.map_append, hfile, allRows, List.flatMap_cons]
    exact congrArg (file.rows ++ ·) ih

/-- Reading file by file is reading place by place. -/
theorem foldlM_files {σ : Type} (step : CsvFile → σ → Row × Nat → Except AuditError σ)
    (files : List CsvFile) (s : σ) :
    files.foldlM (fun st file => file.rows.zipIdx.foldlM (step file) st) s =
      (places files).foldlM (fun st place => step place.1 st place.2) s := by
  induction files generalizing s with
  | nil => rfl
  | cons file rest ih =>
    rw [List.foldlM_cons, places, List.flatMap_cons, List.foldlM_append, List.foldlM_map]
    congr 1
    funext next
    exact ih next

/-- What an error message says about the place of a row; rows are numbered from 2. -/
def rowPlace (path : String) (index : Nat) : String := path ++ ":" ++ toString (index + 2) ++ ": "

/-- A written row as it is read again; a missing cell is written as an empty one. -/
def readBack (row : Row) : Row := row.map fun cell => (cell.1, some (cell.2.getD ""))

theorem lookup_readBack {row : Row} {field text : String}
    (h : row.lookup field = some (some text)) : (readBack row).lookup field = some (some text) := by
  induction row with
  | nil => cases h
  | cons cell row ih =>
    rw [readBack, List.map_cons, List.lookup_cons]
    rw [List.lookup_cons] at h
    split at h
    · rw [Option.some.inj h, Option.getD_some]
    · exact ih h

variable (py : PyText)

/-- `row[field].lower()` -/
def lowerField (row : Row) (field : String) : Except AuditError String := do
  let cell ← raisePython (row.get field)
  raisePython (py.lowered cell)

/-- `int(row[field])` -/
def intField (row : Row) (field : String) : Except AuditError Int := do
  let cell ← raisePython (row.get field)
  raisePython (py.parsed cell)

theorem lowerField_ok {py : PyText} {row : Row} {field text : String} :
    lowerField py row field = .ok text ↔
      ∃ value, row.lookup field = some (some value) ∧ py.lower value = text := by
  rw [lowerField]
  cases hrow : row.lookup field with
  | none => simp [Row.get, hrow, raisePython]
  | some cell =>
    cases cell with
    | none => simp [Row.get, hrow, raisePython, PyText.lowered]
    | some value => simp [Row.get, hrow, raisePython, PyText.lowered]

theorem intField_ok {py : PyText} {row : Row} {field : String} {amount : Int} :
    intField py row field = .ok amount ↔
      ∃ value, row.lookup field = some (some value) ∧ py.int value = some amount := by
  rw [intField]
  cases hrow : row.lookup field with
  | none => simp [Row.get, hrow, raisePython]
  | some cell =>
    cases cell with
    | none => simp [Row.get, hrow, raisePython, PyText.parsed]
    | some value =>
      cases hint : py.int value with
      | none => simp [Row.get, hrow, raisePython, PyText.parsed, hint]
      | some n => simp [Row.get, hrow, raisePython, PyText.parsed, hint]

end AuditFiles
