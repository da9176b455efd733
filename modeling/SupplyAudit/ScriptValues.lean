import SupplyAudit.NumeralText

/-!
# Values of the scripts

A script reads records of named text fields. Lower-casing and integer parsing
are the language's own and stay parameters with the laws that the scripts rely
on: what is proved holds whatever they do to characters outside ASCII.
-/

namespace ScriptValues

open NumeralText

/-- `str.lower` and `int` on a text. -/
structure PyText where
  lower : String → String
  int : String → Option Int
  lower_ascii : ∀ text : String, (∀ c ∈ text.toList, c.toNat < 128) → lower text = text.toLower
  lower_eq_empty : ∀ text, lower text = "" → text = ""
  int_toString : ∀ z : Int, int (toString z) = some z

/-- Both on ASCII letters and plain decimal numerals only. -/
def PyText.ascii : PyText where
  lower text := String.ofList (text.toList.map Char.toLower)
  int := readInt
  lower_ascii text _ := by
    apply String.toList_inj.mp
    rw [String.toList_ofList, toList_toLower]
  lower_eq_empty text h := by
    have hlist := congrArg String.toList h
    rw [String.toList_ofList] at hlist
    exact String.toList_eq_nil_iff.mp (List.map_eq_nil_iff.mp hlist)
  int_toString := readInt_toString

theorem PyText.lower_empty (py : PyText) : py.lower "" = "" := by
  rw [py.lower_ascii "" nofun]
  exact String.map_eq_empty.mpr rfl

/-- A record of named fields; a field without a value is `none`. -/
abbrev Row := List (String × Option String)

inductive PyError where
  | keyError (field : String)
  | attributeError
  | typeError
  | invalidInteger (text : String)
  | fileExists (path : String)
  | notIncreasing (path : String) (line : Nat)
  | negativeReceipt (key : String)
  | receiptAddressMismatch (key : String)
  | receiptSumMismatch (total : Int) (reported : String)
  | negativeField (field key : String)
  | addressMismatch (key : String) (addresses : List String)
  | nonPositiveClaim (key : String)
  deriving DecidableEq

def PyError.text : PyError → String
  | .keyError field => "'" ++ field ++ "'"
  | .attributeError => "'NoneType' object has no attribute 'lower'"
  | .typeError => "int() argument must be a string, a bytes-like object or a real number, " ++
      "not 'NoneType'"
  | .invalidInteger text => "invalid literal for int() with base 10: '" ++ text ++ "'"
  | .fileExists path => "refusing to overwrite " ++ path
  | .notIncreasing path line =>
    path ++ ":" ++ toString line ++ ": secure keys are not strictly increasing"
  | .negativeReceipt key => "negative receipt amount for " ++ key
  | .receiptAddressMismatch key => "receipt address mismatch for " ++ key
  | .receiptSumMismatch total reported =>
    "pending receipt sum " ++ toString total ++ " != report " ++ reported
  | .negativeField field key => "negative " ++ field ++ " for " ++ key
  | .addressMismatch key addresses => "address mismatch for " ++ key ++ ": [" ++
      ", ".intercalate (addresses.map fun a => "'" ++ a ++ "'") ++ "]"
  | .nonPositiveClaim key => "non-positive merged claim for " ++ key

/-- `row[field]` -/
def Row.get (row : Row) (field : String) : Except PyError (Option String) :=
  match row.lookup field with
  | none => .error (.keyError field)
  | some value => .ok value

/-- `value.lower()` -/
def PyText.lowered (py : PyText) : Option String → Except PyError String
  | none => .error .attributeError
  | some text => .ok (py.lower text)

/-- `int(value)` -/
def PyText.parsed (py : PyText) : Option String → Except PyError Int
  | none => .error .typeError
  | some text =>
    match py.int text with
    | none => .error (.invalidInteger text)
    | some value => .ok value

/-- A record under a header, as `csv.DictReader` gives it. -/
def dictRow (header record : List String) : Row :=
  header.zipIdx.map fun (field, i) => (field, record[i]?)

/-- The rows of a CSV file; its first record is the header. -/
def dictRows : List (List String) → List Row
  | [] => []
  | header :: records => records.map (dictRow header)

end ScriptValues
