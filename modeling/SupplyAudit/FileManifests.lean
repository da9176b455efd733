import SupplyAudit.AuditFiles
import SupplyAudit.DistinctListings
import SupplyAudit.FileStore
import SupplyAudit.TextLines

/-!
# Manifests of files

A manifest has a line for every file: its digest, its size and its name, with two
blanks between them. What was written of files whose names are one line is read
again; the digest and the size have no blank, so that a name may have any.
-/

namespace FileManifests

open ByteWords NumeralText ScriptValues AuditFiles FileStore TextLines

/-! ## Files -/

/-- What a name stands for; a symbolic link leads to a file or to something else. -/
inductive Entry where
  | file (content : Bytes)
  | symlink (target : Option Bytes)
  | directory

/-- The content, if the name leads to a file. -/
def Entry.bytes? : Entry → Option Bytes
  | .file content => some content
  | .symlink target => target
  | .directory => none

/-- The language and the machine: the digest in hexadecimal, integer texts, and how a text is
shown in a message. -/
structure System where
  py : PyText
  repr : String → String
  sha256 : Bytes → String
  root : String
  sha256_hex : ∀ content, ∀ c ∈ (sha256 content).toList,
    ('0' ≤ c ∧ c ≤ '9') ∨ ('a' ≤ c ∧ c ≤ 'f')

/-- What an open of the name for reading gives. -/
def readBytes (d : Disk Entry) (path : String) : Except AuditError Bytes :=
  match d path with
  | none => .error (.fileNotFound path)
  | some entry =>
    match entry.bytes? with
    | none => .error (.valueError ("[Errno 21] Is a directory: '" ++ path ++ "'"))
    | some content => .ok content

def readText (d : Disk Entry) (path : String) : Except AuditError String := do
  let bytes ← readBytes d path
  match decodeText bytes with
  | none => .error (.valueError "'utf-8' codec can't decode bytes")
  | some text => .ok text

/-! ## Rows -/

structure ManifestRow where
  path : String
  digest : String
  size : Nat

/-- The order of the tuples. -/
def ManifestRow.Precedes (a b : ManifestRow) : Prop :=
  a.path < b.path ∨ a.path = b.path ∧
    (a.digest < b.digest ∨ a.digest = b.digest ∧ a.size ≤ b.size)

instance : DecidableRel ManifestRow.Precedes := fun a b =>
  inferInstanceAs (Decidable (a.path < b.path ∨ a.path = b.path ∧
    (a.digest < b.digest ∨ a.digest = b.digest ∧ a.size ≤ b.size)))

def fileRow (sys : System) (path : String) (content : Bytes) : ManifestRow :=
  ⟨path, sys.sha256 content, content.length⟩

def separator : List Char := [' ', ' ']

/-- A line without its line feed. -/
def ManifestRow.chars (row : ManifestRow) : List Char :=
  row.digest.toList ++ (separator ++ ((toString row.size).toList ++ (separator ++ row.path.toList)))

/-- `f"{digest}  {size}  {path}\n"` for every row. -/
def manifestText (rows : List ManifestRow) : String :=
  String.ofList (rows.flatMap fun row => row.chars ++ ['\n'])

/-- The three texts of a line. -/
structure LineFields where
  digest : String
  size : String
  relative : String

/-- `line.rstrip("\n").split("  ", 2)`, unpacked. -/
def lineFields (line : List Char) : Except AuditError LineFields :=
  match splitMost separator 2 (stripNewlines line) with
  | [digest, size, relative] =>
    .ok ⟨String.ofList digest, String.ofList size, String.ofList relative⟩
  | fields => .error (.valueError ("not enough values to unpack (expected 3, got " ++
      toString fields.length ++ ")"))

/-- The lines of a text file. -/
def readLines (text : String) : List (List Char) := fileLines (universalNewlines text.toList)

/-! ## What is read of what was written -/

def ManifestRow.fields (row : ManifestRow) : LineFields :=
  ⟨row.digest, toString row.size, row.path⟩

/-- The row of a file whose name is one line. -/
structure ManifestRow.Plain (row : ManifestRow) : Prop where
  digest : ∀ c ∈ row.digest.toList, ('0' ≤ c ∧ c ≤ '9') ∨ ('a' ≤ c ∧ c ≤ 'f')
  path : OneLine row.path.toList

theorem plain_fileRow (sys : System) {path : String} (h : OneLine path.toList) (content : Bytes) :
    (fileRow sys path content).Plain := ⟨sys.sha256_hex content, h⟩

/-- A character that no digest and no size has. -/
def Outside (c : Char) : Prop := c = ' ' ∨ c = '\n' ∨ c = '\r'

theorem outside_digest {row : ManifestRow} (h : row.Plain) {c : Char} (hc : Outside c) :
    c ∉ row.digest.toList := by
  intro hmem
  have hhex := h.digest c hmem
  rcases hc with rfl | rfl | rfl
  · exact absurd hhex (by decide)
  · exact absurd hhex (by decide)
  · exact absurd hhex (by decide)

theorem outside_size (n : Nat) {c : Char} (hc : Outside c) : c ∉ (toString n).toList := by
  intro hmem
  have hdigits : (toString n).toList = Nat.toDigits 10 n := Nat.toList_repr
  rw [hdigits] at hmem
  have hdigit := Nat.isDigit_of_mem_toDigits (by omega) (by omega) hmem
  rcases hc with rfl | rfl | rfl
  · exact absurd hdigit (by decide)
  · exact absurd hdigit (by decide)
  · exact absurd hdigit (by decide)

theorem oneLine_chars {row : ManifestRow} (h : row.Plain) : OneLine row.chars := by
  have hsep : OneLine separator := by decide
  have hdigest : OneLine row.digest.toList :=
    ⟨outside_digest h (Or.inr (Or.inl rfl)), outside_digest h (Or.inr (Or.inr rfl))⟩
  have hsize : OneLine (toString row.size).toList :=
    ⟨outside_size row.size (Or.inr (Or.inl rfl)), outside_size row.size (Or.inr (Or.inr rfl))⟩
  exact hdigest.append (hsep.append (hsize.append (hsep.append h.path)))

theorem lineFields_chars {row : ManifestRow} (h : row.Plain) :
    lineFields (row.chars ++ ['\n']) = .ok row.fields := by
  have hdigest := outside_digest h (Or.inl rfl)
  have hsize := outside_size row.size (Or.inl rfl)
  have hsplit : splitMost separator 2 row.chars =
      [row.digest.toList, (toString row.size).toList, row.path.toList] := by
    rw [ManifestRow.chars, separator, splitMost_append hdigest, splitMost_append hsize]
    rfl
  rw [lineFields, stripNewlines_concat (oneLine_chars h).1, hsplit]
  simp only [String.ofList_toList]
  rfl

/-- The lines of a written manifest. -/
theorem readLines_manifestText {rows : List ManifestRow} (h : ∀ row ∈ rows, row.Plain) :
    readLines (manifestText rows) = rows.map fun row => row.chars ++ ['\n'] := by
  have hlines : (rows.flatMap fun row => row.chars ++ ['\n']) =
      (rows.map ManifestRow.chars).flatMap (· ++ ['\n']) := by
    rw [List.flatMap_map]
  have hplain : ∀ line ∈ rows.map ManifestRow.chars, OneLine line := by
    intro line hline
    obtain ⟨row, hrow, rfl⟩ := List.mem_map.mp hline
    exact oneLine_chars (h row hrow)
  have hreturn : '\r' ∉ (rows.map ManifestRow.chars).flatMap (· ++ ['\n']) := by
    rw [List.mem_flatMap]
    rintro ⟨line, hline, hmem⟩
    rcases List.mem_append.mp hmem with hmem | hmem
    · exact (hplain line hline).2 hmem
    · exact absurd (List.mem_singleton.mp hmem) (by decide)
  rw [readLines, manifestText, String.toList_ofList, hlines, universalNewlines_of_plain hreturn,
    fileLines_flatMap fun line hline => (hplain line hline).1, List.map_map]
  rfl

/-- A name that is read is one line. -/
theorem oneLine_relative {text : String} {line : List Char} {fields : LineFields}
    (hline : line ∈ readLines text) (h : lineFields line = .ok fields) :
    OneLine fields.relative.toList := by
  have hread : OneLine (stripNewlines line) := oneLine_read hline
  rw [lineFields] at h
  split at h
  · rename_i digest size relative hsplit
    rw [← Except.ok.inj h, String.toList_ofList]
    have hpart : ∀ c ∈ relative, c ∈ stripNewlines line := fun c hc =>
      mem_splitMost (hsplit ▸ List.mem_cons_of_mem _ (List.mem_cons_of_mem _ List.mem_cons_self)) hc
    exact ⟨fun hmem => hread.1 (hpart _ hmem), fun hmem => hread.2 (hpart _ hmem)⟩
  · cases h

end FileManifests
