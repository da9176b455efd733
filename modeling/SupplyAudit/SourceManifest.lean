import Mathlib.Data.List.ReduceOption
import Mathlib.Data.List.Sort
import SupplyAudit.FileManifests
import SupplyAudit.KeyedTable

/-!
# The source manifest

`update-source-manifest` writes a line for every public file that git lists, and
`verify-source-manifest` compares these lines with the public files of a later
tree.
-/

namespace SourceManifest

open ByteWords ScriptValues AuditFiles FallibleScan FileStore KeyedTable TextLines FileManifests

def outputName : String := "manifests/source.sha256"

def partialName : String := outputName ++ ".partial"

/-- What git prints, and where the writing of the manifest may fail. -/
structure Machine extends System where
  faults : StageFaults AuditError
  writeFault : Option (AuditError × Entry)

variable (m : Machine)

/-! ## Public files -/

/-- The items that git separates by NUL bytes, in the order of their bytes. -/
def listedItems (stdout : Bytes) : List Bytes :=
  ((stdout.splitOn 0).filter (· ≠ [])).insertionSort (· ≤ ·)

/-- What `public_files` yields for an item: the name and the content of a file, if there is one. -/
def publicFile (d : Disk Entry) (item : Bytes) : Except AuditError (Option (String × Bytes)) :=
  match decodeText item with
  | none => .error (.valueError "'utf-8' codec can't decode bytes")
  | some relative =>
    if relative = outputName then .ok none
    else match d relative with
      | none => .ok none
      | some (.symlink _) => .error (.valueError ("public package contains symlink: " ++ relative))
      | some .directory => .error (.fileNotFound (m.root ++ "/" ++ relative))
      | some (.file content) => .ok (some (relative, content))

/-- `for path in public_files(): body` -/
def forPublic {σ : Type} (body : σ → String × Bytes → Except AuditError σ)
    (stdout : Except AuditError Bytes) (d : Disk Entry) (start : σ) : Except AuditError σ := do
  let bytes ← stdout
  (listedItems bytes).foldlM (fun st item => do
    let found ← publicFile m d item
    match found with
    | none => .ok st
    | some file => body st file) start

/-! ## The update -/

def addRow (rows : List ManifestRow) (file : String × Bytes) :
    Except AuditError (List ManifestRow) :=
  if file.1 ∈ rows.map ManifestRow.path then
    .error (.valueError ("duplicate manifest path: " ++ file.1))
  else .ok (rows ++ [fileRow m.toSystem file.1 file.2])

def collectRows (stdout : Except AuditError Bytes) : Action Entry AuditError (List ManifestRow) :=
  fun d => (forPublic m (addRow m) stdout d [], d)

/-- `main` of `update-source-manifest`; it returns the number of entries. -/
def update (stdout : Except AuditError Bytes) : Action Entry AuditError Nat := do
  let rows ← collectRows m stdout
  let sorted := rows.insertionSort ManifestRow.Precedes
  staged m.faults partialName outputName (.file [])
    (writeTo partialName (.file (encodeText (manifestText sorted))) m.writeFault)
  pure sorted.length

/-! ## The verification -/

/-- What the manifest says of a name: its digest and its size. -/
abbrev Listed := List (String × (String × Int))

def readEntry (listed : Listed) (line : List Char × Nat) : Except AuditError Listed := do
  let fields ← lineFields line.1
  if fields.relative ∈ listed.map Prod.fst then
    .error (.valueError ("duplicate manifest path at line " ++ toString line.2))
  else do
    let size ← raisePython (m.py.parsed (some fields.size))
    .ok (listed ++ [(fields.relative, (fields.digest, size))])

def checkEntry (listed : Listed) (file : String × Bytes) : Except AuditError Unit :=
  match listed.lookup file.1 with
  | none => .error (.keyError ("'" ++ file.1 ++ "'"))
  | some (digest, size) =>
    if (file.2.length : Int) ≠ size then
      .error (.valueError ("source manifest size mismatch: " ++ file.1))
    else if m.sha256 file.2 ≠ digest then
      .error (.valueError ("source manifest hash mismatch: " ++ file.1))
    else .ok ()

/-- A sorted list of names as a message shows it. -/
def shownNames (names : List String) : String :=
  "[" ++ ", ".intercalate ((names.insertionSort (· ≤ ·)).map m.repr) ++ "]"

/-- `main` of `verify-source-manifest`; it returns the number of files. -/
def verify (stdout : Except AuditError Bytes) (d : Disk Entry) : Except AuditError Nat := do
  let text ← readText d outputName
  let listed ← ((readLines text).zipIdx 1).foldlM (readEntry m) []
  let expected ← forPublic m (fun table file => .ok (set table file.1 file.2)) stdout d []
  let missing := (expected.map Prod.fst).filter (· ∉ listed.map Prod.fst)
  let extra := (listed.map Prod.fst).filter (· ∉ expected.map Prod.fst)
  if missing ≠ [] ∨ extra ≠ [] then
    .error (.valueError ("source manifest file set mismatch: missing=" ++ shownNames m missing ++
      " extra=" ++ shownNames m extra))
  else do
    let _ ← expected.mapM (checkEntry m listed)
    .ok listed.length

/-! ## Which files are public -/

/-- The name is listed and is that of a file with this content. -/
def Published (stdout : Except AuditError Bytes) (d : Disk Entry) (path : String)
    (content : Bytes) : Prop :=
  path ≠ outputName ∧ d path = some (.file content) ∧
    ∃ bytes, stdout = .ok bytes ∧ encodeText path ∈ listedItems bytes

/-- Git lists names, each of which is missing, a file, or the manifest itself. -/
def Readable (stdout : Except AuditError Bytes) (d : Disk Entry) : Prop :=
  ∃ bytes, stdout = .ok bytes ∧ ∀ item ∈ listedItems bytes, ∃ path, decodeText item = some path ∧
    (path = outputName ∨ d path = none ∨ ∃ content, d path = some (.file content))

variable {m}

theorem publicFile_ok {d : Disk Entry} {item : Bytes} {o : Option (String × Bytes)} :
    publicFile m d item = .ok o ↔ ∃ path, decodeText item = some path ∧
      (o = none ∧ (path = outputName ∨ d path = none) ∨
        ∃ content, o = some (path, content) ∧ path ≠ outputName ∧
          d path = some (.file content)) := by
  rw [publicFile]
  cases hpath : decodeText item with
  | none => simp
  | some path =>
    by_cases hout : path = outputName
    · simp [hout, eq_comm]
    · cases hentry : d path with
      | none => simp [hout, hentry, eq_comm]
      | some entry =>
        cases entry with
        | file content => simp [hout, hentry, eq_comm]
        | symlink target => simp [hout, hentry]
        | directory => simp [hout, hentry]

theorem publicFile_entry {d : Disk Entry} {item : Bytes} {path : String} {content : Bytes}
    (h : publicFile m d item = .ok (some (path, content))) :
    d path = some (.file content) := by
  obtain ⟨name, -, ⟨hnone, -⟩ | ⟨held, hsome, -, hentry⟩⟩ := publicFile_ok.mp h
  · cases hnone
  · cases hsome
    exact hentry

theorem publicFile_published {d : Disk Entry} {bytes : Bytes} {path : String} {content : Bytes} :
    (∃ item ∈ listedItems bytes, publicFile m d item = .ok (some (path, content))) ↔
      Published (.ok bytes) d path content := by
  constructor
  · rintro ⟨item, hitem, hfound⟩
    obtain ⟨name, hname, ⟨hnone, -⟩ | ⟨held, hsome, hne, hentry⟩⟩ := publicFile_ok.mp hfound
    · cases hnone
    · cases hsome
      exact ⟨hne, hentry, bytes, rfl, (encodeText_decodeText hname).symm ▸ hitem⟩
  · rintro ⟨hne, hentry, bytes', hbytes, hitem⟩
    cases hbytes
    exact ⟨_, hitem, publicFile_ok.mpr
      ⟨path, decodeText_encodeText path, Or.inr ⟨content, rfl, hne, hentry⟩⟩⟩

theorem readable_iff {d : Disk Entry} {bytes : Bytes} :
    Readable (.ok bytes) d ↔ ∀ item ∈ listedItems bytes, ∃ o, publicFile m d item = .ok o := by
  constructor
  · rintro ⟨bytes', hbytes, hall⟩ item hitem
    cases hbytes
    obtain ⟨path, hpath, hskipped | hskipped | ⟨content, hentry⟩⟩ := hall item hitem
    · exact ⟨none, publicFile_ok.mpr ⟨path, hpath, Or.inl ⟨rfl, Or.inl hskipped⟩⟩⟩
    · exact ⟨none, publicFile_ok.mpr ⟨path, hpath, Or.inl ⟨rfl, Or.inr hskipped⟩⟩⟩
    · by_cases hout : path = outputName
      · exact ⟨none, publicFile_ok.mpr ⟨path, hpath, Or.inl ⟨rfl, Or.inl hout⟩⟩⟩
      · exact ⟨_, publicFile_ok.mpr ⟨path, hpath, Or.inr ⟨content, rfl, hout, hentry⟩⟩⟩
  · intro h
    refine ⟨bytes, rfl, fun item hitem => ?_⟩
    obtain ⟨o, ho⟩ := h item hitem
    obtain ⟨path, hpath, ⟨-, hskipped | hskipped⟩ | ⟨content, -, -, hentry⟩⟩ :=
      publicFile_ok.mp ho
    · exact ⟨path, hpath, Or.inl hskipped⟩
    · exact ⟨path, hpath, Or.inr (Or.inl hskipped)⟩
    · exact ⟨path, hpath, Or.inr (Or.inr ⟨content, hentry⟩)⟩

/-! ## The rows of the update -/

/-- The rows are those of the public files, each once. -/
structure RowsOf (m : Machine) (stdout : Except AuditError Bytes) (d : Disk Entry)
    (rows : List ManifestRow) : Prop where
  readable : Readable stdout d
  nodup : (rows.map ManifestRow.path).Nodup
  published : ∀ row, row ∈ rows ↔
    ∃ path content, Published stdout d path content ∧ row = fileRow m.toSystem path content

theorem addRow_ok {rows rows' : List ManifestRow} {file : String × Bytes} :
    addRow m rows file = .ok rows' ↔ file.1 ∉ rows.map ManifestRow.path ∧
      rows' = rows ++ [fileRow m.toSystem file.1 file.2] := by
  rw [addRow, guard_eq_ok, Except.ok.injEq, eq_comm (a := rows')]

/-- The row that an item gives, if it gives one. -/
def publicRow (m : Machine) (d : Disk Entry) (item : Bytes) :
    Except AuditError (Option ManifestRow) := do
  let found ← publicFile m d item
  .ok (found.map fun file => fileRow m.toSystem file.1 file.2)

theorem publicRow_ok {d : Disk Entry} {item : Bytes} {o : Option ManifestRow} :
    publicRow m d item = .ok o ↔ ∃ found, publicFile m d item = .ok found ∧
      found.map (fun file => fileRow m.toSystem file.1 file.2) = o := by
  rw [publicRow, bind_eq_ok]
  simp only [Except.ok.injEq]

theorem forPublic_addRow {stdout : Except AuditError Bytes} {d : Disk Entry}
    {rows : List ManifestRow} (h : forPublic m (addRow m) stdout d [] = .ok rows) :
    RowsOf m stdout d rows := by
  rw [forPublic, bind_eq_ok] at h
  obtain ⟨bytes, rfl, h⟩ := h
  have hstep : ∀ item ∈ listedItems bytes, ∀ st st' : List ManifestRow,
      (do
        let found ← publicFile m d item
        match found with
        | none => .ok st
        | some file => addRow m st file) = .ok st' ↔
      ∃ o, publicRow m d item = .ok o ∧
        (∀ row, o = some row → row.path ∉ st.map ManifestRow.path) ∧ st' = st ++ o.toList := by
    intro item _ st st'
    simp only [bind_eq_ok, publicRow_ok]
    constructor
    · rintro ⟨found, hfound, hst⟩
      refine ⟨_, ⟨found, hfound, rfl⟩, ?_⟩
      cases found with
      | none =>
        cases hst
        exact ⟨fun row hrow => (Option.some_ne_none row hrow.symm).elim, (List.append_nil st).symm⟩
      | some file =>
        obtain ⟨hnew, rfl⟩ := addRow_ok.mp hst
        refine ⟨?_, rfl⟩
        rintro row hrow
        cases hrow
        exact hnew
    · rintro ⟨o, ⟨found, hfound, rfl⟩, hnew, rfl⟩
      refine ⟨found, hfound, ?_⟩
      cases found with
      | none => exact congrArg Except.ok (List.append_nil st).symm
      | some file => exact addRow_ok.mpr ⟨hnew _ rfl, rfl⟩
  have hempty : (([] : List ManifestRow).map ManifestRow.path).Nodup := List.nodup_nil
  obtain ⟨os, hos, rfl, hnodup⟩ := (DistinctListings.foldlM_distinct_iff hstep hempty).mp h
  rw [List.nil_append] at hnodup ⊢
  constructor
  case readable =>
    rw [readable_iff (m := m)]
    intro item hitem
    obtain ⟨o, -, ho⟩ := forall₂_exists_left hos hitem
    obtain ⟨found, hfound, -⟩ := publicRow_ok.mp ho
    exact ⟨found, hfound⟩
  case nodup => exact hnodup
  case published =>
    intro row
    rw [List.reduceOption_mem_iff]
    constructor
    · intro hrow
      obtain ⟨item, hitem, ho⟩ := forall₂_exists_right hos hrow
      obtain ⟨found, hfound, hsome⟩ := publicRow_ok.mp ho
      obtain ⟨⟨path, content⟩, rfl, rfl⟩ := Option.map_eq_some_iff.mp hsome
      exact ⟨path, content, publicFile_published.mp ⟨item, hitem, hfound⟩, rfl⟩
    · rintro ⟨path, content, hpublished, rfl⟩
      obtain ⟨item, hitem, hfound⟩ := (publicFile_published (m := m)).mpr hpublished
      obtain ⟨o, hmem, ho⟩ := forall₂_exists_left hos hitem
      obtain ⟨found, hfound', rfl⟩ := publicRow_ok.mp ho
      rw [hfound, Except.ok.injEq] at hfound'
      rw [← hfound'] at hmem
      exact hmem

/-! ## The tables of the verification -/

/-- The table has the public files with their contents. -/
structure TableOf (stdout : Except AuditError Bytes) (d : Disk Entry)
    (table : List (String × Bytes)) : Prop where
  nodup : (table.map Prod.fst).Nodup
  published : ∀ path content, (path, content) ∈ table ↔ Published stdout d path content

theorem forPublic_set {stdout : Except AuditError Bytes} {d : Disk Entry}
    {table : List (String × Bytes)}
    (h : forPublic m (fun table file => .ok (set table file.1 file.2)) stdout d [] = .ok table) :
    TableOf stdout d table := by
  rw [forPublic, bind_eq_ok] at h
  obtain ⟨bytes, rfl, h⟩ := h
  -- the entries so far are those of the items that were read
  let Inv := fun (done : List Bytes) (table : List (String × Bytes)) =>
    (table.map Prod.fst).Nodup ∧ ∀ path content, table.lookup path = some content ↔
      ∃ item ∈ done, publicFile m d item = .ok (some (path, content))
  have hempty : Inv [] [] := ⟨List.nodup_nil, fun path content => by simp⟩
  have hinv : Inv ([] ++ listedItems bytes) table := by
    refine foldlM_invariant Inv ?_ [] hempty h
    rintro done st item st' ⟨hnodup, hentries⟩ hstep
    rw [bind_eq_ok] at hstep
    obtain ⟨found, hfound, hset⟩ := hstep
    cases found with
    | none =>
      cases hset
      refine ⟨hnodup, fun path content => (hentries path content).trans ?_⟩
      simp [hfound]
    | some file =>
      obtain ⟨name, held⟩ := file
      cases hset
      refine ⟨nodup_set hnodup _ _, fun path content => ?_⟩
      rw [lookup_set]
      split
      · rename_i hname
        subst hname
        constructor
        · intro hheld
          cases hheld
          exact ⟨item, List.mem_append_right _ (List.mem_singleton.mpr rfl), hfound⟩
        · -- the file of a name does not depend on the item
          rintro ⟨other, -, hother⟩
          have hheld := (publicFile_entry hfound).symm.trans (publicFile_entry hother)
          cases hheld
          rfl
      · rename_i hname
        rw [hentries path content]
        constructor
        · rintro ⟨other, hmem, hother⟩
          exact ⟨other, List.mem_append_left _ hmem, hother⟩
        · rintro ⟨other, hmem, hother⟩
          rcases List.mem_append.mp hmem with hmem | hmem
          · exact ⟨other, hmem, hother⟩
          · rw [List.mem_singleton.mp hmem, hfound] at hother
            cases hother
            exact absurd rfl hname
  rw [List.nil_append] at hinv
  refine ⟨hinv.1, fun path content => ?_⟩
  rw [← publicFile_published (m := m), ← hinv.2 path content]
  exact ⟨lookup_of_mem hinv.1, mem_of_lookup⟩

theorem TableOf.mem_keys {stdout : Except AuditError Bytes} {d : Disk Entry}
    {table : List (String × Bytes)} (h : TableOf stdout d table) {path : String} :
    path ∈ table.map Prod.fst ↔ ∃ content, Published stdout d path content := by
  simp only [List.mem_map, Prod.exists, exists_and_right, exists_eq_right, h.published]

theorem forPublic_set_ok_iff {stdout : Except AuditError Bytes} {d : Disk Entry} :
    (∃ table, forPublic m (fun table file => .ok (set table file.1 file.2)) stdout d [] =
      .ok table) ↔ Readable stdout d := by
  have hstep : ∀ item (st st' : List (String × Bytes)),
      (do
        let found ← publicFile m d item
        match found with
        | none => .ok st
        | some file => .ok (set st file.1 file.2)) = .ok st' ↔
      ∃ found, publicFile m d item = .ok found ∧
        st' = found.elim st fun file => set st file.1 file.2 := by
    intro item st st'
    rw [bind_eq_ok]
    refine exists_congr fun found => and_congr_right fun _ => ?_
    cases found with
    | none => exact (Except.ok.injEq ..).to_iff.trans eq_comm
    | some file => exact (Except.ok.injEq ..).to_iff.trans eq_comm
  cases stdout with
  | error err =>
    constructor
    · rintro ⟨table, h⟩
      cases h
    · rintro ⟨bytes, h, -⟩
      cases h
  | ok bytes =>
    rw [readable_iff (m := m)]
    constructor
    · rintro ⟨table, h⟩ item hitem
      obtain ⟨os, hos, -⟩ := (foldlM_ok_iff fun item _ st st' => hstep item st st').mp h
      obtain ⟨o, -, ho⟩ := forall₂_exists_left hos hitem
      exact ⟨o, ho⟩
    · intro hall
      obtain ⟨os, hos⟩ := exists_forall₂ hall
      exact ⟨_, (foldlM_ok_iff fun item _ st st' => hstep item st st').mpr ⟨os, hos, rfl⟩⟩

end SourceManifest
