import SupplyAudit.SourceManifest

/-!
# A manifest against a later tree

The verification of a written manifest passes exactly on the trees that have the
same public files, with the same digests and sizes. A line end in the name of a
public file makes it fail on every tree that has the file.
-/

namespace ManifestAgreement

open ByteWords ScriptValues AuditFiles FallibleScan FileStore KeyedTable TextLines FileManifests
open SourceManifest

variable {m : Machine} {stdout : Except AuditError Bytes} {d : Disk Entry}

/-- The digest and the size of a content. -/
def stamp (m : Machine) (content : Bytes) : String × Int := (m.sha256 content, content.length)

def Stamped (m : Machine) (stdout : Except AuditError Bytes) (d : Disk Entry) (path : String)
    (entry : String × Int) : Prop :=
  ∃ content, Published stdout d path content ∧ entry = stamp m content

/-! ## Reading the lines -/

theorem readEntry_ok {listed listed' : Listed} {line : List Char × Nat} :
    readEntry m listed line = .ok listed' ↔ ∃ fields size, lineFields line.1 = .ok fields ∧
      fields.relative ∉ listed.map Prod.fst ∧ m.py.int fields.size = some size ∧
      listed' = listed ++ [(fields.relative, (fields.digest, size))] := by
  rw [readEntry, bind_eq_ok]
  constructor
  · rintro ⟨fields, hfields, h⟩
    rw [guard_eq_ok, bind_eq_ok] at h
    obtain ⟨hnew, size, hsize, h⟩ := h
    rw [raisePython_ok, PyText.parsed] at hsize
    cases hint : m.py.int fields.size with
    | none =>
      rw [hint] at hsize
      cases hsize
    | some value =>
      rw [hint] at hsize
      cases hsize
      exact ⟨fields, size, hfields, hnew, hint, (Except.ok.inj h).symm⟩
  · rintro ⟨fields, size, hfields, hnew, hint, rfl⟩
    refine ⟨fields, hfields, ?_⟩
    rw [if_neg hnew, PyText.parsed, hint]
    rfl

/-- What the manifest has of a row. -/
def rowEntry (row : ManifestRow) : String × (String × Int) := (row.path, (row.digest, row.size))

theorem readEntry_row {row : ManifestRow} (h : row.Plain) {listed : Listed} (n : Nat)
    (hnew : row.path ∉ listed.map Prod.fst) :
    readEntry m listed (row.chars ++ ['\n'], n) = .ok (listed ++ [rowEntry row]) :=
  readEntry_ok.mpr ⟨row.fields, row.size, lineFields_chars h, hnew, m.py.int_toString row.size, rfl⟩

/-- The rows are read one by one. -/
theorem readEntries_rows {rows : List ManifestRow} (hplain : ∀ row ∈ rows, row.Plain) (n : Nat)
    {listed : Listed} (hnodup : (listed.map Prod.fst ++ rows.map ManifestRow.path).Nodup) :
    ((rows.map fun row => row.chars ++ ['\n']).zipIdx n).foldlM (readEntry m) listed =
      .ok (listed ++ rows.map rowEntry) := by
  induction rows generalizing n listed with
  | nil => exact congrArg Except.ok (List.append_nil listed).symm
  | cons row rest ih =>
    obtain ⟨hrow, hrest⟩ := List.forall_mem_cons.mp hplain
    have hnew : row.path ∉ listed.map Prod.fst := fun hmem =>
      (List.nodup_append.mp hnodup).2.2 _ hmem _ List.mem_cons_self rfl
    have hnext : ((listed ++ [rowEntry row]).map Prod.fst ++ rest.map ManifestRow.path).Nodup := by
      rw [List.map_append, List.append_assoc]
      exact hnodup
    rw [List.map_cons, List.zipIdx_cons, List.foldlM_cons, readEntry_row hrow n hnew, bind_ok,
      ih hrest (n + 1) hnext, List.append_assoc]
    rfl

/-- Whatever the file says, the names that are read of it are one line. -/
theorem oneLine_listed {text : String} {listed : Listed}
    (h : ((readLines text).zipIdx 1).foldlM (readEntry m) [] = .ok listed) :
    ∀ path ∈ listed.map Prod.fst, OneLine path.toList := by
  let Inv := fun (done : List (List Char × Nat)) (listed : Listed) =>
    (∀ line ∈ done, line.1 ∈ readLines text) → ∀ path ∈ listed.map Prod.fst, OneLine path.toList
  have hempty : Inv [] [] := fun _ path hpath => absurd hpath List.not_mem_nil
  have hinv : Inv ([] ++ (readLines text).zipIdx 1) listed := by
    refine foldlM_invariant Inv ?_ [] hempty h
    intro done st line st' hst hstep hlines path hpath
    obtain ⟨fields, size, hfields, -, -, rfl⟩ := readEntry_ok.mp hstep
    rw [List.map_append, List.mem_append] at hpath
    rcases hpath with hpath | hpath
    · exact hst (fun line hline => hlines line (List.mem_append_left _ hline)) path hpath
    · rw [List.mem_singleton.mp hpath]
      exact oneLine_relative
        (hlines line (List.mem_append_right _ (List.mem_singleton.mpr rfl))) hfields
  refine hinv fun line hline => ?_
  exact List.fst_mem_of_mem_zipIdx hline

/-! ## What passes -/

theorem checkEntry_ok {listed : Listed} {file : String × Bytes} {u : Unit} :
    checkEntry m listed file = .ok u ↔ listed.lookup file.1 = some (stamp m file.2) := by
  rw [checkEntry]
  cases hfound : listed.lookup file.1 with
  | none => simp
  | some entry =>
    obtain ⟨digest, size⟩ := entry
    simp only [guard_eq_ok, not_not, and_true, Option.some.injEq, stamp, Prod.mk.injEq]
    exact ⟨fun h => ⟨h.2.symm, h.1.symm⟩, fun h => ⟨h.2.symm, h.1.symm⟩⟩

theorem mem_keys_listed {listed : Listed} {path : String} :
    path ∈ listed.map Prod.fst ↔ ∃ entry, listed.lookup path = some entry := by
  rw [← not_iff_not, ← lookup_eq_none_iff, Option.eq_none_iff_forall_ne_some, not_exists]

/-- With the manifest read, the files are compared as sets of names with stamps. -/
theorem verify_ok_iff {text : String} (htext : readText d outputName = .ok text) {listed : Listed}
    (hlisted : ((readLines text).zipIdx 1).foldlM (readEntry m) [] = .ok listed) {n : Nat} :
    verify m stdout d = .ok n ↔ n = listed.length ∧ Readable stdout d ∧
      ∀ path entry, listed.lookup path = some entry ↔ Stamped m stdout d path entry := by
  rw [verify, htext, bind_ok, hlisted, bind_ok, bind_eq_ok]
  constructor
  · rintro ⟨expected, hexpected, h⟩
    have htable := forPublic_set hexpected
    simp only [guard_eq_ok, not_or, not_not, List.filter_eq_nil_iff, decide_eq_true_eq] at h
    obtain ⟨⟨hmissing, hextra⟩, h⟩ := h
    rw [bind_eq_ok] at h
    obtain ⟨checks, hchecks, h⟩ := h
    refine ⟨(Except.ok.inj h).symm, forPublic_set_ok_iff.mp ⟨expected, hexpected⟩, ?_⟩
    have hstamps : ∀ path content, Published stdout d path content →
        listed.lookup path = some (stamp m content) := by
      intro path content hpublished
      obtain ⟨u, -, hcheck⟩ := mapM_ok_left hchecks ((htable.published path content).mpr hpublished)
      exact checkEntry_ok.mp hcheck
    intro path entry
    constructor
    · intro hfound
      obtain ⟨content, hpublished⟩ :=
        htable.mem_keys.mp (hextra path (mem_keys_listed.mpr ⟨entry, hfound⟩))
      rw [hstamps path content hpublished] at hfound
      exact ⟨content, hpublished, (Option.some.inj hfound).symm⟩
    · rintro ⟨content, hpublished, rfl⟩
      exact hstamps path content hpublished
  · rintro ⟨rfl, hreadable, hentries⟩
    obtain ⟨expected, hexpected⟩ := (forPublic_set_ok_iff (m := m)).mpr hreadable
    have htable := forPublic_set hexpected
    refine ⟨expected, hexpected, ?_⟩
    simp only [guard_eq_ok, not_or, not_not, List.filter_eq_nil_iff, decide_eq_true_eq]
    refine ⟨⟨?_, ?_⟩, ?_⟩
    · intro path hpath
      obtain ⟨content, hpublished⟩ := htable.mem_keys.mp hpath
      exact mem_keys_listed.mpr ⟨_, (hentries path _).mpr ⟨content, hpublished, rfl⟩⟩
    · intro path hpath
      obtain ⟨entry, hfound⟩ := mem_keys_listed.mp hpath
      obtain ⟨content, hpublished, -⟩ := (hentries path entry).mp hfound
      exact htable.mem_keys.mpr ⟨content, hpublished⟩
    · have hchecks : expected.mapM (checkEntry m listed) = .ok (expected.map fun _ => ()) := by
        refine mapM_ok_of fun file hfile => checkEntry_ok.mpr ?_
        exact (hentries file.1 _).mpr ⟨file.2, (htable.published file.1 file.2).mp hfile, rfl⟩
      rw [hchecks, bind_ok]

/-! ## What the update leaves -/

theorem update_cases (m : Machine) (stdout : Except AuditError Bytes) (d : Disk Entry) :
    (∃ rows, RowsOf m stdout d rows ∧ update m stdout d =
      (.ok rows.length, d.put outputName (.file (encodeText (manifestText rows))))) ∨
    ∃ e next, update m stdout d = (.error e, next) ∧ ∀ p ≠ partialName, next p = d p := by
  unfold SourceManifest.update
  cases hrows : forPublic m (addRow m) stdout d [] with
  | error e =>
    refine Or.inr ⟨e, d, ?_, fun _ _ => rfl⟩
    exact Action.bind_error (by rw [collectRows, hrows]) _
  | ok rows =>
    have hrun : collectRows m stdout d = (.ok rows, d) := by rw [collectRows, hrows]
    rw [Action.bind_ok hrun]
    have hperm : (rows.insertionSort ManifestRow.Precedes).Perm rows :=
      List.perm_insertionSort _ rows
    obtain ⟨hreadable, hnodup, hpublished⟩ := forPublic_addRow hrows
    obtain hstaged | ⟨e, next, hstaged, hkept⟩ := staged_writeTo m.faults partialName outputName
      (.file []) (.file (encodeText (manifestText (rows.insertionSort ManifestRow.Precedes))))
      m.writeFault d
    · refine Or.inl ⟨rows.insertionSort ManifestRow.Precedes, ⟨hreadable, ?_, ?_⟩, ?_⟩
      · exact (hperm.map ManifestRow.path).nodup_iff.mpr hnodup
      · exact fun row => hperm.mem_iff.trans (hpublished row)
      · exact Action.bind_ok hstaged _
    · exact Or.inr ⟨e, next, Action.bind_error hstaged _, hkept⟩

/-- The names of all public files are one line. -/
def OneLineNames (stdout : Except AuditError Bytes) (d : Disk Entry) : Prop :=
  ∀ path content, Published stdout d path content → OneLine path.toList

theorem plain_rows {rows : List ManifestRow} (hrows : RowsOf m stdout d rows)
    (hnames : OneLineNames stdout d) : ∀ row ∈ rows, row.Plain := by
  intro row hrow
  obtain ⟨path, content, hpublished, rfl⟩ := (hrows.published row).mp hrow
  exact plain_fileRow m.toSystem (hnames path content hpublished) content

theorem lookup_rows {rows : List ManifestRow} (hrows : RowsOf m stdout d rows) (path : String)
    (entry : String × Int) :
    (rows.map rowEntry).lookup path = some entry ↔ Stamped m stdout d path entry := by
  have hnodup : ((rows.map rowEntry).map Prod.fst).Nodup := by
    rw [List.map_map]
    exact hrows.nodup
  constructor
  · intro hfound
    obtain ⟨row, hrow, hentry⟩ := List.mem_map.mp (mem_of_lookup hfound)
    obtain ⟨name, content, hpublished, rfl⟩ := (hrows.published row).mp hrow
    cases hentry
    exact ⟨content, hpublished, rfl⟩
  · rintro ⟨content, hpublished, rfl⟩
    have hrow := (hrows.published _).mpr ⟨path, content, hpublished, rfl⟩
    exact lookup_of_mem hnodup (List.mem_map_of_mem hrow)

/-- The manifest of some rows, as it is read. -/
theorem verify_written {rows : List ManifestRow} (hrows : RowsOf m stdout d rows)
    (hnames : OneLineNames stdout d) {stdout' : Except AuditError Bytes} {later : Disk Entry}
    (hkept : later outputName = some (.file (encodeText (manifestText rows)))) {n : Nat} :
    verify m stdout' later = .ok n ↔ n = rows.length ∧ Readable stdout' later ∧
      ∀ path entry, Stamped m stdout d path entry ↔ Stamped m stdout' later path entry := by
  have hplain := plain_rows hrows hnames
  have htext : readText later outputName = .ok (manifestText rows) := by
    have hbytes : readBytes later outputName = .ok (encodeText (manifestText rows)) := by
      rw [readBytes, hkept]
      rfl
    rw [readText, hbytes, bind_ok, decodeText_encodeText]
  have hlisted : ((readLines (manifestText rows)).zipIdx 1).foldlM (readEntry m) [] =
      .ok (rows.map rowEntry) := by
    rw [readLines_manifestText hplain]
    exact readEntries_rows hplain 1 hrows.nodup
  rw [verify_ok_iff htext hlisted, List.length_map]
  simp only [lookup_rows hrows]

/-- A tree that has a public file whose name is not one line is refused. -/
theorem verify_line_end {path : String} {content : Bytes} (hpublished : Published stdout d path content)
    (hname : ¬ OneLine path.toList) : ∃ e, verify m stdout d = .error e := by
  cases hverify : verify m stdout d with
  | error e => exact ⟨e, rfl⟩
  | ok n =>
    exfalso
    have hparts := hverify
    rw [verify, bind_eq_ok] at hparts
    obtain ⟨text, htext, hparts⟩ := hparts
    rw [bind_eq_ok] at hparts
    obtain ⟨listed, hlisted, -⟩ := hparts
    obtain ⟨-, -, hentries⟩ := (verify_ok_iff htext hlisted).mp hverify
    have hfound := (hentries path _).mpr ⟨content, hpublished, rfl⟩
    exact hname (oneLine_listed hlisted path (mem_keys_listed.mpr ⟨_, hfound⟩))

/-- What the update and the verification of the source manifest come to. -/
structure RoundTrip (m : Machine) (stdout : Except AuditError Bytes) (d : Disk Entry) : Prop where
  /-- A written manifest passes on the trees with the same public files, by digest and size. -/
  verifies : ∀ n next, update m stdout d = (.ok n, next) → OneLineNames stdout d →
    ∀ stdout' later, later outputName = next outputName → ∀ k,
      verify m stdout' later = .ok k ↔ k = n ∧ Readable stdout' later ∧
        ∀ path entry, Stamped m stdout d path entry ↔ Stamped m stdout' later path entry
  /-- It passes at once, unless a name has a line end. -/
  again : ∀ n next, update m stdout d = (.ok n, next) →
    ((∃ k, verify m stdout next = .ok k) ↔ OneLineNames stdout d)
  /-- Only the manifest is touched, and a failed update does not touch it. -/
  kept : ∀ n next, update m stdout d = (.ok n, next) → ∀ p ≠ outputName, next p = d p
  fails : ∀ e next, update m stdout d = (.error e, next) → ∀ p ≠ partialName, next p = d p

theorem published_put {entry : Entry} {path : String} {content : Bytes} :
    Published stdout (d.put outputName entry) path content ↔ Published stdout d path content := by
  refine and_congr_right fun hne => ?_
  rw [Disk.put_other d entry hne]

theorem readable_put {entry : Entry} (h : Readable stdout d) :
    Readable stdout (d.put outputName entry) := by
  obtain ⟨bytes, hbytes, hall⟩ := h
  refine ⟨bytes, hbytes, fun item hitem => ?_⟩
  obtain ⟨path, hpath, hskipped⟩ := hall item hitem
  refine ⟨path, hpath, ?_⟩
  by_cases hout : path = outputName
  · exact Or.inl hout
  · rw [Disk.put_other d entry hout]
    exact hskipped

theorem source_manifest_round_trip (m : Machine) (stdout : Except AuditError Bytes)
    (d : Disk Entry) : RoundTrip m stdout d := by
  constructor
  case verifies =>
    intro n next h hnames stdout' later hlater k
    obtain ⟨rows, hrows, hupdate⟩ | ⟨e, next', hupdate, -⟩ := update_cases m stdout d
    · rw [hupdate, Prod.mk.injEq, Except.ok.injEq] at h
      obtain ⟨rfl, rfl⟩ := h
      rw [Disk.put_self] at hlater
      exact verify_written hrows hnames hlater
    · rw [hupdate] at h
      cases h
  case again =>
    intro n next h
    obtain ⟨rows, hrows, hupdate⟩ | ⟨e, next', hupdate, -⟩ := update_cases m stdout d
    · rw [hupdate, Prod.mk.injEq, Except.ok.injEq] at h
      obtain ⟨rfl, rfl⟩ := h
      constructor
      · rintro ⟨k, hk⟩ path content hpublished
        by_contra hname
        obtain ⟨e, he⟩ := verify_line_end (m := m) (published_put.mpr hpublished) hname
        rw [he] at hk
        cases hk
      · intro hnames
        refine ⟨_, (verify_written hrows hnames (Disk.put_self ..)).mpr
          ⟨rfl, readable_put hrows.readable, fun path entry => ?_⟩⟩
        refine exists_congr fun content => and_congr_left fun _ => ?_
        exact published_put.symm
    · rw [hupdate] at h
      cases h
  case kept =>
    intro n next h p hp
    obtain ⟨rows, hrows, hupdate⟩ | ⟨e, next', hupdate, -⟩ := update_cases m stdout d
    · rw [hupdate, Prod.mk.injEq] at h
      rw [← h.2]
      exact Disk.put_other d _ hp
    · rw [hupdate] at h
      cases h
  case fails =>
    intro e next h p hp
    obtain ⟨rows, hrows, hupdate⟩ | ⟨e', next', hupdate, hkept⟩ := update_cases m stdout d
    · rw [hupdate] at h
      cases h
    · rw [hupdate, Prod.mk.injEq] at h
      rw [← h.2]
      exact hkept p hp

end ManifestAgreement
