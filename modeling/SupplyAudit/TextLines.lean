import SupplyAudit.ByteWords

/-!
# Lines and separated fields

A text file is decoded from UTF-8, every line end in it becomes a line feed, and
it is read line by line. A line is split at the first places of a separator.
Lines that have no line end of their own are read as they were written.
-/

namespace TextLines

open ByteWords

/-! ## UTF-8 -/

def encodeText (text : String) : Bytes := text.toUTF8.data.toList

def decodeText (bytes : Bytes) : Option String := String.fromUTF8? ⟨bytes.toArray⟩

theorem decodeText_encodeText (text : String) : decodeText (encodeText text) = some text := by
  have hbytes : (⟨(encodeText text).toArray⟩ : ByteArray) = text.toByteArray := rfl
  rw [decodeText, hbytes, String.fromUTF8?, dif_pos text.isValidUTF8]
  rfl

theorem encodeText_decodeText {bytes : Bytes} {text : String} (h : decodeText bytes = some text) :
    encodeText text = bytes := by
  rw [decodeText, String.fromUTF8?] at h
  split at h
  · rw [← Option.some.inj h]
    rfl
  · cases h

theorem decodeText_injective {bytes bytes' : Bytes} {text : String}
    (h : decodeText bytes = some text) (h' : decodeText bytes' = some text) : bytes = bytes' :=
  (encodeText_decodeText h).symm.trans (encodeText_decodeText h')

/-! ## Lines -/

/-- Every line end becomes a line feed. -/
def universalNewlines : List Char → List Char
  | [] => []
  | '\r' :: '\n' :: rest => '\n' :: universalNewlines rest
  | '\r' :: rest => '\n' :: universalNewlines rest
  | c :: rest => c :: universalNewlines rest

/-- The lines of a text with their line feeds; the last one may lack it. -/
def fileLines : List Char → List (List Char)
  | [] => []
  | c :: rest =>
    if c = '\n' then [c] :: fileLines rest
    else match fileLines rest with
      | [] => [[c]]
      | line :: more => (c :: line) :: more

/-- `line.rstrip("\n")` -/
def stripNewlines (line : List Char) : List Char :=
  (line.reverse.dropWhile (· = '\n')).reverse

/-- The text has no line end. -/
def OneLine (text : List Char) : Prop := '\n' ∉ text ∧ '\r' ∉ text

instance (text : List Char) : Decidable (OneLine text) := inferInstanceAs (Decidable (_ ∧ _))

theorem OneLine.append {a b : List Char} (ha : OneLine a) (hb : OneLine b) : OneLine (a ++ b) := by
  simp only [OneLine, List.mem_append, not_or]
  exact ⟨⟨ha.1, hb.1⟩, ha.2, hb.2⟩

theorem universalNewlines_of_plain {text : List Char} (h : '\r' ∉ text) :
    universalNewlines text = text := by
  fun_induction universalNewlines text with
  | case1 => rfl
  | case2 rest ih => exact absurd List.mem_cons_self h
  | case3 rest hne ih => exact absurd List.mem_cons_self h
  | case4 c rest hne hcr ih => rw [ih fun hmem => h (List.mem_cons_of_mem _ hmem)]

theorem carriageReturn_universalNewlines (text : List Char) : '\r' ∉ universalNewlines text := by
  fun_induction universalNewlines text with
  | case1 => exact List.not_mem_nil
  | case2 rest ih => simpa using ih
  | case3 rest hne ih => simpa using ih
  | case4 c rest hne hcr ih =>
    intro hmem
    rcases List.mem_cons.mp hmem with rfl | hmem
    · exact hcr rfl
    · exact ih hmem

theorem fileLines_append {line : List Char} (h : '\n' ∉ line) (rest : List Char) :
    fileLines (line ++ '\n' :: rest) = (line ++ ['\n']) :: fileLines rest := by
  induction line with
  | nil => simp [fileLines]
  | cons c line ih =>
    have hc : c ≠ '\n' := fun heq => h (heq ▸ List.mem_cons_self)
    have hline : '\n' ∉ line := fun hmem => h (List.mem_cons_of_mem _ hmem)
    rw [List.cons_append, fileLines, if_neg hc, ih hline]
    rfl

/-- Lines that are written one after another are read again. -/
theorem fileLines_flatMap {lines : List (List Char)} (h : ∀ line ∈ lines, '\n' ∉ line) :
    fileLines (lines.flatMap (· ++ ['\n'])) = lines.map (· ++ ['\n']) := by
  induction lines with
  | nil => rfl
  | cons line rest ih =>
    obtain ⟨hline, hrest⟩ := List.forall_mem_cons.mp h
    rw [List.flatMap_cons, List.append_assoc, List.singleton_append, fileLines_append hline,
      ih hrest, List.map_cons]

/-- A line has a line feed only at its end. -/
theorem lineFeed_fileLines {text line : List Char} (h : line ∈ fileLines text) :
    ∃ body, '\n' ∉ body ∧ (line = body ∨ line = body ++ ['\n']) := by
  induction text generalizing line with
  | nil => cases h
  | cons c rest ih =>
    rw [fileLines] at h
    split at h
    · rename_i hc
      rcases List.mem_cons.mp h with rfl | h
      · exact ⟨[], List.not_mem_nil, Or.inr (by rw [hc]; rfl)⟩
      · exact ih h
    · rename_i hc
      have hcons : ∀ body : List Char, '\n' ∉ body → '\n' ∉ c :: body := by
        intro body hbody hmem
        rcases List.mem_cons.mp hmem with heq | hmem
        · exact hc heq.symm
        · exact hbody hmem
      split at h
      · rw [List.mem_singleton.mp h]
        exact ⟨[c], hcons [] List.not_mem_nil, Or.inl rfl⟩
      · rename_i first more hrest
        rw [hrest] at ih
        rcases List.mem_cons.mp h with rfl | h
        · obtain ⟨body, hbody, heq | heq⟩ := ih List.mem_cons_self
          · exact ⟨c :: body, hcons body hbody, Or.inl (heq ▸ rfl)⟩
          · exact ⟨c :: body, hcons body hbody, Or.inr (heq ▸ rfl)⟩
        · exact ih (List.mem_cons_of_mem _ h)

theorem mem_fileLines {text line : List Char} {c : Char} (h : line ∈ fileLines text)
    (hc : c ∈ line) : c ∈ text := by
  induction text generalizing line with
  | nil => cases h
  | cons d rest ih =>
    rw [fileLines] at h
    split at h
    · rcases List.mem_cons.mp h with rfl | h
      · exact List.mem_singleton.mp hc ▸ List.mem_cons_self
      · exact List.mem_cons_of_mem _ (ih h hc)
    · split at h
      · rw [List.mem_singleton.mp h] at hc
        exact List.mem_singleton.mp hc ▸ List.mem_cons_self
      · rename_i first more hrest
        rw [hrest] at ih
        rcases List.mem_cons.mp h with rfl | h
        · rcases List.mem_cons.mp hc with rfl | hc
          · exact List.mem_cons_self
          · exact List.mem_cons_of_mem _ (ih List.mem_cons_self hc)
        · exact List.mem_cons_of_mem _ (ih (List.mem_cons_of_mem _ h) hc)

theorem stripNewlines_plain {body : List Char} (h : '\n' ∉ body) : stripNewlines body = body := by
  have hkeep : body.reverse.dropWhile (· = '\n') = body.reverse := by
    cases hlast : body.reverse with
    | nil => rfl
    | cons c rest =>
      have hmem : c ∈ body := List.mem_reverse.mp (hlast ▸ List.mem_cons_self)
      have hc : ¬ decide (c = '\n') = true := by
        rw [decide_eq_true_eq]
        rintro rfl
        exact h hmem
      exact List.dropWhile_cons_of_neg hc
  rw [stripNewlines, hkeep, List.reverse_reverse]

theorem stripNewlines_concat {body : List Char} (h : '\n' ∉ body) :
    stripNewlines (body ++ ['\n']) = body := by
  have hdrop : stripNewlines (body ++ ['\n']) = stripNewlines body := by
    rw [stripNewlines, List.reverse_append, List.reverse_singleton, List.singleton_append,
      List.dropWhile_cons_of_pos (by simp)]
    rfl
  rw [hdrop, stripNewlines_plain h]

/-- What is left of a line is one line. -/
theorem oneLine_read {text line : List Char} (h : line ∈ fileLines (universalNewlines text)) :
    OneLine (stripNewlines line) := by
  obtain ⟨body, hbody, rfl | rfl⟩ := lineFeed_fileLines h
  · rw [stripNewlines_plain hbody]
    exact ⟨hbody, fun hmem => carriageReturn_universalNewlines text (mem_fileLines h hmem)⟩
  · rw [stripNewlines_concat hbody]
    exact ⟨hbody, fun hmem => carriageReturn_universalNewlines text
      (mem_fileLines h (List.mem_append_left _ hmem))⟩

/-! ## Separated fields -/

/-- The text before and after the first place of the separator. -/
def splitOnce (sep : List Char) : List Char → Option (List Char × List Char)
  | [] => none
  | c :: rest =>
    if sep.isPrefixOf (c :: rest) then some ([], (c :: rest).drop sep.length)
    else (splitOnce sep rest).map fun parts => (c :: parts.1, parts.2)

/-- `text.split(sep, n)` -/
def splitMost (sep : List Char) : Nat → List Char → List (List Char)
  | 0, text => [text]
  | n + 1, text =>
    match splitOnce sep text with
    | none => [text]
    | some (first, rest) => first :: splitMost sep n rest

/-- A field without the first character of the separator ends where the separator starts. -/
theorem splitOnce_append {c : Char} {sep field : List Char} (h : c ∉ field) (rest : List Char) :
    splitOnce (c :: sep) (field ++ (c :: sep ++ rest)) = some (field, rest) := by
  induction field with
  | nil =>
    have hsep : (c :: sep).isPrefixOf (c :: (sep ++ rest)) = true :=
      List.isPrefixOf_iff_prefix.mpr (List.prefix_append (c :: sep) rest)
    rw [List.nil_append, List.cons_append, splitOnce, if_pos hsep]
    have hdrop : (c :: sep ++ rest).drop (c :: sep).length = rest := List.drop_left
    rw [← List.cons_append, hdrop]
  | cons d field ih =>
    have hd : c ≠ d := fun heq => h (heq ▸ List.mem_cons_self)
    have hfield : c ∉ field := fun hmem => h (List.mem_cons_of_mem _ hmem)
    have hsep : ¬ (c :: sep).isPrefixOf (d :: (field ++ (c :: sep ++ rest))) = true := by
      rw [List.isPrefixOf_iff_prefix, List.cons_prefix_cons]
      exact fun heq => hd heq.1
    rw [List.cons_append, splitOnce, if_neg hsep, ih hfield]
    rfl

/-- Fields are read as they were joined; the last may contain the separator. -/
theorem splitMost_append {c : Char} {sep field : List Char} (h : c ∉ field) (n : Nat)
    (rest : List Char) : splitMost (c :: sep) (n + 1) (field ++ (c :: sep ++ rest)) =
      field :: splitMost (c :: sep) n rest := by
  rw [splitMost, splitOnce_append h]

theorem mem_splitOnce {sep text : List Char} {parts : List Char × List Char} {c : Char}
    (h : splitOnce sep text = some parts) (hc : c ∈ parts.1 ∨ c ∈ parts.2) : c ∈ text := by
  induction text generalizing parts with
  | nil => cases h
  | cons d rest ih =>
    rw [splitOnce] at h
    split at h
    · rw [← Option.some.inj h] at hc
      rcases hc with hc | hc
      · cases hc
      · exact List.mem_of_mem_drop hc
    · obtain ⟨more, hmore, rfl⟩ := Option.map_eq_some_iff.mp h
      rcases hc with hc | hc
      · rcases List.mem_cons.mp hc with rfl | hc
        · exact List.mem_cons_self
        · exact List.mem_cons_of_mem _ (ih hmore (Or.inl hc))
      · exact List.mem_cons_of_mem _ (ih hmore (Or.inr hc))

/-- The fields of a text are parts of it. -/
theorem mem_splitMost {sep text field : List Char} {n : Nat} {c : Char}
    (h : field ∈ splitMost sep n text) (hc : c ∈ field) : c ∈ text := by
  induction n generalizing text with
  | zero =>
    rw [List.mem_singleton.mp h] at hc
    exact hc
  | succ n ih =>
    rw [splitMost] at h
    split at h
    · rw [List.mem_singleton.mp h] at hc
      exact hc
    · rename_i first rest hsplit
      rcases List.mem_cons.mp h with rfl | h
      · exact mem_splitOnce hsplit (Or.inl hc)
      · exact mem_splitOnce hsplit (Or.inr (ih h))

end TextLines
