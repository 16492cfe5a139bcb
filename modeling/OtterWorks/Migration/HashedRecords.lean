import OtterWorks.Migration.HashAgreement

namespace OtterWorks.Migration

section

variable {codecs : Codecs} {zeroPads : Bool} {specs done : List ColumnSpec} {spec : ColumnSpec} {record : Raw}
  {names : List (String × ColumnSpec)} {rec rec' : ConvertedColumns} {key : Key} {values texts : Fields} {n : String}

/-- What `convert_record` has filled in of the columns done: the last specification of each name has made the
name's value and its text. -/
structure Named (codecs : Codecs) (record : Raw) (done : List ColumnSpec) (names : List (String × ColumnSpec))
    (rec : ConvertedColumns) : Prop where
  covers : ∀ spec ∈ done, ∃ last, names.lookup spec.name = some last
  entry : ∀ n spec, names.lookup n = some spec → spec ∈ done ∧ spec.name = n ∧ ∃ value source,
    convertField codecs spec (spec.field.slice record) = .ok (value, source) ∧
      rec.values.lookup n = some value ∧ rec.sourceText.lookup n = some source
  made : ∀ row ∈ rec.values, ∃ spec ∈ done, spec.name = row.1 ∧
    ∃ source, convertField codecs spec (spec.field.slice record) = .ok (row.2, source)
  distinct : (rec.values.map Prod.fst).Nodup

theorem mem_assign {κ β : Type} [DecidableEq κ] {k : κ} {v : β} {rows : List (κ × β)} {row : κ × β}
    (h : row ∈ assign k v rows) : row = (k, v) ∨ row ∈ rows := by
  induction rows with
  | nil => exact Or.inl (List.mem_singleton.mp h)
  | cons first rows ih =>
    by_cases here : first.1 = k
    · rw [assign, if_pos here] at h
      rcases List.mem_cons.mp h with new | old
      · exact Or.inl new
      · exact Or.inr (List.mem_cons_of_mem _ old)
    · rw [assign, if_neg here] at h
      rcases List.mem_cons.mp h with old | later
      · exact Or.inr (old ▸ List.mem_cons_self ..)
      · exact (ih later).imp_right (List.mem_cons_of_mem _)

theorem Named.column (inv : Named codecs record done names rec) (h : convertColumn codecs record rec spec = .ok rec') :
    Named codecs record (done ++ [spec]) (assign spec.name spec names) rec' := by
  unfold convertColumn at h
  split at h
  next => cases h
  next value source made =>
    cases h
    refine ⟨?_, ?_, ?_, nodup_keys_assign inv.distinct⟩
    · intro other hother
      by_cases same : other.name = spec.name
      · exact ⟨spec, by rw [same, lookup_assign_self]⟩
      · rw [lookup_assign_ne same]
        rcases List.mem_append.mp hother with old | new
        · exact inv.covers other old
        · exact absurd (congrArg ColumnSpec.name (List.mem_singleton.mp new)) same
    · intro n found hfound
      by_cases same : n = spec.name
      · subst same
        rw [lookup_assign_self] at hfound
        cases hfound
        exact ⟨by simp, rfl, value, source, made, lookup_assign_self, lookup_assign_self⟩
      · rw [lookup_assign_ne same] at hfound
        obtain ⟨old, named, v, t, converted, hv, ht⟩ := inv.entry n found hfound
        exact ⟨List.mem_append_left _ old, named, v, t, converted, by rw [lookup_assign_ne same, hv],
          by rw [lookup_assign_ne same, ht]⟩
    · intro row hrow
      rcases mem_assign hrow with rfl | old
      · exact ⟨spec, by simp, rfl, source, made⟩
      · obtain ⟨other, hother, named, converted⟩ := inv.made row old
        exact ⟨other, List.mem_append_left _ hother, named, converted⟩

theorem Named.columns (inv : Named codecs record done names rec)
    (h : specs.foldlM (convertColumn codecs record) rec = .ok rec') :
    Named codecs record (done ++ specs) (specs.foldl (fun names spec => assign spec.name spec names) names) rec' := by
  induction specs generalizing done names rec with
  | nil =>
    cases Except.ok.inj h
    simpa using inv
  | cons spec specs ih =>
    rw [List.foldlM_cons] at h
    obtain ⟨next, first, rest⟩ := bind_ok h
    have later := ih (inv.column first) rest
    rw [List.append_assoc] at later
    exact later

/-- An accepted record has a value and a text for every name, made by the name's last specification. -/
theorem named_of_ok (h : convertRecord codecs specs record = .ok key values texts) :
    Named codecs record specs (byName specs) ⟨values, texts⟩ := by
  have start : Named codecs record [] [] ⟨[], []⟩ :=
    { covers := fun _ h => absurd h List.not_mem_nil
      entry := fun _ _ h => nomatch h
      made := fun _ h => absurd h List.not_mem_nil
      distinct := List.nodup_nil }
  unfold convertRecord at h
  split at h
  next => cases h
  next =>
    split at h
    next rec made =>
      cases h
      exact start.columns made
    next => cases h
    next => cases h

theorem timestamp12_of_ok {raw : Bytes} {s : Text} {source : Value}
    (h : convertField codecs spec raw = .ok (.timestamp12 s, source)) : spec.kind = .timestamp12 := by
  unfold convertField at h
  cases kind : spec.kind with
  | timestamp12 => rfl
  | binary =>
    simp only [kind] at h
    cases h
  | char =>
    simp only [kind] at h
    obtain ⟨s, h⟩ := decoded_ok h
    simp only [convertChar] at h
    split at h
    next => cases h
    next =>
      split at h
      next => cases h
      next => cases h
  | date8 =>
    simp only [kind] at h
    obtain ⟨s, h⟩ := decoded_ok h
    unfold convertDate8 at h
    split at h
    next => cases h
    next =>
      split at h
      next => cases h
      next => cases h
  | int =>
    simp only [kind] at h
    obtain ⟨n, _, same, _⟩ := convertInt_ok h
    cases same
  | decimal =>
    simp only [kind] at h
    obtain ⟨_, _, _, _, _, same, _⟩ := convertDecimal_ok h
    cases same

def targetColumn (row : Fields) (column : String × Value) : Fields :=
  let row := assign column.1 column.2 row
  match column.2 with
  | .timestamp12 s => assign (nanosTail column.1) (.int ((timestamp12Tail s).getD 0)) row
  | _ => row

theorem targetRow_eq (values : Fields) : targetRow values = values.foldl targetColumn [] := rfl

theorem lookup_targetColumn_ne {row : Fields} {column : String × Value} (other : n ≠ column.1)
    (tail : ∀ s, column.2 = .timestamp12 s → nanosTail column.1 ≠ n) :
    (targetColumn row column).lookup n = row.lookup n := by
  unfold targetColumn
  split
  next s stamp => rw [lookup_assign_ne (Ne.symm (tail s stamp)), lookup_assign_ne other]
  next => rw [lookup_assign_ne other]

theorem lookup_targetColumn_self {row : Fields} {column : String × Value}
    (tail : ∀ s, column.2 = .timestamp12 s → nanosTail column.1 ≠ column.1) :
    (targetColumn row column).lookup column.1 = some column.2 := by
  unfold targetColumn
  split
  next s stamp => rw [lookup_assign_ne (Ne.symm (tail s stamp)), lookup_assign_self]
  next => rw [lookup_assign_self]

/-- A column that no timestamp's tail is named like is in the target row as it was converted. -/
theorem lookup_targetRow {value : Value} (distinct : (values.map Prod.fst).Nodup) (here : values.lookup n = some value)
    (tails : ∀ row ∈ values, ∀ s, row.2 = .timestamp12 s → nanosTail row.1 ≠ n) :
    (targetRow values).lookup n = some value := by
  rw [targetRow_eq]
  generalize ([] : Fields) = start
  induction values generalizing start with
  | nil => cases here
  | cons column values ih =>
    obtain ⟨fresh, distinctRest⟩ := List.nodup_cons.mp distinct
    have rest : ∀ row ∈ values, ∀ s, row.2 = .timestamp12 s → nanosTail row.1 ≠ n :=
      fun row hrow => tails row (List.mem_cons_of_mem _ hrow)
    have tailHere := tails column (List.mem_cons_self ..)
    rw [List.foldl_cons]
    by_cases same : n = column.1
    · subst same
      have found : column.2 = value := by
        rw [← Prod.mk.eta (p := column), List.lookup_cons_self] at here
        exact Option.some.inj here
      have kept : ∀ (rows : Fields) (row : Fields), column.1 ∉ rows.map Prod.fst →
          (∀ r ∈ rows, ∀ s, r.2 = .timestamp12 s → nanosTail r.1 ≠ column.1) →
          (rows.foldl targetColumn row).lookup column.1 = row.lookup column.1 := by
        intro rows
        induction rows with
        | nil => exact fun _ _ _ => rfl
        | cons r rows ih =>
          intro row absent free
          rw [List.map_cons, List.mem_cons, not_or] at absent
          rw [List.foldl_cons, ih _ absent.2 fun x hx => free x (List.mem_cons_of_mem _ hx),
            lookup_targetColumn_ne absent.1 (free r (List.mem_cons_self ..))]
      rw [kept values _ fresh rest, lookup_targetColumn_self tailHere, found]
    · have later : values.lookup n = some value := by
        obtain ⟨name, v⟩ := column
        have miss : (n == name) = false := by simpa using same
        simpa only [List.lookup_cons, miss] using here
      exact ih distinctRest later rest _

/-- Texts made column by column, on two sides. -/
theorem pair_columns {columns : List String} {f g : String → Option Text} {P : String → Prop}
    (each : ∀ n ∈ columns, ∃ a b, f n = some a ∧ g n = some b ∧ b.length ≤ a.length ∧ (a = b ↔ P n)) :
    ∃ as bs, columns.mapM f = some as ∧ columns.mapM g = some bs ∧
      List.Forall₂ (fun a b : Text => b.length ≤ a.length) as bs ∧ (as = bs ↔ ∀ n ∈ columns, P n) := by
  induction columns with
  | nil => exact ⟨[], [], rfl, rfl, .nil, by simp⟩
  | cons n columns ih =>
    obtain ⟨a, b, ha, hb, shorter, agree⟩ := each n (List.mem_cons_self ..)
    obtain ⟨as, bs, has, hbs, rest, agreeRest⟩ := ih fun x hx => each x (List.mem_cons_of_mem _ hx)
    refine ⟨a :: as, b :: bs, ?_, ?_, .cons shorter rest, ?_⟩
    · simp [List.mapM_cons, ha, has]
    · simp [List.mapM_cons, hb, hbs]
    · rw [List.cons.injEq, agree, agreeRest, List.forall_mem_cons]

variable {t : HashedColumns}

/-- The columns of the hash as the conversion leaves them. -/
def AllUnchanged (zeroPads : Bool) (t : HashedColumns) (texts : Fields) (n : String) : Prop :=
  ∀ spec source, (byName t.specs).lookup n = some spec → texts.lookup n = some source →
    Unchanged zeroPads spec source

theorem columns_compare (zeroPads : Bool)
    (tails : ∀ spec ∈ t.specs, spec.kind = .timestamp12 → nanosTail spec.name ∉ t.hashColumns)
    (accepted : convertRecord codecs t.specs record = .ok key values texts) (hn : n ∈ t.hashColumns) :
    ∃ a b, sourceText zeroPads t texts n = some a ∧
      targetText zeroPads t (targetRow values) n = some b ∧ b.length ≤ a.length ∧
      (a = b ↔ AllUnchanged zeroPads t texts n) := by
  have inv := named_of_ok accepted
  obtain ⟨named, hnamed, rfl⟩ := List.mem_map.mp (t.hash_named n hn)
  obtain ⟨spec, last⟩ := inv.covers named hnamed
  obtain ⟨_, name, value, source, converted, hvalue, hsource⟩ := inv.entry _ spec last
  have free : ∀ row ∈ values, ∀ s, row.2 = .timestamp12 s → nanosTail row.1 ≠ named.name := by
    rintro row hrow s stamp same
    obtain ⟨other, hother, hname, source', hconverted⟩ := inv.made row hrow
    rw [stamp] at hconverted
    apply tails other hother (timestamp12_of_ok hconverted)
    rw [hname, same]
    exact hn
  have inRow := lookup_targetRow inv.distinct hvalue free
  obtain ⟨a, b, ha, hb, shorter, agree⟩ := compares_of_ok zeroPads converted
  refine ⟨a, b, ?_, ?_, shorter, ?_⟩
  · simp only [sourceText, hsource, last]
    exact ha
  · simp only [targetText, last]
    change renderTargetColumn zeroPads (targetRow values) spec = some b
    rw [renderTargetColumn, name, inRow]
    exact hb
  · rw [agree]
    constructor
    · intro unchanged spec' source' hspec hsource'
      cases Option.some.inj (last.symm.trans hspec)
      cases Option.some.inj (hsource.symm.trans hsource')
      exact unchanged
    · exact fun all => all spec source last hsource

/-- The two hash inputs of an accepted record are the same exactly when the conversion changed no column of the
hash; and records are told apart by their inputs as long as one of them has no separator in its texts. -/
theorem business_hash_agrees (codecs : Codecs) (zeroPads : Bool) (t : HashedColumns)
    (tails : ∀ spec ∈ t.specs, spec.kind = .timestamp12 → nanosTail spec.name ∉ t.hashColumns)
    (record : Raw) (key : Key) (values texts : Fields)
    (accepted : convertRecord codecs t.specs record = .ok key values texts) :
    ∃ input target, sourceInput zeroPads t texts = some input ∧
      targetInput zeroPads t (targetRow values) = some target ∧
      (target = input ↔ ∀ n ∈ t.hashColumns, AllUnchanged zeroPads t texts n) ∧
      (∀ sha256 : Bytes → Hash, (sha256 (encodeText target) = sha256 (encodeText input) → target = input) →
        (targetHash sha256 zeroPads t (targetRow values) = sourceHash sha256 zeroPads t texts ↔
          ∀ n ∈ t.hashColumns, AllUnchanged zeroPads t texts n)) ∧
      ∀ record' key' values' texts', convertRecord codecs t.specs record' = .ok key' values' texts' →
        ∃ columns columns', t.hashColumns.mapM (sourceText zeroPads t texts) = some columns ∧
          t.hashColumns.mapM (sourceText zeroPads t texts') = some columns' ∧
          ((∀ column ∈ columns, '|' ∉ column) →
            (sourceInput zeroPads t texts = sourceInput zeroPads t texts' ↔ columns = columns')) := by
  obtain ⟨as, bs, has, hbs, shorter, agree⟩ :=
    pair_columns fun n hn => columns_compare zeroPads tails accepted hn
  have inputs : ['|'].intercalate bs = ['|'].intercalate as ↔ ∀ n ∈ t.hashColumns, AllUnchanged zeroPads t texts n := by
    rw [← agree, eq_comm]
    exact intercalate_eq_iff_of_length_le shorter
  refine ⟨['|'].intercalate as, ['|'].intercalate bs, ?_, ?_, inputs, ?_, ?_⟩
  · rw [sourceInput, has, Option.map_some]
  · rw [targetInput, hbs, Option.map_some]
  · intro sha256 apart
    rw [targetHash, sourceHash, targetInput, sourceInput, has, hbs, ← inputs]
    simp only [Option.map_some, Option.some.injEq]
    exact ⟨apart, fun same => by rw [same]⟩
  · intro record' key' values' texts' accepted'
    obtain ⟨as', _, has', _⟩ := pair_columns fun n hn => columns_compare zeroPads tails accepted' hn
    refine ⟨as, as', has, has', fun plain => ?_⟩
    have lengths : as.length = as'.length :=
      ((mapM_some.mp has).length_eq).symm.trans (mapM_some.mp has').length_eq
    rw [sourceInput, sourceInput, has, has']
    simp only [Option.map_some, Option.some.injEq]
    exact intercalate_eq_iff lengths plain

end

/-- Every byte is the character of its number. -/
def latin1 : Codecs := fun _ => some fun raw => .ok (raw.map fun b => Char.ofNat b.toNat)

def asciiBytes (s : String) : Bytes := (text s).map fun c => UInt8.ofNat c.toNat

/-- A display column that is no decimal. -/
def textColumn (name : String) (kind : Kind) (offset length : Nat) (isKey trim : Bool) (plain : kind ≠ .decimal) :
    ColumnSpec where
  name := name
  field := ⟨.display, offset, length, 0⟩
  targetType := "CHAR"
  kind := kind
  isKey := isKey
  encoding := "latin-1"
  trim := trim
  valueMap := []
  targetPrecision := 0
  targetScale := 0
  targetLength := 0
  precision_le h := absurd h plain
  scale_eq h := absurd h plain

def archiveColumns : HashedColumns where
  specs := [textColumn "ARCH_KEY" .char 0 3 true true Kind.char_ne_decimal, textColumn "DOC_ID" .char 3 3 false false Kind.char_ne_decimal,
    textColumn "OWNER_NAME" .char 6 3 false false Kind.char_ne_decimal]
  hashColumns := ["ARCH_KEY", "DOC_ID", "OWNER_NAME"]
  hash_named := by decide

def dateColumns : HashedColumns where
  specs := [textColumn "DISPOSITION_DT" .date8 0 9 false false Kind.date8_ne_decimal]
  hashColumns := ["DISPOSITION_DT"]
  hash_named := by decide

def stampColumns : HashedColumns where
  specs := [textColumn "EVENT_TS_NANOS_TAIL" .int 0 1 false false Kind.int_ne_decimal,
    textColumn "EVENT_TS" .timestamp12 1 32 false false Kind.timestamp12_ne_decimal]
  hashColumns := ["EVENT_TS_NANOS_TAIL"]
  hash_named := by decide

def archiveTexts (key doc owner : String) : Fields :=
  [("ARCH_KEY", .text (text key)), ("DOC_ID", .text (text doc)), ("OWNER_NAME", .text (text owner))]

theorem archive_key_kept :
    ∃ input, sourceInput true archiveColumns (archiveTexts "K-1" "d  " "o  ") = some input ∧
      targetInput true archiveColumns (targetRow (archiveTexts "K-1" "d  " "o  ")) = some input := by
  obtain ⟨input, target, hinput, htarget, agree, _⟩ :=
    business_hash_agrees latin1 true archiveColumns (by decide) (asciiBytes "K-1d  o  ") (text "K-1")
      (archiveTexts "K-1" "d  " "o  ") (archiveTexts "K-1" "d  " "o  ") rfl
  refine ⟨input, hinput, ?_⟩
  rw [htarget, agree.mpr]
  intro n hn spec source last here
  simp only [archiveColumns, List.mem_cons, List.not_mem_nil, or_false] at hn
  rcases hn with rfl | rfl | rfl
  · cases Option.some.inj last
    cases Option.some.inj here
    exact fun lost => lost.2.2.2 rfl
  · cases Option.some.inj last
    cases Option.some.inj here
    exact fun lost => absurd lost.1 (by decide)
  · cases Option.some.inj last
    cases Option.some.inj here
    exact fun lost => absurd lost.1 (by decide)

/-- Two records of different texts share a hash input; and a date followed by a line break, and a column that
bears the name of a timestamp's tail, are accepted and rendered otherwise on the target's side. -/
theorem hash_input_shared :
    (∃ values values',
      convertRecord latin1 archiveColumns.specs (asciiBytes "K-1a|bc  ") =
        .ok (text "K-1") values (archiveTexts "K-1" "a|b" "c  ") ∧
      convertRecord latin1 archiveColumns.specs (asciiBytes "K-1a  b|c") =
        .ok (text "K-1") values' (archiveTexts "K-1" "a  " "b|c") ∧
      sourceInput true archiveColumns (archiveTexts "K-1" "a|b" "c  ") = some (text "K-1|a|b|c") ∧
      sourceInput true archiveColumns (archiveTexts "K-1" "a  " "b|c") = some (text "K-1|a|b|c")) ∧
    (∃ values texts, convertRecord latin1 dateColumns.specs (asciiBytes "20200201\n") = .ok [] values texts ∧
      sourceInput true dateColumns texts = some (text "20200201\n") ∧
      targetInput true dateColumns (targetRow values) = some (text "20200201")) ∧
    ∃ values texts,
      convertRecord latin1 stampColumns.specs (asciiBytes "72020-02-01-10.15.30.123456789012") = .ok [] values texts ∧
      sourceInput true stampColumns texts = some (text "7") ∧
      targetInput true stampColumns (targetRow values) = some (text "89012") := by
  refine ⟨⟨_, _, rfl, rfl, rfl, rfl⟩, ⟨_, _, rfl, rfl, rfl⟩, ⟨_, _, rfl, rfl, rfl⟩⟩

end OtterWorks.Migration
