import OtterWorks.Migration.Sample
import OtterWorks.Migration.Sound

namespace OtterWorks.Migration

/-- What PURGE owes the source: every key it took away is audited there and archived under the business hash of its
one record, what the target's audit has as PURGED is gone, and reference tables keep their rows. -/
structure PurgeSafety (m : Manifest) (w₀ w : World) : Prop where
  archived : ∀ ts ∈ m.tables, ∀ k ∈ (w₀.source ts.name).rows, k ∉ (w.source ts.name).rows →
    k ∈ (w.source ts.name).audit ∧ Archived ts (w.target ts.name) k
  one_record : ∀ ts ∈ m.tables, ∀ k raw raw', Recorded ts (w.target ts.name).ranges (w.target ts.name).files k raw →
    Recorded ts (w.target ts.name).ranges (w.target ts.name).files k raw' → raw = raw'
  purged : ∀ (table : String) (k : Key), (w.target table).purgeAudit[k]? = some .purged → k ∉ (w.source table).rows
  reference : ∀ ts ∈ m.tables, ts.role = .reference → ∀ k ∈ (w₀.source ts.name).rows, k ∈ (w.source ts.name).rows

section

variable {m : Manifest} {w₀ w : World}

theorem Sound.purgeSafety (h : Sound m w₀ w) : PurgeSafety m w₀ w := by
  refine ⟨?_, ?_, ?_, ?_⟩
  · intro ts member k there gone
    have audited : k ∈ (w.source ts.name).audit := by
      rcases (h.kept ts.name k).mp there with still | audited
      · exact absurd still gone
      · exact audited
    obtain ⟨_, _, _, _, promoted⟩ := h.audited ts.name k audited
    exact ⟨audited, (h.traced ts member).promoted k promoted⟩
  · exact fun ts member k raw raw' one two => one.unique (h.filed ts member) two
  · exact fun table k status => (h.deletions table).gone k (h.purged table k status)
  · intro ts member role k there
    rcases (h.kept ts.name k).mp there with still | audited
    · exact still
    · obtain ⟨owner, known, same, data, _⟩ := h.audited ts.name k audited
      cases m.same_table known member same
      rw [role] at data
      cases data

/-- PURGE is safe over all executions, crashes and failed calls, if a PURGE on its own starts only where a guard
disagrees or VALIDATE's promotion has had every key that may be purged. -/
theorem purge_safe_always (initial : w₀.Initial)
    (run : m.Reaches (Drift.still.weather True) (PurgesReady m) w₀ w) : PurgeSafety m w₀ w :=
  ((Sound.kept_by Drift.still m w₀).reaches (.start m initial) run).purgeSafety

end

/-! A table with class totals. -/

def chargeBytes (n : Nat) : Bytes := (List.range 12).reverse.map fun i => UInt8.ofNat (n / 256 ^ i)

def chargeOf (bytes : Bytes) : Nat := bytes.foldl (fun n b => n * 256 + b.toNat) 0

def docValues (k c : UInt8) (charge : Nat) : Fields :=
  [("ARCH_KEY", .text (cardKey k)), ("RETENTION_CLASS", .text (cardKey c)), ("STORAGE_CHARGE", .decimal ⟨charge, -8⟩)]

def docConvert : Raw → Conversion
  | [] => .undecodable "empty record"
  | [k] => .malformed (cardKey k) ⟨"RETENTION_CLASS", "STRING_TRUNCATION", "record too short", [], some "22001"⟩
  | k :: c :: charge => .ok (cardKey k) (docValues k c (chargeOf charge)) (docValues k c (chargeOf charge))

def docUnload (row : SourceRow) : Except String Raw :=
  match row.key, row.columns.get "RETENTION_CLASS", row.columns.get "STORAGE_CHARGE" with
  | [k], .text [c], .decimal ⟨.ofNat n, -8⟩ =>
    if k.toNat < 256 then .ok (UInt8.ofNat k.toNat :: UInt8.ofNat c.toNat :: chargeBytes n)
    else .error "key does not fit 1 bytes"
  | _, _, _ => .error "value does not fit"

def docHash (values : Fields) : Hash :=
  ((values.get "ARCH_KEY").str ++ (values.get "RETENTION_CLASS").str).map (fun c => UInt8.ofNat c.toNat) ++
    match values.get "STORAGE_CHARGE" with
    | .decimal d => chargeBytes d.coeff.natAbs
    | _ => []

theorem docUnload_key (row : SourceRow) (raw : Raw) (h : docUnload row = .ok raw) :
    (docConvert raw).key = some row.key := by
  unfold docUnload at h
  split at h
  next k c n hkey _ _ =>
    split at h
    next small =>
      cases h
      rw [hkey]
      simp [docConvert, Conversion.key, cardKey, Nat.mod_eq_of_lt small]
    next => cases h
  next => cases h

theorem docConvert_key (raw : Raw) (k : Key) (values source : Fields) (h : docConvert raw = .ok k values source) :
    k ≠ [] ∧ (values.get "ARCH_KEY").str = k := by
  unfold docConvert at h
  split at h
  next => cases h
  next => cases h
  next =>
    cases h
    exact ⟨by simp [cardKey], rfl⟩

def docTable : TableSpec where
  name := "DOCARCH"
  order := 1
  role := .data
  keyColumn := "ARCH_KEY"
  hashColumns := ["ARCH_KEY", "RETENTION_CLASS", "STORAGE_CHARGE"]
  classTotals := some ⟨"RETENTION_CLASS", ["STORAGE_CHARGE"], none⟩
  parent := none
  selects _ := true
  foreignKeys _ := []
  unload := docUnload
  convert := docConvert
  sourceHash := docHash
  targetHash := docHash
  differingColumn _ _ := "STORAGE_CHARGE"
  valueMap := []
  refuses _ := none
  targetKey values := (values.get "ARCH_KEY").str
  archReferences _ := []
  unload_key := docUnload_key
  key_ne_nil raw k values source h := (docConvert_key raw k values source h).1

def docManifest : Manifest where
  tables := [docTable]
  purge := true
  sha256 := "docs"
  batch := .of 3 1 3 3 three_rows Nat.one_pos three_rows three_rows
  loadEngine := .serial
  recordsPerSlice := 1
  recordsPerSlice_pos := Nat.one_pos
  orders_nodup := by decide
  names_nodup := by decide
  parent_known := by simp [docTable]
  lookup_known := by simp [docTable]

def docRow (k c : Char) (charge : Nat) : Key × Fields :=
  ([k], [("ARCH_KEY", .text [k]), ("RETENTION_CLASS", .text [c]), ("STORAGE_CHARGE", .decimal ⟨charge, -8⟩)])

def chargeManifest : Manifest :=
  { docManifest with
    tables := [chargeTable]
    orders_nodup := by decide
    names_nodup := by decide
    parent_known := by simp [chargeTable]
    lookup_known := by simp [chargeTable] }

/-- The charge of B is one billionth: the source's total of class X has it, the target's cast to eight digits does not. -/
def chargeWorld : World := cardWorld [("DOCARCH", [chargeRow 'A' 'X' 0, chargeRow 'B' 'X' 1, chargeRow 'K' 'Y' 0])]

def calm : Turn World JobError := ⟨id, .returns⟩

def Schedule.inOrder : Schedule := ⟨fun keys => [keys], fun keys => by simp, id, id_perm, []⟩

/-- An execution that ends before its driver call number `n`, counted from 0. -/
def Execution.crashAt (verb : Verb) (n : Nat) : Execution :=
  ⟨verb, .inOrder, List.replicate n calm ++ [⟨id, .crashes⟩]⟩

def Execution.calm (verb : Verb) : Execution := ⟨verb, .inOrder, []⟩

/-- The state that executions one after another leave. -/
def Manifest.after (m : Manifest) (w : World) (es : List Execution) : World := es.foldl (fun w e => (e.run m w).2) w

theorem Manifest.reaches_after {m : Manifest} {W : Weather World} {allowed : World → Execution → Prop}
    (es : List Execution) (may : ∀ e ∈ es, e.Within W ∧ ∀ w, allowed w e) (w : World) :
    m.Reaches W allowed w (m.after w es) := by
  induction es generalizing w with
  | nil => exact .refl
  | cons e es ih =>
    obtain ⟨within, allowed⟩ := may e (List.mem_cons_self ..)
    have first : StepBy m.step (fun w e => e.Within W ∧ _) w (e.run m w).2 := ⟨e, ⟨within, allowed w⟩, rfl⟩
    exact .head first (ih (fun e' member => may e' (List.mem_cons_of_mem _ member)) _)

theorem Execution.crashAt_within (D : Drift) (F : Prop) (verb : Verb) (n : Nat) :
    (Execution.crashAt verb n).Within (D.weather F) := by
  intro turn member
  have same : turn.env = id ∧ ∀ e applied, turn.ending ≠ .fails e applied := by
    rcases List.mem_append.mp member with before | last
    · rw [List.eq_of_mem_replicate before]
      exact ⟨rfl, fun _ _ h => by cases h⟩
    · rw [List.mem_singleton.mp last]
      exact ⟨rfl, fun _ _ h => by cases h⟩
  constructor
  · intro w
    rw [same.1]
    exact Drift.Moves.refl D w
  · exact fun e applied fails => absurd fails (same.2 e applied)

theorem Execution.calm_within (D : Drift) (F : Prop) (verb : Verb) : (Execution.calm verb).Within (D.weather F) :=
  fun _ member => absurd member List.not_mem_nil

theorem chargeWorld_initial : chargeWorld.Initial := ⟨rfl, fun _ => rfl, fun _ => rfl⟩

/-- LOAD stops with A staged alone and VALIDATE counts it; once everything is staged VALIDATE fails class X and stops
before its promotion. K is then the one key that may be purged, and the ledger still says one. -/
def staleGuard : List Execution :=
  [.calm (.one .extract), .crashAt (.one .load) 11, .calm (.one .validate), .calm (.one .load),
    .crashAt (.one .validate) 24, .calm (.one .purge)]

theorem stale_guard_loses_row :
    (buildTableSpec (some chargeLines) 9 chargeConfig (shippedMap .postgresql) "latin-1").toOption.map Prod.snd =
      some chargeSpecs ∧ chargeManifest.tables = [chargeTable] ∧ chargeTable.convert = convertRecord latin1 chargeSpecs ∧
    chargeWorld.Initial ∧ chargeManifest.purge = true ∧
    ∃ w, chargeManifest.Reaches (Drift.still.weather True) (fun _ _ => True) chargeWorld w ∧
      ¬ PurgeSafety chargeManifest chargeWorld w := by
  have there : ['K'] ∈ (chargeWorld.source "DOCARCH").rows := by decide +kernel
  have gone : ['K'] ∉ ((chargeManifest.after chargeWorld staleGuard).source "DOCARCH").rows := by decide +kernel
  have unarchived : ((chargeManifest.after chargeWorld staleGuard).target "DOCARCH").arch[['K']]? = none := by
    decide +kernel
  refine ⟨charge_columns_built, rfl, rfl, chargeWorld_initial, rfl, chargeManifest.after chargeWorld staleGuard, ?_, ?_⟩
  · apply Manifest.reaches_after
    intro e member
    refine ⟨?_, fun _ => trivial⟩
    simp only [staleGuard, List.mem_cons, List.not_mem_nil, or_false] at member
    rcases member with rfl | rfl | rfl | rfl | rfl | rfl
    · apply Execution.calm_within
    · apply Execution.crashAt_within
    · apply Execution.calm_within
    · apply Execution.calm_within
    · apply Execution.crashAt_within
    · apply Execution.calm_within
  · intro safe
    obtain ⟨_, raw, values, source, a, _, converted, held, _⟩ :=
      safe.archived chargeTable (List.mem_singleton.mpr rfl) ['K'] there gone
    have key : chargeTable.targetKey values = ['K'] := (chargeConvert_ok raw ['K'] values source converted).2
    change ((chargeManifest.after chargeWorld staleGuard).target "DOCARCH").arch[chargeTable.targetKey values]? =
      some a at held
    rw [key, unarchived] at held
    cases held

/-- A whole run over two rows of class Y purges both, and what it left is safe. -/
theorem purge_safe_whole_run :
    ((docManifest.after (cardWorld [("DOCARCH", [docRow 'B' 'Y' 2, docRow 'K' 'Y' 1])]) [.calm .all]).source
      "DOCARCH").rows.keys = [] ∧
    PurgeSafety docManifest (cardWorld [("DOCARCH", [docRow 'B' 'Y' 2, docRow 'K' 'Y' 1])])
      (docManifest.after (cardWorld [("DOCARCH", [docRow 'B' 'Y' 2, docRow 'K' 'Y' 1])]) [.calm .all]) := by
  refine ⟨by decide +kernel, purge_safe_always ⟨rfl, fun _ => rfl, fun _ => rfl⟩ ?_⟩
  apply Manifest.reaches_after
  intro e member
  rw [List.mem_singleton.mp member]
  exact ⟨Execution.calm_within _ _ _, fun _ alone => by cases alone⟩

/-- The archive has this very row: its record was unloaded from it, and is archived under its business hash. -/
def ArchivedRow (ts : TableSpec) (t : TargetTable) (row : SourceRow) : Prop :=
  ∃ raw values source a, ts.unload row = .ok raw ∧ Recorded ts t.ranges t.files row.key raw ∧
    ts.convert raw = .ok row.key values source ∧ t.arch[ts.targetKey values]? = some a ∧
    a.rowHash = ts.sourceHash source

/-- What a purge under the application's updates still keeps: a row that nobody changed since its unload is, when it
is deleted, the row that was archived, and is still selected. -/
def UpdateSafety (m : Manifest) (w : World) : Prop :=
  ∀ ts ∈ m.tables, ∀ (k : Key) (columns : Fields), (w.source ts.name).deleted[k]? = some (columns, false) →
    ts.selects ⟨k, columns⟩ = true ∧ ArchivedRow ts (w.target ts.name) ⟨k, columns⟩

section

variable {m : Manifest} {w₀ w : World} {ts : TableSpec}

/-- The unload that made the record of a key. -/
theorem Filed.row_of_record {ranges : List KeyRange} {files : KeyMap Nat (List Raw)} {s : SourceTable} {k : Key}
    {raw : Raw} (h : Filed ts ranges files s) (record : Recorded ts ranges files k raw) :
    ∃ row, row.key = k ∧ ts.unload row = .ok raw ∧ ts.selects row = true ∧ Accounted s row := by
  obtain ⟨rng, hrng, done, records, file, hraw, key⟩ := record
  obtain ⟨rows, made, unload⟩ := h.unloaded rng hrng done
  cases Option.some.inj (file.symm.trans unload.file)
  obtain ⟨row, hrow, out, own⟩ := unload.key hraw
  have here : row.key = k := Option.some.inj (own.symm.trans key)
  exact ⟨row, here, out, unload.selected row hrow, unload.accounted row hrow⟩

theorem Sound.updateSafety (h : Sound m w₀ w) : UpdateSafety m w := by
  intro ts member k columns held
  have deleted : k ∈ (w.source ts.name).deleted := by
    rw [← Std.ExtTreeMap.isSome_getElem?_iff_mem, held]
    rfl
  have audited := ((h.deletions ts.name).deleted k).mp deleted
  obtain ⟨_, _, _, _, promoted⟩ := h.audited ts.name k audited
  obtain ⟨raw, values, source, a, record, converted, archived, hash⟩ := (h.traced ts member).promoted k promoted
  obtain ⟨row, here, out, selected, accounted⟩ := (h.filed ts member).row_of_record record
  -- the row was not edited between its unload and its deletion
  have same : columns = row.columns := accounted.gone columns (by rw [here]; exact held)
  have whole : row = ⟨k, columns⟩ := by
    cases row
    simp only at here same
    rw [here, same]
  rw [whole] at out selected
  exact ⟨selected, raw, values, source, a, out, record, converted, archived, hash⟩

/-- No update is lost over all executions, crashes, failed calls and updates of the application, as far as the rows
go that were not updated between their unload and their deletion. -/
theorem unchanged_rows_archived (initial : w₀.Initial)
    (run : m.Reaches (Drift.updates.weather True) (PurgesReady m) w₀ w) : UpdateSafety m w :=
  ((Sound.kept_by Drift.updates m w₀).reaches (.start m initial) run).updateSafety

end

/-- The application updates a row that is there. -/
def SourceTable.update (k : Key) (columns : Fields) (s : SourceTable) : SourceTable :=
  if k ∈ s.rows then { s with rows := s.rows.insert k columns, edited := s.edited.insert k () } else s

theorem SourceTable.updated (k : Key) (columns : Fields) (s : SourceTable) : Updated s (s.update k columns) := by
  unfold SourceTable.update
  by_cases there : k ∈ s.rows
  · rw [if_pos there]
    refine ⟨?_, ?_, ?_, rfl, rfl⟩
    · intro k'
      rw [Std.ExtTreeMap.mem_insert]
      constructor
      · intro h
        rcases h with same | h
        · rw [← Std.LawfulEqOrd.compare_eq_iff_eq.mp same]
          exact there
        · exact h
      · exact Or.inr
    · intro k' columns' held
      rw [Std.ExtTreeMap.getElem?_insert] at held
      by_cases same : compare k k' = .eq
      · exact Or.inl (Std.ExtTreeMap.mem_insert.mpr (Or.inl same))
      · rw [if_neg same] at held
        exact Or.inr held
    · intro k' h
      exact Std.ExtTreeMap.mem_insert.mpr (Or.inr h)
  · rw [if_neg there]
    exact ⟨fun _ => Iff.rfl, fun _ _ h => Or.inr h, fun _ h => h, rfl, rfl⟩

theorem Drift.updates_moves (table : String) (k : Key) (columns : Fields) (w : World) :
    Drift.updates.Moves w (w.onSource table (SourceTable.update k columns)) := by
  refine ⟨World.onSource_runRow .., World.onSource_target .., ?_⟩
  intro name
  by_cases same : name = table
  · subst same
    rw [World.onSource_self]
    exact SourceTable.updated k columns _
  · rw [World.onSource_other same]
    exact Drift.updates.refl _

def twoDocs : World := cardWorld [("DOCARCH", [docRow 'B' 'Y' 2, docRow 'K' 'Y' 1])]

/-- A whole run in which the application updates the charge of K once its range has been unloaded. -/
def updateAfterUnload : Execution :=
  ⟨.all, .inOrder, List.replicate 14 calm ++
    [⟨fun w => w.onSource "DOCARCH" (SourceTable.update ['K'] (docRow 'K' 'Y' 7).2), .returns⟩]⟩

theorem updateAfterUnload_within : updateAfterUnload.Within (Drift.updates.weather True) := by
  intro turn member
  rcases List.mem_append.mp member with before | last
  · rw [List.eq_of_mem_replicate before]
    exact ⟨Drift.Moves.refl Drift.updates, fun _ _ h => by cases h⟩
  · rw [List.mem_singleton.mp last]
    exact ⟨Drift.updates_moves _ _ _, fun _ _ h => by cases h⟩

/-- PURGE deletes the updated row, whose charge the archive does not have. -/
theorem update_deleted_unarchived : twoDocs.Initial ∧ docManifest.purge = true ∧
    ∃ w, docManifest.Reaches (Drift.updates.weather True) (PurgesReady docManifest) twoDocs w ∧
      ∃ columns edited, (w.source "DOCARCH").deleted[['K']]? = some (columns, edited) ∧
        ¬ ArchivedRow docTable (w.target "DOCARCH") ⟨['K'], columns⟩ := by
  have deleted : ((docManifest.after twoDocs [updateAfterUnload]).source "DOCARCH").deleted[['K']]? =
      some ((docRow 'K' 'Y' 7).2, true) := by decide +kernel
  have archived : (((docManifest.after twoDocs [updateAfterUnload]).target "DOCARCH").arch[['K']]?).map ArchRow.rowHash =
      some (docHash (docRow 'K' 'Y' 1).2) := by decide +kernel
  refine ⟨⟨rfl, fun _ => rfl, fun _ => rfl⟩, rfl, docManifest.after twoDocs [updateAfterUnload], ?_, _, _, deleted, ?_⟩
  · apply Manifest.reaches_after
    intro e member
    rw [List.mem_singleton.mp member]
    exact ⟨updateAfterUnload_within, fun _ alone => by cases alone⟩
  · intro h
    obtain ⟨raw, values, source, a, out, _, converted, held, hash⟩ := h
    have made : docUnload ⟨['K'], (docRow 'K' 'Y' 7).2⟩ = .ok (75 :: 89 :: chargeBytes 7) := by decide +kernel
    cases Except.ok.inj (out.symm.trans made)
    have read : docConvert (75 :: 89 :: chargeBytes 7) = .ok ['K'] (docValues 75 89 7) (docValues 75 89 7) := by
      decide +kernel
    have fields := converted.symm.trans read
    simp only [Conversion.ok.injEq] at fields
    obtain ⟨_, rfl, rfl⟩ := fields
    have key : docTable.targetKey (docValues 75 89 7) = ['K'] := by decide +kernel
    rw [key] at held
    rw [held, Option.map_some, hash] at archived
    exact absurd archived (by decide +kernel)

/-- In that run B, which the application leaves alone, is purged as it was archived. -/
theorem purged_as_archived :
    ((docManifest.after twoDocs [updateAfterUnload]).source "DOCARCH").deleted[['B']]? = some ((docRow 'B' 'Y' 2).2, false) ∧
      ((docManifest.after twoDocs [updateAfterUnload]).source "DOCARCH").deleted[['K']]? = some ((docRow 'K' 'Y' 7).2, true) ∧
      UpdateSafety docManifest (docManifest.after twoDocs [updateAfterUnload]) := by
  refine ⟨by decide +kernel, by decide +kernel,
    @unchanged_rows_archived docManifest twoDocs _ ⟨rfl, fun _ => rfl, fun _ => rfl⟩ ?_⟩
  apply Manifest.reaches_after
  intro e member
  rw [List.mem_singleton.mp member]
  exact ⟨updateAfterUnload_within, fun _ alone => by cases alone⟩

end OtterWorks.Migration
