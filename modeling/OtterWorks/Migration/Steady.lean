import OtterWorks.Migration.Sound

namespace OtterWorks.Migration

/-- What the stages rely on of every table. -/
def TablesOk (m : Manifest) (w : World) : Prop := ∀ ts ∈ m.tables, TableOk ts (w.target ts.name)

/-- An invariant of the job that every move keeps, those of PURGE from wherever it starts. -/
structure Steady (D : Drift) (m : Manifest) (I : World → Prop) : Prop where
  stable : D.Stable I
  ok : ∀ w, I w → TablesOk m w
  stage : ∀ u v, StageMove D m u v → I u → I v
  purge : ∀ u v, PurgeMove m.tablesInOrder u v → I u → I v

section

variable {D : Drift} {F : Prop} {m : Manifest} {I : World → Prop} {ts : TableSpec} {t t' : TargetTable}
  {u v w : World}

/-- The staged rows of a table change in their hashes only, and its ranges keep their numbers. -/
theorem TableOk.frame (h : TableOk ts t) (ranges : t'.ranges.map KeyRange.rangeSeq = t.ranges.map KeyRange.rangeSeq)
    (staging : ∀ (k : Key) (row : StagedRow), t'.staging[k]? = some row →
      ∃ r, t.staging[k]? = some r ∧ row.plain = r.plain) : TableOk ts t' := by
  have fields : ∀ (k : Key) (row : StagedRow), t'.staging[k]? = some row → ∃ r, t.staging[k]? = some r ∧
      row.sourceKey = r.sourceKey ∧ row.rawBytes = r.rawBytes ∧ row.values = r.values := by
    intro k row held
    obtain ⟨r, there, same⟩ := staging k row held
    have key : row.plain.sourceKey = r.plain.sourceKey := by rw [same]
    have raw : row.plain.rawBytes = r.plain.rawBytes := by rw [same]
    have values : row.plain.values = r.plain.values := by rw [same]
    exact ⟨r, there, key, raw, values⟩
  refine ⟨?_, ?_, ?_⟩
  · unfold InOrder
    rw [ranges]
    exact h.numbered
  · intro k row held
    obtain ⟨r, there, key, _⟩ := fields k row held
    rw [key]
    exact h.keys k r there
  · intro k row held
    obtain ⟨r, there, key, raw, values⟩ := fields k row held
    unfold Converted
    rw [key, raw, values]
    exact h.converted k r there

theorem TableOk.onRange (h : TableOk ts t) (seq : Nat) {f : KeyRange → KeyRange}
    (shape : ∀ r, (f r).rangeSeq = r.rangeSeq) : TableOk ts (t.onRange seq f) :=
  h.frame (onRange_seqs _ _ shape) fun _ row held => ⟨row, held, rfl⟩

theorem TableOk.same (h : TableOk ts t) (ranges : t'.ranges = t.ranges) (staging : t'.staging = t.staging) :
    TableOk ts t' := by
  apply h.frame
  · rw [ranges]
  · rw [staging]
    exact fun _ row held => ⟨row, held, rfl⟩

theorem ExtractMove.ok {batch : BatchConfig} (move : ExtractMove D batch ts w v)
    (h : TableOk ts (w.target ts.name)) : TableOk ts (v.target ts.name) := by
  cases move with
  | plan keys s₀ blank drift selected =>
    rw [World.onTarget_self]
    refine ⟨?_, h.keys, h.converted⟩
    rw [blank]
    exact planRanges_inOrder keys batch.extractRangeRows
  | status =>
    rw [World.onTarget_self]
    exact h.onRange _ fun _ => rfl
  | finish =>
    rw [World.onTarget_self]
    exact h.onRange _ fun _ => rfl
  | fetch => exact h
  | _ =>
    rw [World.onTarget_self]
    exact h.same rfl rfl

theorem LoadMove.ok (move : LoadMove ts w v) (h : TableOk ts (w.target ts.name)) : TableOk ts (v.target ts.name) := by
  cases move with
  | rollStaging =>
    rw [World.onTarget_self]
    refine h.frame ?_ ?_
    · rfl
    intro k row held
    rw [Std.ExtTreeMap.getElem?_filter'] at held
    exact ⟨row, (Option.filter_eq_some_iff.mp held).1, rfl⟩
  | start =>
    rw [World.onTarget_self]
    exact h.onRange _ fun _ => rfl
  | done =>
    rw [World.onTarget_self]
    exact h.onRange _ fun _ => rfl
  | stage seq records rows staging loading each staged =>
    rw [World.onTarget_self]
    obtain ⟨rfl, _, _⟩ := stageAll_inv staged
    have fresh : ∀ (k : Key) (row : StagedRow), (k, row) ∈ stagedEntries rows → row.sourceKey = k ∧ Converted ts row := by
      intro k row listed
      obtain ⟨row', hrow, same⟩ := List.mem_map.mp listed
      cases same
      exact ⟨rfl, (each row hrow).converted⟩
    refine ⟨h.numbered, ?_, ?_⟩
    · intro k row held
      rcases KeyMap.upsertAll_cases held with new | old
      · obtain ⟨key, source, converted⟩ := fresh k row new
        rw [← key]
        exact ⟨rfl, ts.key_ne_nil _ _ _ _ converted⟩
      · exact h.keys k row old.2
    · intro k row held
      rcases KeyMap.upsertAll_cases held with new | old
      · exact (fresh k row new).2
      · exact h.converted k row old.2
  | _ =>
    rw [World.onTarget_self]
    exact h.same rfl rfl

theorem ValidateMove.ok (move : ValidateMove ts w v) (h : TableOk ts (w.target ts.name)) :
    TableOk ts (v.target ts.name) := by
  cases move with
  | hashes =>
    rw [World.onTarget_self]
    exact h.frame rfl fun _ _ => hashed_row
  | _ =>
    rw [World.onTarget_self]
    exact h.same rfl rfl

/-- A move on one table keeps all tables as the stages need them. -/
theorem TablesOk.own (h : TablesOk m w) (member : ts ∈ m.tables)
    (other : ∀ name, name ≠ ts.name → v.target name = w.target name) (own : TableOk ts (v.target ts.name)) :
    TablesOk m v := by
  intro ts' member'
  by_cases same : ts'.name = ts.name
  · cases m.same_table member' member same
    exact own
  · rw [other _ same]
    exact h ts' member'

theorem TablesOk.stage (h : TablesOk m w) (move : StageMove D m w v) : TablesOk m v := by
  cases move with
  | extract ts member move => exact h.own member move.own (move.ok (h ts member))
  | load ts member move => exact h.own member move.own (move.ok (h ts member))
  | validate ts member move => exact h.own member move.own (move.ok (h ts member))
  | run move =>
    cases move with
    | begin => exact h
    | status => exact h
    | dropStaging ts member closes =>
      apply h.own member fun name other => World.onTarget_other other
      rw [World.onTarget_self]
      refine (h ts member).frame ?_ ?_
      · rfl
      intro k row held
      rw [Std.ExtTreeMap.getElem?_empty] at held
      cases held

theorem TablesOk.purge (h : TablesOk m w) (move : PurgeMove m.tablesInOrder w v) : TablesOk m v := by
  intro ts member
  have same := move.frame ts.name
  unfold SameButPurge at same
  rw [same]
  exact (h ts member).same rfl rfl

theorem TablesOk.start (initial : w.Initial) : TablesOk m w := by
  intro ts _
  rw [initial.target_blank ts.name]
  refine ⟨.nil, ?_, ?_⟩
  · intro k row held
    cases held
  · intro k row held
    cases held

theorem Steady.kept (steady : Steady D m I) : Kept D m I :=
  ⟨steady.stable, steady.ok, steady.stage, fun u v move _ => steady.purge u v move⟩

theorem Steady.runStage (steady : Steady D m I) (schedule : Schedule) (stage : StageName) (hI : I w) :
    wp (D.weather F) (runStage m schedule stage) (.keep I fun _ _ => True) w := by
  cases stage with
  | purge => exact keep_purgeStage steady.stable steady.purge m.purge hI
  | _ => exact keep_stage steady.kept schedule _ hI fun purge => by cases purge

theorem Steady.execute (steady : Steady D m I) (schedule : Schedule) (verb : Verb) (hI : I w) :
    wp (D.weather F) (execute m schedule verb) (.keep I fun _ _ => True) w := by
  apply keep_execute steady.stable (fun u v move => steady.stage u v (.run move))
  · intro v _ hIv
    apply keeps_forM (J := fun _ _ => True)
    · exact fun stage _ u _ hIu _ => steady.runStage schedule stage hIu
    · exact fun _ _ _ => trivial
    · exact hIv
    · trivial
  · exact hI

/-- Every state that executions reach, one after another and whatever each was asked to do. -/
theorem Steady.reaches {allowed : World → Execution → Prop} (steady : Steady D m I) (start : I u)
    (run : m.Reaches (D.weather F) allowed u v) : I v := by
  apply run.preserves _ start
  intro w e w' hI within step
  cases Option.some.inj step
  have held := wp_run (steady.execute e.schedule e.verb hI) within.1
  change Post.Holds _ (e.run m w) at held
  generalize e.run m w = out at held
  obtain ⟨outcome, w'⟩ := out
  cases outcome with
  | ended result =>
    cases result with
    | ok n => exact held.1
    | error e => exact held.1
  | crashed => exact held

end

end OtterWorks.Migration
