import OtterWorks.Migration.Steady

namespace OtterWorks.Migration

/-- Nothing is persisted of a range. -/
structure Untouched (rangeSeq : Nat) (t : TargetTable) : Prop where
  staged : ∀ (k : Key) (row : StagedRow), t.staging[k]? = some row → row.keyRangeSeq ≠ rangeSeq
  rejected : ∀ (k : Key) (r : Reject), t.rejects[k]? = some r → r.stage = .load → r.keyRangeSeq ≠ some rangeSeq

/-- A range that LOAD has begun. -/
def Begun (seq : Nat) (ranges : List KeyRange) : Prop := ∃ r ∈ ranges, r.rangeSeq = seq ∧ r.loadStatus ≠ .pending

/-- What LOAD persists belongs to ranges it has begun. -/
structure Charged (t : TargetTable) : Prop where
  staged : ∀ (k : Key) (row : StagedRow), t.staging[k]? = some row → Begun row.keyRangeSeq t.ranges
  rejected : ∀ (k : Key) (r : Reject), t.rejects[k]? = some r → r.stage = .load →
    ∃ seq, r.keyRangeSeq = some seq ∧ Begun seq t.ranges

section

variable {D : Drift} {F : Prop} {m : Manifest} {ts : TableSpec} {t t' : TargetTable} {u v w : World} {seq : Nat}

/-- Rows and rejects go, and begun ranges stay begun. -/
theorem Charged.frame (h : Charged t) (ranges : ∀ seq, Begun seq t.ranges → Begun seq t'.ranges)
    (staging : ∀ (k : Key) (row : StagedRow), t'.staging[k]? = some row →
      ∃ r, t.staging[k]? = some r ∧ r.keyRangeSeq = row.keyRangeSeq)
    (rejects : ∀ (k : Key) (r : Reject), t'.rejects[k]? = some r → r.stage = .load → t.rejects[k]? = some r) :
    Charged t' := by
  refine ⟨?_, ?_⟩
  · intro k row held
    obtain ⟨r, there, same⟩ := staging k row held
    rw [← same]
    exact ranges _ (h.staged k r there)
  · intro k r held load
    obtain ⟨seq, of, begun⟩ := h.rejected k r (rejects k r held load) load
    exact ⟨seq, of, ranges seq begun⟩

theorem Charged.same (h : Charged t) (ranges : t'.ranges = t.ranges) (staging : t'.staging = t.staging)
    (rejects : t'.rejects = t.rejects) : Charged t' := by
  apply h.frame
  · rw [ranges]
    exact fun _ begun => begun
  · rw [staging]
    exact fun _ row held => ⟨row, held, rfl⟩
  · rw [rejects]
    exact fun _ _ held _ => held

theorem Begun.onRange {ranges : List KeyRange} (h : Begun seq ranges) (other : Nat) {f : KeyRange → KeyRange}
    (shape : ∀ r, (f r).rangeSeq = r.rangeSeq) (stays : ∀ r, r.loadStatus ≠ .pending → (f r).loadStatus ≠ .pending) :
    Begun seq (ranges.map fun r => if r.rangeSeq = other then f r else r) := by
  obtain ⟨r, hr, same, begun⟩ := h
  refine ⟨_, List.mem_map_of_mem hr, ?_⟩
  split
  next => exact ⟨(shape r).trans same, stays r begun⟩
  next => exact ⟨same, begun⟩

theorem Charged.onRange (h : Charged t) (other : Nat) {f : KeyRange → KeyRange}
    (shape : ∀ r, (f r).rangeSeq = r.rangeSeq) (stays : ∀ r, r.loadStatus ≠ .pending → (f r).loadStatus ≠ .pending) :
    Charged (t.onRange other f) :=
  h.frame (fun _ begun => begun.onRange other shape stays) (fun _ row held => ⟨row, held, rfl⟩) fun _ _ held _ => held

theorem Loading.begun {records : List Raw} (loading : Loading seq records t) : Begun seq t.ranges := by
  obtain ⟨r, hr, same, running⟩ := loading.running
  refine ⟨r, hr, same, ?_⟩
  rw [running]
  exact fun h => by cases h

theorem ExtractMove.charged {batch : BatchConfig} (move : ExtractMove D batch ts w v)
    (h : Charged (w.target ts.name)) : Charged (v.target ts.name) := by
  cases move with
  | plan keys s₀ blank drift selected =>
    rw [World.onTarget_self]
    apply h.frame
    · intro seq begun
      obtain ⟨r, hr, of⟩ := begun
      exact ⟨r, List.mem_append_left _ hr, of⟩
    · exact fun _ row held => ⟨row, held, rfl⟩
    · exact fun _ _ held _ => held
  | status =>
    rw [World.onTarget_self]
    exact h.onRange _ (fun _ => rfl) fun _ begun => begun
  | finish =>
    rw [World.onTarget_self]
    exact h.onRange _ (fun _ => rfl) fun _ begun => begun
  | fetch => exact h
  | _ =>
    rw [World.onTarget_self]
    exact h.same rfl rfl rfl

theorem LoadMove.charged (move : LoadMove ts w v) (h : Charged (w.target ts.name)) : Charged (v.target ts.name) := by
  cases move with
  | rollStaging =>
    rw [World.onTarget_self]
    refine h.frame (fun _ begun => begun) ?_ fun _ _ held _ => held
    intro k row held
    rw [Std.ExtTreeMap.getElem?_filter'] at held
    exact ⟨row, (Option.filter_eq_some_iff.mp held).1, rfl⟩
  | rollRejects =>
    rw [World.onTarget_self]
    refine h.frame (fun _ begun => begun) (fun _ row held => ⟨row, held, rfl⟩) ?_
    intro k r held _
    rw [Std.ExtTreeMap.getElem?_filter'] at held
    exact (Option.filter_eq_some_iff.mp held).1
  | start =>
    rw [World.onTarget_self]
    exact h.onRange _ (fun _ => rfl) fun _ _ pending => by cases pending
  | done =>
    rw [World.onTarget_self]
    exact h.onRange _ (fun _ => rfl) fun _ _ pending => by cases pending
  | stage seq records rows staging loading each staged =>
    rw [World.onTarget_self]
    obtain ⟨rfl, _, _⟩ := stageAll_inv staged
    refine ⟨?_, h.rejected⟩
    intro k row held
    rcases KeyMap.upsertAll_cases held with new | old
    · obtain ⟨row', hrow, same⟩ := List.mem_map.mp new
      cases same
      rw [(each row hrow).seq]
      exact loading.begun
    · exact h.staged k row old.2
  | reject seq records rejects loading each =>
    rw [World.onTarget_self]
    refine ⟨h.staged, ?_⟩
    intro k r held load
    rcases KeyMap.addNew_cases held with old | new
    · exact h.rejected k r old load
    · obtain ⟨r', hr, same⟩ := List.mem_map.mp new.2
      cases same
      exact ⟨seq, (each r hr).seq, loading.begun⟩
  | ledger =>
    rw [World.onTarget_self]
    exact h.same rfl rfl rfl

theorem ValidateMove.charged (move : ValidateMove ts w v) (h : Charged (w.target ts.name)) :
    Charged (v.target ts.name) := by
  cases move with
  | hashes =>
    rw [World.onTarget_self]
    refine h.frame (fun _ begun => begun) ?_ fun _ _ held _ => held
    intro k row held
    obtain ⟨r, there, same⟩ := hashed_row held
    exact ⟨r, there, (congrArg StagedRow.keyRangeSeq same).symm⟩
  | dropRejects =>
    rw [World.onTarget_self]
    refine h.frame (fun _ begun => begun) (fun _ row held => ⟨row, held, rfl⟩) ?_
    intro k r held _
    rw [Std.ExtTreeMap.getElem?_filter'] at held
    exact (Option.filter_eq_some_iff.mp held).1
  | addRejects rejects each =>
    rw [World.onTarget_self]
    refine h.frame (fun _ begun => begun) (fun _ row held => ⟨row, held, rfl⟩) ?_
    intro k r held load
    rcases KeyMap.addNew_cases held with old | new
    · exact old
    · obtain ⟨r', hr, same⟩ := List.mem_map.mp new.2
      cases same
      rw [(each r hr).1] at load
      cases load
  | _ =>
    rw [World.onTarget_self]
    exact h.same rfl rfl rfl

/-- Every table's persisted rows and rejects are of ranges that LOAD has begun. -/
def AllCharged (m : Manifest) (w : World) : Prop := TablesOk m w ∧ ∀ ts ∈ m.tables, Charged (w.target ts.name)

theorem AllCharged.own (h : AllCharged m w) (member : ts ∈ m.tables)
    (other : ∀ name, name ≠ ts.name → v.target name = w.target name) (own : Charged (v.target ts.name)) :
    ∀ ts ∈ m.tables, Charged (v.target ts.name) := by
  intro ts' member'
  by_cases same : ts'.name = ts.name
  · cases m.same_table member' member same
    exact own
  · rw [other _ same]
    exact h.2 ts' member'

theorem AllCharged.stage (h : AllCharged m w) (move : StageMove D m w v) : AllCharged m v := by
  refine ⟨h.1.stage move, ?_⟩
  cases move with
  | extract ts member move => exact h.own member move.own (move.charged (h.2 ts member))
  | load ts member move => exact h.own member move.own (move.charged (h.2 ts member))
  | validate ts member move => exact h.own member move.own (move.charged (h.2 ts member))
  | run move =>
    cases move with
    | begin => exact h.2
    | status => exact h.2
    | dropStaging ts member closes =>
      apply h.own member fun name other => World.onTarget_other other
      rw [World.onTarget_self]
      refine ⟨?_, (h.2 ts member).rejected⟩
      intro k row held
      rw [Std.ExtTreeMap.getElem?_empty] at held
      cases held

theorem AllCharged.steady (D : Drift) (m : Manifest) : Steady D m (AllCharged m) where
  stable u v moves h := by
    unfold AllCharged TablesOk at h ⊢
    rw [moves.target]
    exact h
  ok _ h := h.1
  stage _ _ move h := h.stage move
  purge u v move h := by
    refine ⟨h.1.purge move, ?_⟩
    intro ts member
    have same := move.frame ts.name
    unfold SameButPurge at same
    rw [same]
    exact (h.2 ts member).same rfl rfl rfl

/-- In every state that executions reach nothing is persisted of a range that waits for its load. -/
theorem pending_untouched (initial : u.Initial) {allowed : World → Execution → Prop}
    (run : m.Reaches (D.weather F) allowed u w) (member : ts ∈ m.tables) {rng : KeyRange}
    (listed : rng ∈ (w.target ts.name).ranges) (pending : rng.loadStatus = .pending) :
    Untouched rng.rangeSeq (w.target ts.name) := by
  have start : AllCharged m u := by
    refine ⟨.start initial, fun ts _ => ?_⟩
    rw [initial.target_blank ts.name]
    refine ⟨?_, ?_⟩
    · intro k row held
      cases held
    · intro k r held
      cases held
  obtain ⟨ok, charged⟩ := (AllCharged.steady D m).reaches start run
  have waits : ¬ Begun rng.rangeSeq (w.target ts.name).ranges := by
    rintro ⟨r, hr, same, begun⟩
    have distinct := (ok ts member).numbered.imp (fun h => Nat.ne_of_lt h)
    cases List.inj_on_of_nodup_map distinct hr listed same
    exact begun pending
  refine ⟨?_, ?_⟩
  · intro k row held same
    exact waits (same ▸ (charged ts member).staged k row held)
  · intro k r held load same
    obtain ⟨seq, of, begun⟩ := (charged ts member).rejected k r held load
    cases Option.some.inj (of.symm.trans same)
    exact waits begun

end

end OtterWorks.Migration
