import OtterWorks.Lib.Keeps
import OtterWorks.Migration.PurgeSafety
import OtterWorks.Migration.References

namespace OtterWorks.Migration

/-- A statement refused for a RESTRICT foreign key. -/
def JobError.restricted : JobError → Bool
  | .source _ sqlstate _ _ => sqlstate == some "23504"
  | _ => false

/-- A row that is still in the source refers to a key of a table. -/
def RefersTo (w : World) (child : TableSpec) (k' : Key) (ts : TableSpec) (k : Key) : Prop :=
  ∃ columns, (w.source child.name).rows[k']? = some columns ∧ (ts.name, k) ∈ child.foreignKeys ⟨k', columns⟩

/-- Whatever refers to a purge_safe row is purge_safe as well. -/
def PurgeClosed (m : Manifest) (w : World) : Prop :=
  ∀ ts ∈ m.tables, ∀ k ∈ purgeSafe (w.target ts.name), ∀ child ∈ m.tables, ∀ k', RefersTo w child k' ts k →
    k' ∈ purgeSafe (w.target child.name)

/-- Whatever refers to a purge_safe row is in a later table. -/
def ChildrenLater (m : Manifest) (w : World) : Prop :=
  ∀ ts ∈ m.tables, ∀ k ∈ purgeSafe (w.target ts.name), ∀ child ∈ m.tables, ∀ k', RefersTo w child k' ts k →
    ts.order < child.order

/-- What PURGE leaves of a state: the verdicts, and no row that was not there. -/
structure Emptying (w u : World) : Prop where
  safe : ∀ name, purgeSafe (u.target name) = purgeSafe (w.target name)
  rows : ∀ (name : String) (k : Key) (columns : Fields), (u.source name).rows[k]? = some columns →
    (w.source name).rows[k]? = some columns

/-- PURGE is at a table: what may be purged of the later ones is gone. -/
structure Ahead (m : Manifest) (w : World) (ts : TableSpec) (u : World) : Prop where
  standing : Standing m u
  emptying : Emptying w u
  done : ∀ child ∈ m.tables, child.role = .data → ts.order < child.order →
    ∀ k ∈ purgeSafe (w.target child.name), k ∈ (u.source child.name).audit

section

variable {F : Prop} {m : Manifest} {w u v x : World} {ts : TableSpec} {keys chunk todo : List Key}

theorem Emptying.purge {tables : List TableSpec} (h : Emptying w u) (move : PurgeMove tables u v) :
    Emptying w v ∧ ∀ name, ∀ k ∈ (u.source name).audit, k ∈ (v.source name).audit := by
  have safe : ∀ name, purgeSafe (v.target name) = purgeSafe (w.target name) := fun name =>
    (move.frame name).safe.1.trans (h.safe name)
  cases move with
  | batch ts keys =>
    refine ⟨⟨safe, ?_⟩, ?_⟩
    · intro name k columns held
      by_cases same : name = ts.name
      · rw [same, World.onSource_self] at held
        simp only at held
        rw [KeyMap.getElem?_dropKeys] at held
        split at held
        next => cases held
        next =>
          rw [same]
          exact h.rows ts.name k columns held
      · rw [World.onSource_other same] at held
        exact h.rows name k columns held
    · intro name k held
      by_cases same : name = ts.name
      · rw [same] at held ⊢
        rw [World.onSource_self]
        exact KeyMap.mem_addNew.mpr (Or.inl held)
      · rw [World.onSource_other same]
        exact held
  | _ => exact ⟨⟨safe, h.rows⟩, fun _ _ held => held⟩

theorem Ahead.purge (h : Ahead m w ts u) (move : PurgeMove m.tablesInOrder u v) : Ahead m w ts v := by
  obtain ⟨emptying, audit⟩ := h.emptying.purge move
  exact ⟨h.standing.purge move, emptying,
    fun child member role later k hk => audit child.name k (h.done child member role later k hk)⟩

theorem Ahead.stable : Drift.still.Stable (Ahead m w ts) := by
  intro u v moves h
  rw [moves.eq]
  exact h

/-- No row refers to what PURGE is about to delete: the rows that did were to be purged before it, and are gone. -/
theorem Ahead.unreferenced (h : Ahead m w ts u) (closed : PurgeClosed m w) (later : ChildrenLater m w)
    (member : ts ∈ m.tables) (safe : ∀ k ∈ keys, k ∈ purgeSafe (w.target ts.name)) :
    referenced m.tablesInOrder u ts keys = false := by
  rw [← Bool.not_eq_true]
  intro found
  obtain ⟨child, hchild, found⟩ := List.any_eq_true.mp found
  obtain ⟨row, hrow, found⟩ := List.any_eq_true.mp found
  obtain ⟨ref, href, found⟩ := List.any_eq_true.mp found
  simp only [Bool.and_eq_true, beq_iff_eq, List.contains_iff_mem] at found
  obtain ⟨⟨own, hk⟩, _⟩ := found
  have there := KeyMap.mem_toList.mp hrow
  have member' := mem_tablesInOrder.mp hchild
  have refers : RefersTo w child row.1 ts ref.2 := by
    refine ⟨row.2, h.emptying.rows child.name row.1 row.2 there, ?_⟩
    rw [← own]
    exact href
  have safe' := closed ts member ref.2 (safe _ hk) child member' row.1 refers
  have data : child.role = .data := by
    cases role : child.role with
    | data => rfl
    | reference =>
      apply absurd _ (h.standing.safe child member' role row.1)
      rw [h.emptying.safe]
      exact safe'
  have audited := h.done child member' data (later ts member ref.2 (safe _ hk) child member' row.1 refers) row.1 safe'
  apply h.standing.gone child.name row.1 audited
  rw [← Std.ExtTreeMap.isSome_getElem?_iff_mem, there]
  rfl

/-- What is asked of the refusals of PURGE's calls. -/
abbrev Unrestricted {α : Type} (F : Prop) (p : Job α) (u : World) : Prop :=
  Refuses (Drift.still.weather F) (fun e : JobError => e.restricted = false) p u

theorem willing_writeTarget (table : String) (f : TargetTable → TargetTable) : Willing (writeTarget table f) :=
  willing_modify _

theorem willing_setPurgeAuditStatus (table : String) (keys : List Key) (status : PurgeStatus) :
    Willing (setPurgeAuditStatus table keys status) := by
  unfold setPurgeAuditStatus
  split
  next => exact willing_pure _
  next => exact willing_writeTarget _ _

theorem willing_countPurged (ts : TableSpec) : Willing (countPurged ts) := by
  unfold countPurged
  apply Willing.bind (willing_query _)
  intro done
  apply Willing.bind (willing_writeTarget _ _)
  exact fun _ => willing_pure _

theorem willing_recoverPurged (ts : TableSpec) (todo : List Key) : Willing (recoverPurged ts todo) := by
  unfold recoverPurged
  split
  next => exact willing_pure _
  next =>
    apply Willing.bind (willing_query _)
    intro committed
    split
    next => exact willing_pure _
    next =>
      apply Willing.bind (willing_writeTarget _ _)
      intro _
      apply Willing.bind (willing_setPurgeAuditStatus _ _ _)
      exact fun _ => willing_pure _

theorem willing_guard (purge : Bool) (ts : TableSpec) : Willing (guard purge ts) := by
  unfold guard
  apply Willing.bind (willing_query _)
  intro keys
  apply Willing.bind (willing_query _)
  intro ledger
  apply Willing.bind (willing_writeTarget _ _)
  intro _
  split
  next => exact willing_throw _
  next => exact willing_pure _

theorem willing_skipReference (purge : Bool) (ts : TableSpec) : Willing (skipReference purge ts) := by
  unfold skipReference
  split
  next => exact willing_pure _
  next => exact willing_writeTarget _ _

theorem willing_logged {α : Type} {body : Job α} (h : Willing body) : Willing (logged body) := by
  unfold logged
  apply Willing.bind (willing_modify _)
  intro _
  apply Willing.bind (h.tryCatch fun e => Willing.bind (willing_modify _) fun _ => willing_throw e)
  intro result
  apply Willing.bind (willing_modify _)
  exact fun _ => willing_pure _

/-- The stage log is never refused. -/
theorem unrestricted_logged {α : Type} {body : Job α} (h : Unrestricted F body u) : Unrestricted F (logged body) u := by
  have start : wp (Drift.still.weather F) stageLogStart (.keep (fun v => v = u) fun _ _ => True) u := by
    have stable : Drift.still.Stable fun v => v = u := by
      intro v v' moves same
      rw [moves.eq]
      exact same
    exact keep_mono (@keep_touch Drift.still F _ u stable rfl) fun _ _ _ _ => trivial
  unfold logged
  apply refuses_bind (willing_modify _).refuses start
  intro _ v same _
  rw [same]
  apply refuses_bind_willing
  · exact refuses_tryCatch_willing h fun e => Willing.bind (willing_modify _) fun _ => willing_throw e
  · exact fun result => Willing.bind (willing_modify _) fun _ => willing_pure result

theorem unrestricted_purgeBatch {tables : List TableSpec} (free : referenced tables u ts chunk = false) (batchNo : Nat) :
    Unrestricted F (purgeBatch tables ts chunk batchNo) u := by
  unfold purgeBatch
  apply refuses_attempt
  intro t moves e he
  rw [moves.eq] at he
  simp only [free] at he
  split at he
  next =>
    rw [List.mem_singleton.mp he]
    rfl
  next =>
    rw [if_neg Bool.false_ne_true] at he
    split at he
    next =>
      rw [List.mem_singleton.mp he]
      rfl
    next => cases he

/-- The batches of a table, while no row refers to what they delete. -/
theorem unrestricted_purgeAttempt (closed : PurgeClosed m w) (later : ChildrenLater m w) (member : ts ∈ m.tables)
    (role : ts.role = .data) (safe : ∀ k ∈ chunk, k ∈ purgeSafe (x.target ts.name))
    {retry : JobError → Job Nat} (again : ∀ e u, Ahead m w ts u → Guarded m.tablesInOrder x u →
      Unrestricted F (retry e) u)
    (batchNo : Nat) (ahead : Ahead m w ts u) (guarded : Guarded m.tablesInOrder x u) :
    Unrestricted F (purgeAttempt m.tablesInOrder ts chunk batchNo retry) u := by
  have moves : ∀ u v, PurgeMove m.tablesInOrder u v → Ahead m w ts u → Ahead m w ts v := fun _ _ move h => h.purge move
  have member' := mem_tablesInOrder.mpr member
  unfold purgeAttempt
  apply refuses_bind (willing_writeTarget _ _).refuses (keeps_insertPurgeAudit Ahead.stable moves safe ahead guarded)
  intro _ v here there
  have own : ∀ k ∈ chunk, k ∈ purgeSafe (w.target ts.name) := by
    intro k hk
    rw [← here.emptying.safe]
    exact there.still safe k hk
  apply refuses_tryCatch (unrestricted_purgeBatch (here.unreferenced closed later member own) batchNo)
    (keeps_purgeBatch Ahead.stable moves member' role safe batchNo here there)
  intro e v' here' there'
  unfold rolledBackBatch
  split
  next =>
    apply refuses_bind (willing_setPurgeAuditStatus _ _ _).refuses
      (keeps_setPurgeAuditStatus Ahead.stable moves (by decide) (fun purged => by cases purged) here' there')
    intro _ v'' here'' there''
    split
    next => exact again e v'' here'' there''
    next => exact refuses_throw _
  next => exact refuses_throw _

theorem unrestricted_purgeBatchWithRetry (closed : PurgeClosed m w) (later : ChildrenLater m w)
    (member : ts ∈ m.tables) (role : ts.role = .data) (safe : ∀ k ∈ chunk, k ∈ purgeSafe (x.target ts.name))
    (batchNo left : Nat) (ahead : Ahead m w ts u) (guarded : Guarded m.tablesInOrder x u) :
    Unrestricted F (purgeBatchWithRetry m.tablesInOrder ts chunk batchNo left) u := by
  induction left generalizing u with
  | zero =>
    unfold purgeBatchWithRetry
    apply unrestricted_purgeAttempt closed later member role safe _ batchNo ahead guarded
    exact fun e _ _ _ => refuses_throw e
  | succ left ih =>
    exact unrestricted_purgeAttempt closed later member role safe (fun _ _ here there => ih here there) batchNo ahead
      guarded

theorem unrestricted_purgeChunk {batch : BatchConfig} (closed : PurgeClosed m w) (later : ChildrenLater m w)
    (member : ts ∈ m.tables) (role : ts.role = .data) (safe : ∀ k ∈ chunk, k ∈ purgeSafe (x.target ts.name))
    (batchNo : Nat) (ahead : Ahead m w ts u) (guarded : Guarded m.tablesInOrder x u) :
    Unrestricted F (purgeChunk m.tablesInOrder batch ts chunk batchNo) u := by
  unfold purgeChunk
  apply refuses_bind_willing
  · apply refuses_tryCatch_willing
    · exact unrestricted_purgeBatchWithRetry closed later member role safe batchNo _ ahead guarded
    · intro e
      split
      next => exact (willing_countPurged ts).bind fun _ => willing_throw e
      next => exact willing_throw e
  · exact fun _ => willing_setPurgeAuditStatus _ _ _

theorem unrestricted_purgeChunks {batch : BatchConfig} (closed : PurgeClosed m w) (later : ChildrenLater m w)
    (member : ts ∈ m.tables) (role : ts.role = .data) (safe : ∀ k ∈ todo, k ∈ purgeSafe (x.target ts.name))
    (budget batchNo : Nat) (ahead : Ahead m w ts u) (guarded : Guarded m.tablesInOrder x u) :
    Unrestricted F (purgeChunks m.tablesInOrder batch ts budget batchNo todo) u := by
  have moves : ∀ u v, PurgeMove m.tablesInOrder u v → Ahead m w ts u → Ahead m w ts v := fun _ _ move h => h.purge move
  have member' := mem_tablesInOrder.mpr member
  induction budget generalizing u batchNo todo with
  | zero => exact refuses_pure _
  | succ budget ih =>
    unfold purgeChunks
    split
    next => exact refuses_pure _
    next =>
      have first : ∀ k ∈ todo.take batch.purgeBatchRows, k ∈ purgeSafe (x.target ts.name) :=
        fun k hk => safe k (List.mem_of_mem_take hk)
      have rest : ∀ k ∈ todo.drop batch.purgeBatchRows, k ∈ purgeSafe (x.target ts.name) :=
        fun k hk => safe k (List.mem_of_mem_drop hk)
      apply refuses_bind (unrestricted_purgeChunk closed later member role first batchNo ahead guarded)
        (keeps_purgeChunk Ahead.stable moves member' role first batchNo ahead guarded)
      intro _ v here there
      exact ih rest _ here there.1

theorem unrestricted_purgeKeys {batch : BatchConfig} (closed : PurgeClosed m w) (later : ChildrenLater m w)
    (member : ts ∈ m.tables) (role : ts.role = .data) (safe : ∀ k ∈ keys, k ∈ purgeSafe (x.target ts.name))
    (ahead : Ahead m w ts u) (guarded : Guarded m.tablesInOrder x u) :
    Unrestricted F (purgeKeys m.tablesInOrder batch ts keys) u := by
  have moves : ∀ u v, PurgeMove m.tablesInOrder u v → Ahead m w ts u → Ahead m w ts v := fun _ _ move h => h.purge move
  unfold purgeKeys purgedKeys
  apply refuses_bind (willing_query _).refuses
    (keeps_read (E := fun _ => Guarded m.tablesInOrder x) Ahead.stable ahead fun _ v hv _ => guarded.moves hv)
  intro already v here found
  have there := guarded.moves found.1
  have open_ : ∀ k ∈ keys.filter (fun k => k ∉ already), k ∈ purgeSafe (x.target ts.name) :=
    fun k hk => safe k (List.mem_filter.mp hk).1
  apply refuses_bind (willing_recoverPurged _ _).refuses (keeps_recoverPurged Ahead.stable moves open_ here there)
  intro left v' here' found'
  apply refuses_bind_willing
  · exact unrestricted_purgeChunks closed later member role (fun k hk => open_ k (found'.2.1 k hk)) _ _ here' found'.1
  · exact fun _ => willing_countPurged ts

theorem unrestricted_purgeTable {batch : BatchConfig} (closed : PurgeClosed m w) (later : ChildrenLater m w)
    (purge : Bool) (member : ts ∈ m.tables) (role : ts.role = .data)
    (safe : ∀ k ∈ keys, k ∈ purgeSafe (x.target ts.name)) (validated : Nat) (ahead : purge = true → Ahead m w ts u)
    (guarded : Guarded m.tablesInOrder x u) :
    Unrestricted F (purgeTable purge m.tablesInOrder batch ts keys validated) u := by
  unfold purgeTable
  split
  next enabled =>
    apply refuses_bind_willing (unrestricted_purgeKeys closed later member role safe (ahead enabled) guarded)
    intro purged
    split
    next => exact willing_throw _
    next => exact willing_pure _
  next => exact (willing_writeTarget _ _).refuses

/-- PURGE takes the data tables from the last one of the order to the first. -/
theorem dataTables_descending (m : Manifest) : (dataTables m.tablesInOrder).Pairwise fun a b => b.order < a.order := by
  have total : Std.Total fun a b : TableSpec => a.order ≤ b.order := ⟨fun a b => Int.le_total a.order b.order⟩
  have trans : IsTrans TableSpec fun a b => a.order ≤ b.order := ⟨fun _ _ _ => Int.le_trans⟩
  have ascending : m.tablesInOrder.Pairwise fun a b => a.order ≤ b.order := List.pairwise_insertionSort _ _
  have apart : m.tablesInOrder.Pairwise fun a b => a.order ≠ b.order := by
    have orders : (m.tablesInOrder.map TableSpec.order).Nodup :=
      ((List.perm_insertionSort _ _).map _).nodup_iff.mpr m.orders_nodup
    exact List.pairwise_map.mp orders
  have strict : m.tablesInOrder.Pairwise fun a b => a.order < b.order := by
    apply (ascending.and apart).imp
    intro a b h
    exact lt_of_le_of_ne h.1 h.2
  unfold dataTables
  exact List.pairwise_reverse.mpr (strict.filter _)

/-- When PURGE is at a table the later ones have had their turn. -/
theorem later_passed {passed rest : List TableSpec} (split : dataTables m.tablesInOrder = passed ++ ts :: rest)
    {child : TableSpec} (member : child ∈ dataTables m.tablesInOrder) (later : ts.order < child.order) :
    child ∈ passed := by
  have descending := dataTables_descending m
  rw [split] at member descending
  rcases List.mem_append.mp member with before | here
  · exact before
  · have below := (List.pairwise_cons.mp (List.pairwise_append.mp descending).2.1).1
    rcases List.mem_cons.mp here with same | after
    · rw [same] at later
      omega
    · have := below child after
      omega

theorem unrestricted_purgeStage (closed : PurgeClosed m w) (later : ChildrenLater m w) (standing : Standing m w) :
    Unrestricted F (purgeStage m.purge m.batch m.tablesInOrder) w := by
  let I : World → Prop := fun u => Standing m u ∧ Emptying w u
  have stable : Drift.still.Stable I := by
    intro u v moves h
    rw [moves.eq]
    exact h
  have moves : ∀ u v, PurgeMove m.tablesInOrder u v → I u → I v := fun _ _ move h =>
    ⟨h.1.purge move, (h.2.purge move).1⟩
  unfold purgeStage
  apply refuses_bind (willing_forM fun ts _ => willing_skipReference m.purge ts).refuses
    (keep_skipReferences stable moves m.purge ⟨standing, fun _ => rfl, fun _ _ _ h => h⟩)
  intro _ v hIv _
  apply refuses_bind (willing_mapM fun ts _ => willing_logged (willing_guard m.purge ts)).refuses
    (keep_guards stable moves m.purge hIv)
  intro found x hIx agreed
  have firsts : ((dataTables m.tablesInOrder).zip found).map Prod.fst = dataTables m.tablesInOrder := by
    apply List.map_fst_zip
    have lengths := congrArg List.length agreed.found
    rw [List.length_map, List.length_map] at lengths
    omega
  apply refuses_forM (I := I) (E := fun _ _ => True) (J := fun rest u => ∃ passed,
    (dataTables m.tablesInOrder).zip found = passed ++ rest ∧ Guarded m.tablesInOrder x u ∧
      (m.purge = true → ∀ g ∈ passed, ∀ k ∈ purgeSafe (w.target g.1.name), k ∈ (u.source g.1.name).audit))
  · intro g rest u _ hIu so
    obtain ⟨passed, split, guarded, done⟩ := so
    have listed : g ∈ (dataTables m.tablesInOrder).zip found := by
      rw [split]
      exact List.mem_append_right _ (List.mem_cons_self ..)
    obtain ⟨data, own⟩ := agreed.keys_of listed
    obtain ⟨member, role⟩ := mem_dataTables.mp data
    rw [split, List.map_append, List.map_cons] at firsts
    have ahead : m.purge = true → Ahead m w g.1 u := by
      intro enabled
      refine ⟨hIu.1, hIu.2, ?_⟩
      intro child hchild role' after k hk
      have before := later_passed firsts.symm (mem_dataTables.mpr ⟨mem_tablesInOrder.mpr hchild, role'⟩) after
      obtain ⟨g', hg', same⟩ := List.mem_map.mp before
      rw [← same] at hk ⊢
      exact done enabled g' hg' k hk
    have safe : ∀ k ∈ g.2.1, k ∈ purgeSafe (x.target g.1.name) := fun k hk => own ▸ hk
    constructor
    · exact unrestricted_logged (unrestricted_purgeTable closed later m.purge (mem_tablesInOrder.mp member) role safe _
        ahead guarded)
    · apply keep_logged stable hIu
      · intro u₁ same hI₁
        rw [same.eq] at hI₁ ⊢
        apply keep_mono (keeps_purgeTable stable moves m.purge member role (guarded.still safe) _ hI₁ guarded.rebase)
        intro _ u' _ there
        refine ⟨passed ++ [g], by rw [split, List.append_assoc]; rfl, guarded.onward there.1.purging, ?_⟩
        intro enabled g' hg' k hk
        rcases List.mem_append.mp hg' with old | new
        · exact there.1.purging.audited _ k (done enabled g' old k hk)
        · rw [List.mem_singleton.mp new] at hk ⊢
          rw [← hIx.2.safe, ← own] at hk
          rcases there.2 enabled k hk with before | now
          · exact there.1.purging.audited _ k (hI₁.1.purged _ k (mem_purged.mp before))
          · exact now
      · intro _ u' v' same done'
        rw [same.eq]
        exact done'
  · exact hIx
  · exact ⟨[], rfl, agreed.guarded, fun _ _ h => by cases h⟩

end

/-- No orphan is left, whatever was rejected or failed and however the executions ended. Where whatever refers to a
purge_safe row is purge_safe too, in a later table, PURGE is not refused a batch for a foreign key. -/
theorem purge_keeps_references {m : Manifest} {w₀ w : World} (initial : w₀.Initial) (hold : ReferencesHold m w₀)
    (run : m.Reaches (Drift.still.weather True) (fun _ _ => True) w₀ w) :
    ReferencesHold m w ∧ (PurgeClosed m w → ChildrenLater m w → ∀ (schedule : Schedule) (turns : List (Turn World JobError)),
      (∀ turn ∈ turns, turn.Within (Drift.still.weather True)) →
      ∀ e ∈ (runStage m schedule .purge).refusals turns w, e.restricted = false) := by
  have standing := (Standing.steady m).reaches (.start initial hold) run
  refine ⟨standing.references, ?_⟩
  intro closed later schedule turns within
  have unrestricted : Unrestricted True (runStage m schedule .purge) w := unrestricted_purgeStage closed later standing
  exact refuses_run unrestricted within

/-! Two tables whose rows refer to the row of the same key in the other table. -/

def linkedTable (name parent : String) (order : Int) : TableSpec :=
  { cardTable name order .data with
    parent := some ⟨parent, ["ID"], ["ID"]⟩
    foreignKeys := fun row => [(parent, row.key)] }

def linkedManifest (parentOrder childOrder : Int) (apart : parentOrder ≠ childOrder) : Manifest where
  tables := [cardTable "DOCARCH" parentOrder .data, linkedTable "FILEAUD" "DOCARCH" childOrder]
  purge := true
  sha256 := "linked"
  batch := .of 3 1 3 3 three_rows Nat.one_pos three_rows three_rows
  loadEngine := .serial
  recordsPerSlice := 1
  recordsPerSlice_pos := Nat.one_pos
  orders_nodup := by simp [cardTable, linkedTable, apart]
  names_nodup := by simp [cardTable, linkedTable]
  parent_known := by simp [cardTable, linkedTable]
  lookup_known := by simp [cardTable, linkedTable]

/-- One parent and one child; the target refuses bodies of the child from 200 on. -/
def linkedWorld (body : Int) : World :=
  cardWorld [("DOCARCH", [cardRow 'A' 1]), ("FILEAUD", [cardRow 'A' body])]

theorem linkedWorld_initial (body : Int) : (linkedWorld body).Initial := ⟨rfl, fun _ => rfl, fun _ => rfl⟩

theorem linked_hold (parentOrder childOrder : Int) (apart : parentOrder ≠ childOrder) (body : Int) :
    ReferencesHold (linkedManifest parentOrder childOrder apart) (linkedWorld body) := by
  intro ts member k columns held ref href
  rcases List.mem_cons.mp member with rfl | member
  · cases href
  · cases List.mem_singleton.mp member
    rw [List.mem_singleton.mp href]
    rcases KeyMap.upsertAll_cases held with row | old
    · have same : k = ['A'] := congrArg Prod.fst (List.mem_singleton.mp row)
      rw [same]
      exact KeyMap.mem_upsertAll.mpr (Or.inr (List.mem_singleton.mpr rfl))
    · cases old.2

theorem Manifest.reaches_calm (m : Manifest) (w : World) (verbs : List Verb) :
    m.Reaches (Drift.still.weather True) (fun _ _ => True) w (m.after w (verbs.map Execution.calm)) := by
  apply Manifest.reaches_after
  intro e member
  obtain ⟨verb, _, rfl⟩ := List.mem_map.mp member
  exact ⟨Execution.calm_within _ _ _, fun _ => trivial⟩

def foreignKeyRefusal : JobError := .source (some (-532)) (some "23504") "execute failed for DELETE FROM DOCARCH" none

/-- The child is rejected by LOAD, its parent becomes purge_safe all the same, and the source refuses to delete it:
the run fails. Where the manifest lists a parent after its child, and VALIDATE ran twice, both are purge_safe and the
parent is refused as well. -/
theorem parent_blocked_by_child :
    ((linkedWorld 250).Initial ∧ ReferencesHold (linkedManifest 1 2 (by decide)) (linkedWorld 250) ∧
      (((linkedManifest 1 2 (by decide)).after (linkedWorld 250) [.calm .all]).runRow.map RunRow.status = some .failed) ∧
      ∃ w, (linkedManifest 1 2 (by decide)).Reaches (Drift.still.weather True) (fun _ _ => True) (linkedWorld 250) w ∧
        ¬ PurgeClosed (linkedManifest 1 2 (by decide)) w ∧
        (runStage (linkedManifest 1 2 (by decide)) .inOrder .purge).refusals [] w = [foreignKeyRefusal]) ∧
    (linkedWorld 5).Initial ∧ ReferencesHold (linkedManifest 2 1 (by decide)) (linkedWorld 5) ∧
      ∃ w, (linkedManifest 2 1 (by decide)).Reaches (Drift.still.weather True) (fun _ _ => True) (linkedWorld 5) w ∧
        purgeSafe (w.target "DOCARCH") = [['A']] ∧ purgeSafe (w.target "FILEAUD") = [['A']] ∧
        (runStage (linkedManifest 2 1 (by decide)) .inOrder .purge).refusals [] w = [foreignKeyRefusal] := by
  constructor
  · refine ⟨linkedWorld_initial _, linked_hold _ _ _ _, by decide +kernel, _,
      Manifest.reaches_calm _ _ [.one .extract, .one .load, .one .validate], ?_, by decide +kernel⟩
    intro closed
    have safe := closed (cardTable "DOCARCH" 1 .data) (List.mem_cons_self ..) ['A'] (by decide +kernel)
      (linkedTable "FILEAUD" "DOCARCH" 2) (List.mem_cons_of_mem _ (List.mem_singleton.mpr rfl)) ['A']
      ⟨(cardRow 'A' 250).2, by decide +kernel, List.mem_singleton.mpr rfl⟩
    exact absurd safe (by decide +kernel)
  · refine ⟨linkedWorld_initial _, linked_hold _ _ _ _, _,
      Manifest.reaches_calm _ _ [.one .extract, .one .load, .one .validate, .one .validate], ?_⟩
    exact ⟨by decide +kernel, by decide +kernel, by decide +kernel⟩

/-- Parent and child are clean, and PURGE deletes both. -/
theorem linked_purge_unrefused :
    ((runStage (linkedManifest 1 2 (by decide)) .inOrder .purge).refusals []
      ((linkedManifest 1 2 (by decide)).after (linkedWorld 5)
        ([.one .extract, .one .load, .one .validate].map Execution.calm))).any JobError.restricted = false := by
  have parents : purgeSafe (((linkedManifest 1 2 (by decide)).after (linkedWorld 5)
      ([.one .extract, .one .load, .one .validate].map Execution.calm)).target "DOCARCH") = [['A']] := by decide +kernel
  have children : purgeSafe (((linkedManifest 1 2 (by decide)).after (linkedWorld 5)
      ([.one .extract, .one .load, .one .validate].map Execution.calm)).target "FILEAUD") = [['A']] := by decide +kernel
  obtain ⟨_, unrefused⟩ := purge_keeps_references (linkedWorld_initial 5) (linked_hold 1 2 (by decide) 5)
    (Manifest.reaches_calm _ _ [.one .extract, .one .load, .one .validate])
  rw [List.any_eq_false]
  simp only [Bool.not_eq_true]
  apply unrefused _ _ .inOrder [] (fun _ h => absurd h List.not_mem_nil)
  · intro ts member k hk child member' k' refers
    obtain ⟨columns, held, href⟩ := refers
    rcases List.mem_cons.mp member' with rfl | member'
    · cases href
    · cases List.mem_singleton.mp member'
      obtain ⟨name, same⟩ := Prod.mk.inj (List.mem_singleton.mp href)
      rw [name, parents, same] at hk
      have there : k' ∈ purgeSafe (((linkedManifest 1 2 (by decide)).after (linkedWorld 5)
          ([.one .extract, .one .load, .one .validate].map Execution.calm)).target "FILEAUD") := by
        rw [children]
        exact hk
      exact there
  · intro ts member k hk child member' k' refers
    obtain ⟨columns, held, href⟩ := refers
    rcases List.mem_cons.mp member' with rfl | member'
    · cases href
    · cases List.mem_singleton.mp member'
      obtain ⟨name, _⟩ := Prod.mk.inj (List.mem_singleton.mp href)
      rcases List.mem_cons.mp member with rfl | member
      · decide
      · cases List.mem_singleton.mp member
        exact absurd name (by decide)

end OtterWorks.Migration
