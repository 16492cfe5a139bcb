import OtterWorks.Tenants.Sanitize
import Mathlib.Tactic.Tauto

namespace OtterWorks.Tenants

/-- What is named after a tenant: its namespace, its database, its prefixes in the shared buckets and its partition in
the shared tables. -/
inductive Resource
  | ns (name : Text)
  | db (name : Text)
  | s3 (before : Text)
  | ddb (partition : Text)
  deriving DecidableEq, Repr

def derivedNames (id : Text) : List Resource :=
  [.ns (tenantNamespace id), .db (tenantDbName id), .s3 (s3TenantRoot ++ sanitizeId id ++ ['/']),
    .s3 (sanitizeId id ++ ['/']), .ddb (sanitizeId id)]

/-- Removing one removes the other: a bucket is cleared of every key below a prefix. -/
def Resource.covers : Resource → Resource → Bool
  | .s3 a, .s3 b => decide (a <+: b)
  | a, b => a = b

/-- A call of `gc_tenant`, of `aws s3 rm`, or of `gc_ddb_partition`. -/
inductive Deletion
  | tenant (id : Text)
  | s3Prefix (bucket before id : Text)
  | partition (table id : Text)
  deriving DecidableEq, Repr

def Deletion.id : Deletion → Text
  | .tenant id => id
  | .s3Prefix _ _ id => id
  | .partition _ id => id

def Deletion.removes : Deletion → List Resource
  | .tenant id => derivedNames id
  | .s3Prefix _ before _ => [.s3 before]
  | .partition _ id => [.ddb id]

/-- A read of the control table that a sweep makes: `ctl_tenant_exists` for a namespace, a prefix or a partition, and
the scan of `ctl_tenant_ids`. -/
inductive Lookup
  | ns (name : Text)
  | tenantIds
  | s3Prefix (bucket before : Text)
  | partition (table id : Text)
  deriving DecidableEq, Repr

/-- The words that the sweeps' listings print, and which reads of the control table answer. -/
structure Listing where
  namespaces : List Text
  databases : List Text
  prefixes : List (Text × Text)
  partitions : List (Text × Text)
  answers : Lookup → Bool

/-- The tenants that have a META item, and the deletions so far, each with the tenants it was called beside. -/
structure Sweep where
  tenants : List Text
  log : List (List Text × Deletion)
  deriving DecidableEq, Repr

/-- `gc_tenant` ends with `ctl_delete_tenant`. -/
def Sweep.delete (s : Sweep) (d : Deletion) : Sweep where
  tenants := match d with
    | .tenant id => s.tenants.filter (· ≠ id)
    | _ => s.tenants
  log := s.log ++ [(s.tenants, d)]

/-- `ctl_tenant_exists`: a read that fails prints what a missing item does. -/
def ctlTenantExists (l : Listing) (tenants : List Text) (lookup : Lookup) (id : Text) : Bool :=
  l.answers lookup && tenants.contains id

/-- A sweep goes through the words of a listing and deletes what is not spared. -/
def sweepWords {α : Type} (spared : List Text → α → Bool) (call : α → Deletion) (words : List α) (s : Sweep) : Sweep :=
  words.foldl (fun s word => if spared s.tenants word then s else s.delete (call word)) s

def platformNamespaces : List Text := [text "otterworks-platform", text "otterworks-system", text "otterworks"]

def namespaceId (ns : Text) : Text := stripPrefix (text "otterworks-") ns

def sweepOrphanNamespaces (l : Listing) : Sweep → Sweep :=
  sweepWords (fun tenants ns => platformNamespaces.contains ns || namespaceId ns = [] ||
      ctlTenantExists l tenants (.ns ns) (namespaceId ns))
    (fun ns => .tenant (namespaceId ns)) l.namespaces

def databaseId (db : Text) : Text := stripPrefix (text "otterworks_") db

/-- The databases are compared with the names that the scanned ids have. -/
def sweepOrphanDbs (l : Listing) (s : Sweep) : Sweep :=
  if l.answers .tenantIds = false then s
  else if s.tenants = [] then s
  else
    let known := s.tenants.map tenantDbName
    sweepWords (fun _ db => db = text "otterworks" || databaseId db = [] || known.contains db)
      (fun db => .tenant (databaseId db)) l.databases s

def prefixId (before : Text) : Text := stripSlash (stripPrefix s3TenantRoot before)

def sweepOrphanS3 (l : Listing) : Sweep → Sweep :=
  sweepWords (fun tenants p => p.2 = text "None" || prefixId p.2 = [] ||
      ctlTenantExists l tenants (.s3Prefix p.1 p.2) (prefixId p.2))
    (fun p => .s3Prefix p.1 p.2 (prefixId p.2)) l.prefixes

def sweepOrphanDdb (l : Listing) : Sweep → Sweep :=
  sweepWords (fun tenants p => p.2 = [] || ctlTenantExists l tenants (.partition p.1 p.2) p.2)
    (fun p => .partition p.1 p.2) l.partitions

def sweepOrphans (l : Listing) (s : Sweep) : Sweep :=
  sweepOrphanDdb l (sweepOrphanS3 l (sweepOrphanDbs l (sweepOrphanNamespaces l s)))

/-- A deletion and a tenant share a derived name, or what is removed covers a name of the tenant. -/
def Hits (d : Deletion) (t : Text) : Prop :=
  (∃ n ∈ derivedNames d.id, n ∈ derivedNames t) ∨ ∃ n ∈ d.removes, ∃ m ∈ derivedNames t, n.covers m = true

instance (d : Deletion) (t : Text) : Decidable (Hits d t) := inferInstanceAs (Decidable (_ ∨ _))

/-- No deletion hit a tenant that was there when it was called. -/
def Spares (s : Sweep) : Prop := ∀ call ∈ s.log, ∀ t ∈ call.1, ¬ Hits call.2 t

instance (s : Sweep) : Decidable (Spares s) := inferInstanceAs (Decidable (∀ call ∈ s.log, _))

/-- The condition for the sweep: a listed word whose deletion would hit a tenant is itself the id of one and its read is
answered, and a database is one that a tenant has. -/
structure Fenced (l : Listing) (tenants : List Text) : Prop where
  namespaces : ∀ ns ∈ l.namespaces, ns ∉ platformNamespaces → namespaceId ns ≠ [] →
    (∃ t ∈ tenants, Hits (.tenant (namespaceId ns)) t) → l.answers (.ns ns) = true ∧ namespaceId ns ∈ tenants
  databases : l.answers .tenantIds = true → ∀ db ∈ l.databases, db ≠ text "otterworks" → databaseId db ≠ [] →
    (∃ t ∈ tenants, Hits (.tenant (databaseId db)) t) → ∃ u ∈ tenants, tenantDbName u = db
  prefixes : ∀ p ∈ l.prefixes, p.2 ≠ text "None" → prefixId p.2 ≠ [] →
    (∃ t ∈ tenants, Hits (.s3Prefix p.1 p.2 (prefixId p.2)) t) →
      l.answers (.s3Prefix p.1 p.2) = true ∧ prefixId p.2 ∈ tenants
  partitions : ∀ p ∈ l.partitions, p.2 ≠ [] → (∃ t ∈ tenants, Hits (.partition p.1 p.2) t) →
    l.answers (.partition p.1 p.2) = true ∧ p.2 ∈ tenants

section

variable {l : Listing} {s : Sweep} {d : Deletion} {tenants : List Text} {α : Type}

theorem hits_self (id : Text) : Hits (.tenant id) id := by
  refine Or.inl ⟨.ns (tenantNamespace id), ?_, ?_⟩
  · exact List.mem_cons_self ..
  · exact List.mem_cons_self ..

/-- A deletion that hits no tenant takes none out of the control table. -/
theorem Sweep.delete_tenants (clear : ∀ t ∈ s.tenants, ¬ Hits d t) : (s.delete d).tenants = s.tenants := by
  unfold Sweep.delete
  cases d with
  | tenant id =>
    apply List.filter_eq_self.mpr
    intro t member
    have differ : t ≠ id := by
      intro same
      subst same
      exact clear t member (hits_self t)
    exact decide_eq_true differ
  | s3Prefix => rfl
  | partition => rfl

theorem spares_delete : Spares (s.delete d) ↔ Spares s ∧ ∀ t ∈ s.tenants, ¬ Hits d t := by
  unfold Spares Sweep.delete
  simp only [List.mem_append, List.mem_singleton]
  constructor
  · intro h
    exact ⟨fun call member => h call (Or.inl member), fun t member => h (s.tenants, d) (Or.inr rfl) t member⟩
  · intro h call member t there
    rcases member with old | new
    · exact h.1 call old t there
    · subst new
      exact h.2 t there

/-- One sweep hits no tenant exactly if it spares every word whose deletion would, and then the tenants stay. -/
theorem spares_sweepWords {spared : List Text → α → Bool} {call : α → Deletion} (words : List α) (s : Sweep) :
    (Spares (sweepWords spared call words s) ↔
      Spares s ∧ ∀ word ∈ words, (∃ t ∈ s.tenants, Hits (call word) t) → spared s.tenants word = true) ∧
    (Spares (sweepWords spared call words s) → (sweepWords spared call words s).tenants = s.tenants) := by
  unfold sweepWords
  induction words generalizing s with
  | nil => simp
  | cons word words ih =>
    rw [List.foldl_cons]
    by_cases kept : spared s.tenants word = true
    · rw [if_pos kept]
      obtain ⟨clean, same⟩ := ih s
      refine ⟨?_, same⟩
      rw [clean]
      apply and_congr_right
      intro _
      rw [List.forall_mem_cons]
      exact ⟨fun h => ⟨fun _ => kept, h⟩, fun h => h.2⟩
    · rw [if_neg kept]
      obtain ⟨clean, same⟩ := ih (s.delete (call word))
      by_cases hit : ∃ t ∈ s.tenants, Hits (call word) t
      · have spoiled : ¬ Spares (s.delete (call word)) := by
          rw [spares_delete]
          obtain ⟨t, member, hits⟩ := hit
          exact fun h => h.2 t member hits
        constructor
        · rw [clean]
          constructor
          · exact fun h => absurd h.1 spoiled
          · exact fun h => absurd (h.2 word (List.mem_cons_self ..) hit) kept
        · exact fun h => absurd (clean.mp h).1 spoiled
      · have clear : ∀ t ∈ s.tenants, ¬ Hits (call word) t := fun t member hits => hit ⟨t, member, hits⟩
        have stay := Sweep.delete_tenants clear
        constructor
        · rw [clean, stay, spares_delete, List.forall_mem_cons]
          constructor
          · exact fun h => ⟨h.1.1, fun found => absurd found hit, h.2⟩
          · exact fun h => ⟨⟨h.1, clear⟩, h.2.2⟩
        · intro h
          rw [same h, stay]

theorem ctlTenantExists_iff {lookup : Lookup} {id : Text} :
    ctlTenantExists l tenants lookup id = true ↔ l.answers lookup = true ∧ id ∈ tenants := by
  unfold ctlTenantExists
  simp

/-- Words passed over, and words whose id is known. -/
theorem spared_iff {skip hit known : Prop} : (hit → skip ∨ known) ↔ (¬ skip → hit → known) := by
  tauto

theorem spares_namespaces : Spares (sweepOrphanNamespaces l s) ↔ Spares s ∧
    ∀ ns ∈ l.namespaces, ns ∉ platformNamespaces → namespaceId ns ≠ [] →
      (∃ t ∈ s.tenants, Hits (.tenant (namespaceId ns)) t) → l.answers (.ns ns) = true ∧ namespaceId ns ∈ s.tenants := by
  unfold sweepOrphanNamespaces
  rw [(spares_sweepWords l.namespaces s).1]
  apply and_congr_right
  intro _
  apply forall₂_congr
  intro ns _
  simp only [Bool.or_eq_true, List.contains_iff_mem, decide_eq_true_eq, ctlTenantExists_iff]
  rw [spared_iff, not_or, and_imp]

theorem spares_dbs : Spares (sweepOrphanDbs l s) ↔ Spares s ∧ (l.answers .tenantIds = true →
    ∀ db ∈ l.databases, db ≠ text "otterworks" → databaseId db ≠ [] →
      (∃ t ∈ s.tenants, Hits (.tenant (databaseId db)) t) → ∃ u ∈ s.tenants, tenantDbName u = db) := by
  unfold sweepOrphanDbs
  split
  next silent =>
    simp [silent]
  next answered =>
    split
    next empty =>
      simp [empty]
    next =>
      dsimp only
      rw [(spares_sweepWords l.databases s).1]
      apply and_congr_right
      intro _
      simp only [Bool.not_eq_false] at answered
      simp only [answered, forall_const]
      apply forall₂_congr
      intro db _
      simp only [Bool.or_eq_true, List.contains_iff_mem, decide_eq_true_eq, List.mem_map]
      rw [spared_iff, not_or, and_imp]

theorem spares_s3 : Spares (sweepOrphanS3 l s) ↔ Spares s ∧
    ∀ p ∈ l.prefixes, p.2 ≠ text "None" → prefixId p.2 ≠ [] →
      (∃ t ∈ s.tenants, Hits (.s3Prefix p.1 p.2 (prefixId p.2)) t) →
        l.answers (.s3Prefix p.1 p.2) = true ∧ prefixId p.2 ∈ s.tenants := by
  unfold sweepOrphanS3
  rw [(spares_sweepWords l.prefixes s).1]
  apply and_congr_right
  intro _
  apply forall₂_congr
  intro p _
  simp only [Bool.or_eq_true, decide_eq_true_eq, ctlTenantExists_iff]
  rw [spared_iff, not_or, and_imp]

theorem spares_ddb : Spares (sweepOrphanDdb l s) ↔ Spares s ∧
    ∀ p ∈ l.partitions, p.2 ≠ [] → (∃ t ∈ s.tenants, Hits (.partition p.1 p.2) t) →
      l.answers (.partition p.1 p.2) = true ∧ p.2 ∈ s.tenants := by
  unfold sweepOrphanDdb
  rw [(spares_sweepWords l.partitions s).1]
  apply and_congr_right
  intro _
  apply forall₂_congr
  intro p _
  simp only [Bool.or_eq_true, decide_eq_true_eq, ctlTenantExists_iff]
  exact spared_iff

theorem sweepOrphanDbs_tenants (clean : Spares (sweepOrphanDbs l s)) : (sweepOrphanDbs l s).tenants = s.tenants := by
  unfold sweepOrphanDbs at clean ⊢
  split at clean
  next silent => rw [if_pos silent]
  next answered =>
    rw [if_neg answered]
    split at clean
    next empty => rw [if_pos empty]
    next there =>
      rw [if_neg there]
      exact (spares_sweepWords l.databases s).2 clean

/-- The orphan sweep spares the tenants in the control table exactly if it is fenced. -/
theorem sweep_spares_tenants_iff (l : Listing) (tenants : List Text) :
    Spares (sweepOrphans l ⟨tenants, []⟩) ↔ Fenced l tenants := by
  let start : Sweep := ⟨tenants, []⟩
  let namespaces := sweepOrphanNamespaces l start
  let databases := sweepOrphanDbs l namespaces
  let prefixes := sweepOrphanS3 l databases
  have nothing : Spares start := fun _ member => absurd member List.not_mem_nil
  have stay₁ : Spares namespaces → namespaces.tenants = tenants := (spares_sweepWords l.namespaces start).2
  have stay₂ : Spares databases → databases.tenants = namespaces.tenants := sweepOrphanDbs_tenants
  have stay₃ : Spares prefixes → prefixes.tenants = databases.tenants := (spares_sweepWords l.prefixes databases).2
  change Spares (sweepOrphanDdb l prefixes) ↔ Fenced l tenants
  rw [spares_ddb]
  constructor
  · intro h
    obtain ⟨clean₃, partitions⟩ := h
    have sweep₃ := spares_s3.mp clean₃
    have sweep₂ := spares_dbs.mp sweep₃.1
    have sweep₁ := spares_namespaces.mp sweep₂.1
    have same₁ := stay₁ sweep₂.1
    have same₂ := (stay₂ sweep₃.1).trans same₁
    have same₃ := (stay₃ clean₃).trans same₂
    refine ⟨sweep₁.2, ?_, ?_, ?_⟩
    · rw [← same₁]
      exact sweep₂.2
    · rw [← same₂]
      exact sweep₃.2
    · rw [← same₃]
      exact partitions
  · intro fenced
    have clean₁ : Spares namespaces := spares_namespaces.mpr ⟨nothing, fenced.namespaces⟩
    have same₁ := stay₁ clean₁
    have clean₂ : Spares databases := by
      refine spares_dbs.mpr ⟨clean₁, ?_⟩
      rw [same₁]
      exact fenced.databases
    have same₂ := (stay₂ clean₂).trans same₁
    have clean₃ : Spares prefixes := by
      refine spares_s3.mpr ⟨clean₂, ?_⟩
      rw [same₂]
      exact fenced.prefixes
    have same₃ := (stay₃ clean₃).trans same₂
    refine ⟨clean₃, ?_⟩
    rw [same₃]
    exact fenced.partitions

/-- One failed read of the control table, and the namespace of a live tenant goes. -/
theorem failed_read_reaps_tenant :
    ¬ Spares (sweepOrphans ⟨[text "otterworks-derek"], [], [], [], fun lookup => lookup ≠ .ns (text "otterworks-derek")⟩
      ⟨[text "derek"], []⟩) := by
  decide

end

end OtterWorks.Tenants
