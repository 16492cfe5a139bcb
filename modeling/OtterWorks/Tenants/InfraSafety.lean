import OtterWorks.Tenants.InfraSweep

namespace OtterWorks.Tenants

/-! ### Words between blanks -/

theorem joined_eq_flatMap {words : List Text} (h : words ≠ []) :
    [' '].intercalate words ++ [' '] = words.flatMap fun word => word ++ [' '] := by
  induction words with
  | nil => exact absurd rfl h
  | cons word words ih =>
    cases words with
    | nil => simp
    | cons next rest =>
      have hrest := ih (List.cons_ne_nil next rest)
      rw [List.intercalate_cons_cons, List.flatMap_cons, ← hrest]
      simp [List.append_assoc]

/-- The blanks that follow the words can be read as standing before them. -/
theorem blank_cons_flatMap (words : List Text) :
    ' ' :: (words.flatMap fun word => word ++ [' ']) = (words.flatMap fun word => ' ' :: word) ++ [' '] := by
  induction words with
  | nil => rfl
  | cons word words ih =>
    calc ' ' :: ((word :: words).flatMap fun word => word ++ [' '])
        = ' ' :: word ++ (' ' :: words.flatMap fun word => word ++ [' ']) := by simp
      _ = ((word :: words).flatMap fun word => ' ' :: word) ++ [' '] := by rw [ih]; simp

theorem hasWord_of_mem {words : List Text} {word : Text} (h : word ∈ words) :
    hasWord ([' '].intercalate words) word = true := by
  have hne : words ≠ [] := List.ne_nil_of_mem h
  obtain ⟨front, rest, hsplit⟩ := List.append_of_mem h
  have hwords : ' ' :: ([' '].intercalate words) ++ [' '] =
      (front.flatMap fun word => ' ' :: word) ++ (' ' :: word ++ [' ']) ++ rest.flatMap fun word => word ++ [' '] := by
    rw [List.cons_append, joined_eq_flatMap hne, hsplit, List.flatMap_append, List.flatMap_cons, ← List.cons_append,
      blank_cons_flatMap front]
    simp [List.append_assoc]
  unfold hasWord
  rw [hwords]
  exact decide_eq_true ⟨_, _, rfl⟩

/-! ### Records of a tenant -/

theorem labelTenant_shape {shape : Text} (h : shape ∈ tenantLabels) (id : Text) : labelTenant (shape ++ id) = id := by
  simp only [tenantLabels, List.mem_cons, List.not_mem_nil, or_false] at h
  rcases h with h | h | h | h | h | h <;> subst h <;> simp [labelTenant, stripPrefix, text]

namespace InfraEnv

/-- The names that a tenant's records have. -/
def TenantRecord (env : InfraEnv) (name id : Text) : Prop :=
  id ≠ [] ∧ ∃ shape ∈ tenantLabels, name = shape ++ id ++ '.' :: env.hostSuffix

theorem recordTenant_some {env : InfraEnv} {name id : Text} (h : env.recordTenant name = some id) :
    env.TenantRecord name id := by
  unfold recordTenant at h
  dsimp only at h
  split at h
  next hsuffix =>
    split at h
    next hshape =>
      split at h
      next => simp at h
      next hid =>
        cases Option.some.inj h
        refine ⟨hid, ?_⟩
        obtain ⟨shape, hmem, hpre⟩ := List.any_eq_true.mp hshape
        obtain ⟨rest, hrest⟩ := List.isPrefixOf_iff_prefix.mp hpre
        obtain ⟨label, hlabel⟩ := List.isSuffixOf_iff_suffix.mp hsuffix
        have htake : name.take (name.length - ('.' :: env.hostSuffix).length) = label := by
          rw [← hlabel]
          simp
        rw [htake] at hrest ⊢
        have hid' := labelTenant_shape hmem rest
        rw [hrest] at hid'
        exact ⟨shape, hmem, by rw [hid', hrest, hlabel]⟩
    next => simp at h
  next => simp at h

/-! ### What each sweep deletes -/

section Sweeps

variable {env : InfraEnv} {kind : InfraKind} {d : InfraDelete}

theorem mem_listed {r : InfraResource} :
    r ∈ env.listed kind ↔ env.answers (.describe kind) = true ∧ r ∈ env.resources kind := by
  unfold listed
  split
  next h => simp [h]
  next h => simp [h]

/-- A cluster is read only from tags that were. -/
theorem tagsOf_answered {r : InfraResource} :
    clusterFromTags (env.tagsOf kind r) ≠ [] ↔
      env.answers (.describeTags kind r.id) = true ∧ clusterFromTags r.tags ≠ [] := by
  unfold tagsOf
  split
  next h => simp [h]
  next h => simp [h, clusterFromTags]

theorem tagsOf_eq {r : InfraResource} (h : env.answers (.describeTags kind r.id) = true) :
    env.tagsOf kind r = r.tags := by simp [tagsOf, h]

theorem clusterIsDeadAndOurs_iff {name : Text} :
    env.clusterIsDeadAndOurs name = true ↔ env.clusterIsOurs name = true ∧ env.clusterIsLive name = false := by
  simp [clusterIsDeadAndOurs]

theorem not_mem_clusters {name : Text} (h : env.clusterIsLive name = false) : name ∉ env.clusters := by
  intro hmem
  have hword := hasWord_of_mem hmem
  unfold clusterIsLive liveClusters at h
  rw [hword] at h
  cases h

/-- The resource is tagged for a cluster that may be swept, and its tags were read. -/
def Tagged (env : InfraEnv) (kind : InfraKind) (r : InfraResource) : Prop :=
  env.answers (.describeTags kind r.id) = true ∧ clusterFromTags r.tags ≠ [] ∧
    env.clusterIsOurs (clusterFromTags r.tags) = true

theorem mem_sweepElbs :
    d ∈ env.sweepElbs kind ↔
      env.answers (.describe kind) = true ∧ ∃ lb ∈ env.resources kind, d = .resource kind lb.id ∧
        env.Tagged kind lb ∧
        (env.clusterIsLive (clusterFromTags lb.tags) = false ∨
          serviceTag lb.tags ≠ [] ∧ env.serviceIsLive kind lb (serviceTag lb.tags) = false) := by
  have hone : ∀ lb, (let cluster := clusterFromTags (env.tagsOf kind lb)
      let svc := serviceTag (env.tagsOf kind lb)
      if cluster = [] then none
      else if env.clusterIsDeadAndOurs cluster then some (InfraDelete.resource kind lb.id)
      else if env.clusterIsOurs cluster ∧ svc ≠ [] ∧ env.serviceIsLive kind lb svc = false then
        some (.resource kind lb.id)
      else none) = some d ↔
      d = .resource kind lb.id ∧ env.Tagged kind lb ∧
        (env.clusterIsLive (clusterFromTags lb.tags) = false ∨
          serviceTag lb.tags ≠ [] ∧ env.serviceIsLive kind lb (serviceTag lb.tags) = false) := by
    intro lb
    dsimp only
    by_cases htags : clusterFromTags (env.tagsOf kind lb) = []
    · have hnot : ¬env.Tagged kind lb := fun h => tagsOf_answered.mpr ⟨h.1, h.2.1⟩ htags
      simp [htags, hnot]
    · obtain ⟨hread, hcluster⟩ := tagsOf_answered.mp htags
      rw [tagsOf_eq hread, if_neg hcluster]
      simp only [Tagged, hread, clusterIsDeadAndOurs_iff]
      cases env.clusterIsOurs (clusterFromTags lb.tags) <;> cases env.clusterIsLive (clusterFromTags lb.tags) <;>
        simp [hcluster, @eq_comm _ d (.resource kind lb.id), and_comm]
  unfold sweepElbs
  simp only [List.mem_filterMap, hone, mem_listed]
  constructor
  · rintro ⟨lb, ⟨hlisted, hmem⟩, h⟩
    exact ⟨hlisted, lb, hmem, h⟩
  · rintro ⟨hlisted, lb, hmem, h⟩
    exact ⟨lb, ⟨hlisted, hmem⟩, h⟩

theorem mem_sweepUnattached :
    d ∈ env.sweepUnattached kind ↔
      env.answers (.describe kind) = true ∧ ∃ r ∈ env.resources kind, d = .resource kind r.id ∧ env.Tagged kind r ∧
        env.answers (.describeAttached kind r.id) = true ∧ r.attached = 0 := by
  unfold sweepUnattached
  simp only [List.mem_filterMap, mem_listed, Option.ite_none_right_eq_some, ne_eq]
  constructor
  · rintro ⟨r, ⟨hlisted, hmem⟩, ⟨hattached, hzero, hcluster, hours⟩, hd⟩
    obtain ⟨hread, hcluster⟩ := tagsOf_answered.mp hcluster
    rw [tagsOf_eq hread] at hours
    exact ⟨hlisted, r, hmem, (Option.some.inj hd).symm, ⟨hread, hcluster, hours⟩, hattached, hzero⟩
  · rintro ⟨hlisted, r, hmem, hd, ⟨hread, hcluster, hours⟩, hattached, hzero⟩
    rw [← tagsOf_eq hread] at hcluster hours
    exact ⟨r, ⟨hlisted, hmem⟩, ⟨hattached, hzero, hcluster, hours⟩, congrArg some hd.symm⟩

theorem mem_sweepDead :
    d ∈ env.sweepDead kind ↔
      env.answers (.describe kind) = true ∧ ∃ r ∈ env.resources kind, d = .resource kind r.id ∧ env.Tagged kind r ∧
        env.clusterIsLive (clusterFromTags r.tags) = false := by
  unfold sweepDead
  simp only [List.mem_filterMap, mem_listed, Option.ite_none_right_eq_some, ne_eq, clusterIsDeadAndOurs_iff]
  constructor
  · rintro ⟨r, ⟨hlisted, hmem⟩, ⟨hcluster, hours, hdead⟩, hd⟩
    obtain ⟨hread, hcluster⟩ := tagsOf_answered.mp hcluster
    rw [tagsOf_eq hread] at hours hdead
    exact ⟨hlisted, r, hmem, (Option.some.inj hd).symm, ⟨hread, hcluster, hours⟩, hdead⟩
  · rintro ⟨hlisted, r, hmem, hd, ⟨hread, hcluster, hours⟩, hdead⟩
    rw [← tagsOf_eq hread] at hcluster hours hdead
    exact ⟨r, ⟨hlisted, hmem⟩, ⟨hcluster, hours, hdead⟩, congrArg some hd.symm⟩

theorem mem_sweepRoute53 :
    d ∈ env.sweepRoute53 ↔
      env.dnsZone = true ∧ env.answers .listRecordNames = true ∧ ∃ listed ∈ env.records, ∃ id,
        d = .record (stripDot listed) ∧ env.recordTenant (stripDot listed) = some id ∧
          env.tenantExists (stripDot listed) id = false ∧ env.answers (.listRecordSets (stripDot listed)) = true := by
  unfold sweepRoute53
  cases env.dnsZone with
  | false => simp
  | true =>
    cases env.answers .listRecordNames with
    | false => simp
    | true =>
      simp only [Bool.true_eq_false, if_false, List.mem_filterMap, true_and]
      constructor
      · rintro ⟨listed, hmem, h⟩
        split at h
        next => cases h
        next id hid =>
          split at h
          next hgone => exact ⟨listed, hmem, id, (Option.some.inj h).symm, hid, hgone⟩
          next => cases h
      · rintro ⟨listed, hmem, id, hd, hid, hgone⟩
        exact ⟨listed, hmem, by rw [hid]; simp [hgone, hd]⟩

theorem serviceIsLive_eq_false {r : InfraResource} {svc : Text} :
    env.serviceIsLive kind r svc = false ↔
      (serviceNames svc).1 ≠ [] ∧ (serviceNames svc).2 ≠ [] ∧ env.answers (.kubectlVersion kind r.id) = true ∧
        (env.answers (.getSvc kind r.id) = true → serviceNames svc ∉ env.services) := by
  unfold serviceIsLive
  dsimp only
  by_cases hns : (serviceNames svc).1 = []
  · simp [hns]
  by_cases hname : (serviceNames svc).2 = []
  · simp [hname]
  cases env.answers (.kubectlVersion kind r.id) <;> cases env.answers (.getSvc kind r.id) <;>
    simp [hns, hname]

end Sweeps

theorem mem_infraSweep {env : InfraEnv} {d : InfraDelete} :
    d ∈ env.infraSweep ↔
      env.answers .listClusters = true ∧ env.dryRun = false ∧
        ((d ∈ env.sweepElbs .classicElb ∨ d ∈ env.sweepElbs .v2Elb) ∨
          (d ∈ env.sweepUnattached .targetGroup ∨ d ∈ env.sweepUnattached .securityGroup) ∨
          (d ∈ env.sweepDead .karpenterInstance ∨ d ∈ env.sweepDead .ebsVolume ∨ d ∈ env.sweepDead .eip) ∨
          d ∈ env.sweepRoute53) := by
  unfold infraSweep sweepClassicElbs sweepV2Elbs sweepTargetGroups sweepElbSecurityGroups sweepKarpenterInstances
    sweepEbsVolumes sweepEips
  cases env.answers .listClusters with
  | false => simp
  | true =>
    cases env.dryRun with
    | true => simp
    | false => simp [or_assoc]

/-! ### The owner of what is deleted -/

/-- Nothing that owns the thing exists: the cluster of a resource, the Service of its tags, the tenant of a record. -/
def OwnerGone (env : InfraEnv) : InfraDelete → Prop
  | .resource kind id => ∃ r ∈ env.resources kind, r.id = id ∧ clusterFromTags r.tags ≠ [] ∧
      env.clusterIsOurs (clusterFromTags r.tags) = true ∧
      (clusterFromTags r.tags ∉ env.clusters ∨
        serviceTag r.tags ≠ [] ∧ serviceNames (serviceTag r.tags) ∉ env.services)
  | .record name => ∃ id, env.TenantRecord name id ∧ id ∉ env.tenants

/-- Nothing is said of a Service whose lookup failed. -/
def BalancerAbandoned (env : InfraEnv) (kind : InfraKind) (lb : InfraResource) : Prop :=
  clusterFromTags lb.tags ∉ env.clusters ∨
    serviceTag lb.tags ≠ [] ∧ env.answers (.kubectlVersion kind lb.id) = true ∧
      (env.answers (.getSvc kind lb.id) = true → serviceNames (serviceTag lb.tags) ∉ env.services)

def Unattached (env : InfraEnv) (kind : InfraKind) (r : InfraResource) : Prop :=
  env.answers (.describeAttached kind r.id) = true ∧ r.attached = 0

/-- What makes a resource an orphan, kind by kind. -/
def Abandoned (env : InfraEnv) (r : InfraResource) : InfraKind → Prop
  | .classicElb => env.BalancerAbandoned .classicElb r
  | .v2Elb => env.BalancerAbandoned .v2Elb r
  | .targetGroup => env.Unattached .targetGroup r
  | .securityGroup => env.Unattached .securityGroup r
  | .karpenterInstance | .ebsVolume | .eip => clusterFromTags r.tags ∉ env.clusters

/-- Nothing is said of a tenant whose read failed. -/
def Orphan (env : InfraEnv) : InfraDelete → Prop
  | .resource kind id => env.answers (.describe kind) = true ∧
      ∃ r ∈ env.resources kind, r.id = id ∧ env.Tagged kind r ∧ env.Abandoned r kind
  | .record name => env.answers .listRecordNames = true ∧ env.answers (.listRecordSets name) = true ∧
      (∃ listed ∈ env.records, stripDot listed = name) ∧
      ∃ id, env.TenantRecord name id ∧ (env.answers (.getTenant name) = true → id ∉ env.tenants)

theorem orphan_of_sweepElbs {env : InfraEnv} {kind : InfraKind} {d : InfraDelete} (h : d ∈ env.sweepElbs kind)
    (hkind : ∀ r, env.Abandoned r kind = env.BalancerAbandoned kind r) : env.Orphan d := by
  obtain ⟨hlisted, lb, hmem, hd, htagged, hgone⟩ := mem_sweepElbs.mp h
  subst hd
  refine ⟨hlisted, lb, hmem, rfl, htagged, ?_⟩
  rw [hkind]
  rcases hgone with hdead | ⟨hsvc, hservice⟩
  · exact .inl (not_mem_clusters hdead)
  · obtain ⟨-, -, hversion, habsent⟩ := serviceIsLive_eq_false.mp hservice
    exact .inr ⟨hsvc, hversion, habsent⟩

theorem orphan_of_sweepUnattached {env : InfraEnv} {kind : InfraKind} {d : InfraDelete}
    (h : d ∈ env.sweepUnattached kind) (hkind : ∀ r, env.Abandoned r kind = env.Unattached kind r) : env.Orphan d := by
  obtain ⟨hlisted, r, hmem, hd, htagged, hunattached⟩ := mem_sweepUnattached.mp h
  subst hd
  refine ⟨hlisted, r, hmem, rfl, htagged, ?_⟩
  rw [hkind]
  exact hunattached

theorem orphan_of_sweepDead {env : InfraEnv} {kind : InfraKind} {d : InfraDelete} (h : d ∈ env.sweepDead kind)
    (hkind : ∀ r, env.Abandoned r kind = (clusterFromTags r.tags ∉ env.clusters)) : env.Orphan d := by
  obtain ⟨hlisted, r, hmem, hd, htagged, hdead⟩ := mem_sweepDead.mp h
  subst hd
  refine ⟨hlisted, r, hmem, rfl, htagged, ?_⟩
  rw [hkind]
  exact not_mem_clusters hdead

theorem orphan_of_sweepRoute53 {env : InfraEnv} {d : InfraDelete} (h : d ∈ env.sweepRoute53) : env.Orphan d := by
  obtain ⟨-, hnames, listed, hmem, id, hd, hid, hgone, hsets⟩ := mem_sweepRoute53.mp h
  subst hd
  refine ⟨hnames, hsets, ⟨listed, hmem, rfl⟩, id, recordTenant_some hid, ?_⟩
  intro hread hexists
  simp [tenantExists, hread, hexists] at hgone

theorem infraSweep_orphan {env : InfraEnv} {d : InfraDelete} (h : d ∈ env.infraSweep) : env.Orphan d := by
  obtain ⟨-, -, helb | hunattached | hdead | hrecord⟩ := mem_infraSweep.mp h
  · rcases helb with h | h <;> exact orphan_of_sweepElbs h fun _ => rfl
  · rcases hunattached with h | h <;> exact orphan_of_sweepUnattached h fun _ => rfl
  · rcases hdead with h | h | h <;> exact orphan_of_sweepDead h fun _ => rfl
  · exact orphan_of_sweepRoute53 hrecord

/-! ### Lookups that failed -/

/-- The same account where more of the lookups answer, `get svc` and the read of a tenant as before. -/
structure Recovers (env : InfraEnv) (answers : InfraCall → Bool) : Prop where
  more : ∀ call, env.answers call = true → answers call = true
  svc : ∀ kind id, answers (.getSvc kind id) = env.answers (.getSvc kind id)
  tenant : ∀ name, answers (.getTenant name) = env.answers (.getTenant name)

section Recovering

variable {env : InfraEnv} {kind : InfraKind} {answers : InfraCall → Bool} {d : InfraDelete}

theorem Tagged.recovers {r : InfraResource} (h : env.Tagged kind r) (hrec : env.Recovers answers) :
    { env with answers := answers }.Tagged kind r := ⟨hrec.more _ h.1, h.2⟩

theorem sweepElbs_recovers (h : d ∈ env.sweepElbs kind) (hrec : env.Recovers answers) :
    d ∈ { env with answers := answers }.sweepElbs kind := by
  obtain ⟨hlisted, lb, hmem, hd, htagged, hgone⟩ := mem_sweepElbs.mp h
  refine mem_sweepElbs.mpr ⟨hrec.more _ hlisted, lb, hmem, hd, htagged.recovers hrec, ?_⟩
  rcases hgone with hdead | ⟨hsvc, hservice⟩
  · exact .inl hdead
  · obtain ⟨hns, hname, hversion, habsent⟩ := serviceIsLive_eq_false.mp hservice
    have habsent' : answers (.getSvc kind lb.id) = true → serviceNames (serviceTag lb.tags) ∉ env.services := by
      rw [hrec.svc]
      exact habsent
    exact .inr ⟨hsvc, serviceIsLive_eq_false.mpr ⟨hns, hname, hrec.more _ hversion, habsent'⟩⟩

theorem sweepUnattached_recovers (h : d ∈ env.sweepUnattached kind) (hrec : env.Recovers answers) :
    d ∈ { env with answers := answers }.sweepUnattached kind := by
  obtain ⟨hlisted, r, hmem, hd, htagged, hattached, hzero⟩ := mem_sweepUnattached.mp h
  exact mem_sweepUnattached.mpr
    ⟨hrec.more _ hlisted, r, hmem, hd, htagged.recovers hrec, hrec.more _ hattached, hzero⟩

theorem sweepDead_recovers (h : d ∈ env.sweepDead kind) (hrec : env.Recovers answers) :
    d ∈ { env with answers := answers }.sweepDead kind := by
  obtain ⟨hlisted, r, hmem, hd, htagged, hdead⟩ := mem_sweepDead.mp h
  exact mem_sweepDead.mpr ⟨hrec.more _ hlisted, r, hmem, hd, htagged.recovers hrec, hdead⟩

theorem sweepRoute53_recovers (h : d ∈ env.sweepRoute53) (hrec : env.Recovers answers) :
    d ∈ { env with answers := answers }.sweepRoute53 := by
  obtain ⟨hzone, hnames, listed, hmem, id, hd, hid, hgone, hsets⟩ := mem_sweepRoute53.mp h
  refine mem_sweepRoute53.mpr ⟨hzone, hrec.more _ hnames, listed, hmem, id, hd, hid, ?_, hrec.more _ hsets⟩
  show (answers (.getTenant (stripDot listed)) && env.tenants.contains id) = false
  rw [hrec.tenant]
  exact hgone

theorem infraSweep_recovers (h : d ∈ env.infraSweep) (hrec : env.Recovers answers) :
    d ∈ { env with answers := answers }.infraSweep := by
  obtain ⟨hclusters, hdry, hsweeps⟩ := mem_infraSweep.mp h
  refine mem_infraSweep.mpr ⟨hrec.more _ hclusters, hdry, ?_⟩
  rcases hsweeps with helb | hunattached | hdead | hrecord
  · exact .inl (helb.imp (sweepElbs_recovers · hrec) (sweepElbs_recovers · hrec))
  · exact .inr (.inl (hunattached.imp (sweepUnattached_recovers · hrec) (sweepUnattached_recovers · hrec)))
  · exact .inr (.inr (.inl (hdead.imp (sweepDead_recovers · hrec)
      (Or.imp (sweepDead_recovers · hrec) (sweepDead_recovers · hrec)))))
  · exact .inr (.inr (.inr (sweepRoute53_recovers hrecord hrec)))

end Recovering

/-- Without the list of live clusters nothing is deleted; with it only orphans are, and a failed lookup of a cluster, a
listing, the tags or the attachments leads to no delete that the same lookup would have prevented. -/
theorem infra_sweep_fails_closed (env : InfraEnv) :
    (env.answers .listClusters = false → env.infraSweep = []) ∧ (∀ d ∈ env.infraSweep, env.Orphan d) ∧
      ∀ answers, env.Recovers answers → ∀ d ∈ env.infraSweep, d ∈ { env with answers := answers }.infraSweep := by
  refine ⟨?_, fun d h => infraSweep_orphan h, fun answers hrec d h => infraSweep_recovers h hrec⟩
  intro hclusters
  simp [infraSweep, hclusters]

/-- A target group of the platform's own live cluster, its load balancer gone. -/
def spareGroup : InfraEnv where
  dryRun := false
  sweepableClusters := text "otterworks-dev "
  hostSuffix := text "demo.otterworks.app"
  dnsZone := true
  clusters := [text "otterworks-dev"]
  services := [(text "ingress", text "edge")]
  tenants := []
  resources := fun kind =>
    if kind = .targetGroup then [⟨text "tg/k8s-edge", [(text "kubernetes.io/cluster/otterworks-dev", text "owned")], 0⟩]
    else []
  records := []
  answers := fun _ => true

theorem live_cluster_group_deleted : ¬∀ d ∈ spareGroup.infraSweep, spareGroup.OwnerGone d := by
  intro h
  have hdeleted : InfraDelete.resource .targetGroup (text "tg/k8s-edge") ∈ spareGroup.infraSweep := by decide
  obtain ⟨r, hr, -, -, -, hgone⟩ := h _ hdeleted
  have hgroup : r = ⟨text "tg/k8s-edge", [(text "kubernetes.io/cluster/otterworks-dev", text "owned")], 0⟩ := by
    simpa [spareGroup] using hr
  subst hgroup
  revert hgone
  decide

end InfraEnv

end OtterWorks.Tenants
