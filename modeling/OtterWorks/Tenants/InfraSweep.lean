import OtterWorks.Tenants.Sanitize

namespace OtterWorks.Tenants

abbrev Tags := List (Text × Text)

inductive InfraKind
  | classicElb
  | v2Elb
  | targetGroup
  | securityGroup
  | karpenterInstance
  | ebsVolume
  | eip
  deriving DecidableEq, Repr

/-- `attached` counts the load balancers of a target group and the network interfaces of a security group. -/
structure InfraResource where
  id : Text
  tags : Tags
  attached : Nat
  deriving DecidableEq, Repr

/-- The aws and kubectl calls of a sweep, each with the resource it is made for. -/
inductive InfraCall
  | listClusters
  | describe (kind : InfraKind)
  | describeTags (kind : InfraKind) (id : Text)
  | describeAttached (kind : InfraKind) (id : Text)
  | kubectlVersion (kind : InfraKind) (id : Text)
  | getSvc (kind : InfraKind) (id : Text)
  | listRecordNames
  | getTenant (name : Text)
  | listRecordSets (name : Text)
  deriving DecidableEq, Repr

inductive InfraDelete
  | resource (kind : InfraKind) (id : Text)
  | record (name : Text)
  deriving DecidableEq, Repr

/-- The account as a sweep finds it, and which of its calls answer. `resources` are those that the listing of a kind
asks for: unattached volumes, unassociated addresses, instances of Karpenter; `services` those of the cluster that
kubectl talks to. -/
structure InfraEnv where
  dryRun : Bool
  sweepableClusters : Text
  hostSuffix : Text
  dnsZone : Bool
  clusters : List Text
  services : List (Text × Text)
  tenants : List Text
  resources : InfraKind → List InfraResource
  records : List Text
  answers : InfraCall → Bool

/-- A word between blanks, as `case` looks for it. -/
def hasWord (words word : Text) : Bool := decide ((' ' :: word ++ [' ']) <:+: (' ' :: words ++ [' ']))

namespace InfraEnv

/-- `LIVE_CLUSTERS`: the names that were listed, one blank between them. -/
def liveClusters (env : InfraEnv) : Text := [' '].intercalate env.clusters

def clusterIsLive (env : InfraEnv) (name : Text) : Bool := hasWord env.liveClusters name

def clusterIsOurs (env : InfraEnv) (name : Text) : Bool := hasWord env.sweepableClusters name

def clusterIsDeadAndOurs (env : InfraEnv) (name : Text) : Bool := env.clusterIsOurs name && !env.clusterIsLive name

end InfraEnv

def clusterTag : Text := text "kubernetes.io/cluster/"

def clusterFromTags (tags : Tags) : Text :=
  ((tags.filter fun tag => clusterTag.isPrefixOf tag.1).head?.map fun tag => tag.1.drop clusterTag.length).getD []

def serviceTag (tags : Tags) : Text := (tags.lookup (text "kubernetes.io/service-name")).getD []

/-- `${1%%/*}` and `${1##*/}`. -/
def serviceNames (svc : Text) : Text × Text :=
  (svc.takeWhile (· ≠ '/'), (svc.reverse.takeWhile (· ≠ '/')).reverse)

namespace InfraEnv

/-- A lookup that fails prints nothing. -/
def tagsOf (env : InfraEnv) (kind : InfraKind) (r : InfraResource) : Tags :=
  if env.answers (.describeTags kind r.id) then r.tags else []

def listed (env : InfraEnv) (kind : InfraKind) : List InfraResource :=
  if env.answers (.describe kind) then env.resources kind else []

/-- `service_is_live`: an unreachable API server answers yes, and a failed `get svc` no. -/
def serviceIsLive (env : InfraEnv) (kind : InfraKind) (r : InfraResource) (svc : Text) : Bool :=
  let (ns, name) := serviceNames svc
  if ns = [] ∨ name = [] then true
  else if env.answers (.kubectlVersion kind r.id) = false then true
  else env.answers (.getSvc kind r.id) && env.services.contains (ns, name)

/-- `sweep_classic_elbs` and `sweep_v2_elbs`. -/
def sweepElbs (env : InfraEnv) (kind : InfraKind) : List InfraDelete :=
  (env.listed kind).filterMap fun lb =>
    let cluster := clusterFromTags (env.tagsOf kind lb)
    let svc := serviceTag (env.tagsOf kind lb)
    if cluster = [] then none
    else if env.clusterIsDeadAndOurs cluster then some (.resource kind lb.id)
    else if env.clusterIsOurs cluster ∧ svc ≠ [] ∧ env.serviceIsLive kind lb svc = false then
      some (.resource kind lb.id)
    else none

/-- `sweep_target_groups` and `sweep_elb_security_groups`: nothing is attached, and the tags name one of our
clusters. -/
def sweepUnattached (env : InfraEnv) (kind : InfraKind) : List InfraDelete :=
  (env.listed kind).filterMap fun r =>
    let cluster := clusterFromTags (env.tagsOf kind r)
    if env.answers (.describeAttached kind r.id) ∧ r.attached = 0 ∧ cluster ≠ [] ∧ env.clusterIsOurs cluster then
      some (.resource kind r.id)
    else none

/-- `sweep_karpenter_instances`, `sweep_ebs_volumes` and `sweep_eips`. -/
def sweepDead (env : InfraEnv) (kind : InfraKind) : List InfraDelete :=
  (env.listed kind).filterMap fun r =>
    let cluster := clusterFromTags (env.tagsOf kind r)
    if cluster ≠ [] ∧ env.clusterIsDeadAndOurs cluster then some (.resource kind r.id) else none

def sweepClassicElbs (env : InfraEnv) : List InfraDelete := env.sweepElbs .classicElb

def sweepV2Elbs (env : InfraEnv) : List InfraDelete := env.sweepElbs .v2Elb

def sweepTargetGroups (env : InfraEnv) : List InfraDelete := env.sweepUnattached .targetGroup

def sweepElbSecurityGroups (env : InfraEnv) : List InfraDelete := env.sweepUnattached .securityGroup

def sweepKarpenterInstances (env : InfraEnv) : List InfraDelete := env.sweepDead .karpenterInstance

def sweepEbsVolumes (env : InfraEnv) : List InfraDelete := env.sweepDead .ebsVolume

def sweepEips (env : InfraEnv) : List InfraDelete := env.sweepDead .eip

end InfraEnv

/-- The shapes of label that a tenant deploy and external-dns produce. -/
def tenantLabels : List Text :=
  [text "t-", text "api-t-", text "cname-t-", text "cname-api-t-", text "txt-t-", text "txt-api-t-"]

/-- `${name%.}`. -/
def stripDot (name : Text) : Text := if ['.'] <:+ name then name.dropLast else name

/-- The tenant of a record's label. -/
def labelTenant (label : Text) : Text :=
  stripPrefix (text "t-") (stripPrefix (text "api-") (stripPrefix (text "txt-") (stripPrefix (text "cname-") label)))

namespace InfraEnv

/-- The tenant whose record a name is, if it has the shape of one. -/
def recordTenant (env : InfraEnv) (name : Text) : Option Text :=
  let suffix := '.' :: env.hostSuffix
  if suffix.isSuffixOf name then
    let label := name.take (name.length - suffix.length)
    if tenantLabels.any fun shape => shape.isPrefixOf label then
      let id := labelTenant label
      if id = [] then none else some id
    else none
  else none

/-- `ctl_tenant_exists`. -/
def tenantExists (env : InfraEnv) (name id : Text) : Bool := env.answers (.getTenant name) && env.tenants.contains id

def sweepRoute53 (env : InfraEnv) : List InfraDelete :=
  if env.dnsZone = false then []
  else if env.answers .listRecordNames = false then []
  else env.records.filterMap fun listed =>
    let name := stripDot listed
    match env.recordTenant name with
    | none => none
    | some id =>
      if env.tenantExists name id = false ∧ env.answers (.listRecordSets name) then some (.record name) else none

/-- The deletes that a run issues. -/
def infraSweep (env : InfraEnv) : List InfraDelete :=
  if env.answers .listClusters = false then []
  else if env.dryRun then []
  else
    env.sweepClassicElbs ++ env.sweepV2Elbs ++ env.sweepTargetGroups ++ env.sweepElbSecurityGroups ++
      env.sweepKarpenterInstances ++ env.sweepEbsVolumes ++ env.sweepEips ++ env.sweepRoute53

end InfraEnv

end OtterWorks.Tenants
