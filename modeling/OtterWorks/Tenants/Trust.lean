import Mathlib.Data.List.Basic
import OtterWorks.Lib.Glob
import OtterWorks.Tenants.Sanitize

namespace OtterWorks.Tenants

/-- A JSON value that is one text or a list of texts. -/
inductive OneOrMany
  | one (value : Text)
  | many (values : List Text)
  deriving DecidableEq, Repr

def OneOrMany.toList : OneOrMany → List Text
  | .one value => [value]
  | .many values => values

/-- The two condition operators that the scripts read, each from condition key to value. -/
structure Condition where
  stringEquals : List (Text × OneOrMany) := []
  stringLike : List (Text × OneOrMany) := []
  deriving DecidableEq, Repr

structure Statement where
  effect : Text
  action : Text
  principal : Option Text
  condition : Condition
  deriving DecidableEq, Repr

/-- The trust policy of a role. -/
structure TrustDocument where
  version : Text
  statement : List Statement
  deriving DecidableEq, Repr

/-- A namespace or the name of a service. -/
structure KubeName where
  name : Text
  plain : (name.all fun c => isLowerOrDigit c || c == '-') = true

/-- `system:serviceaccount:${NS}:${svc}` -/
def subject (ns svc : KubeName) : Text := text "system:serviceaccount:" ++ ns.name ++ text ":" ++ svc.name

/-- `$url+":sub"` -/
def subKey (url : Text) : Text := url ++ text ":sub"

/-- The values of a condition operator for a key, none if the key is missing. -/
def valuesOf (operator : List (Text × OneOrMany)) (key : Text) : List Text :=
  ((operator.lookup key).map OneOrMany.toList).getD []

/-- The lines that `ensure_irsa_trust` reads: every value under either operator, of every statement. -/
def trustedPatterns (doc : TrustDocument) (url : Text) : List Text :=
  (doc.statement.flatMap fun st =>
    (valuesOf st.condition.stringEquals (subKey url) ++ valuesOf st.condition.stringLike (subKey url)).flatMap fun value =>
      value.splitOn '\n').filter fun line => !line.isEmpty

def alreadyTrusted (brackets : Brackets) (doc : TrustDocument) (url sub : Text) : Bool :=
  (trustedPatterns doc url).any fun pattern => shellMatches brackets pattern sub

/-- The statement that `ensure_irsa_trust` appends. -/
def pinnedStatement (doc : TrustDocument) (url sub : Text) : Statement where
  effect := text "Allow"
  action := text "sts:AssumeRoleWithWebIdentity"
  principal := doc.statement.head?.bind Statement.principal
  condition := { stringEquals := [(subKey url, .one sub), (url ++ text ":aud", .one (text "sts.amazonaws.com"))] }

/-- `ensure_irsa_trust`, for one role. -/
def ensureIrsaTrust (brackets : Brackets) (doc : TrustDocument) (url sub : Text) : TrustDocument :=
  if alreadyTrusted brackets doc url sub then doc
  else { doc with statement := doc.statement ++ [pinnedStatement doc url sub] }

/-- `StringEquals` of the statement lists the subject. -/
def Statement.pins (st : Statement) (url sub : Text) : Bool :=
  match st.condition.stringEquals.lookup (subKey url) with
  | none => false
  | some values => values.toList.contains sub

/-- `remove_irsa_trust`, for one role. -/
def removeIrsaTrust (doc : TrustDocument) (url sub : Text) : TrustDocument :=
  { doc with statement := doc.statement.filter fun st => !st.pins url sub }

/-- The statement is about the subject: both operators hold of it, where they are there. Action and principal are not asked:
the scripts read neither, and the trust policies of these roles speak of the cluster's web identities only. -/
def Statement.Covers (st : Statement) (url sub : Text) : Prop :=
  (∀ values, st.condition.stringEquals.lookup (subKey url) = some values → sub ∈ values.toList) ∧
    ∀ values, st.condition.stringLike.lookup (subKey url) = some values →
      ∃ pattern ∈ values.toList, likeMatches pattern sub = true

/-- Some statement allows the subject. -/
def TrustDocument.Allows (doc : TrustDocument) (url sub : Text) : Prop :=
  ∃ st ∈ doc.statement, st.effect = text "Allow" ∧ st.Covers url sub

/-- Some statement denies the subject. -/
def TrustDocument.Denies (doc : TrustDocument) (url sub : Text) : Prop :=
  ∃ st ∈ doc.statement, st.effect = text "Deny" ∧ st.Covers url sub

/-- What the policy language makes of a document: a denial outweighs what is allowed. -/
def TrustDocument.Trusts (doc : TrustDocument) (url sub : Text) : Prop := doc.Allows url sub ∧ ¬doc.Denies url sub

/-- The edits are exact: trust is there after adding, adding again changes nothing, removing takes no other subject's trust,
and gives back a document that did not trust the subject. -/
structure ExactEdits (brackets : Brackets) (doc : TrustDocument) (url sub : Text) : Prop where
  idempotent : ensureIrsaTrust brackets (ensureIrsaTrust brackets doc url sub) url sub = ensureIrsaTrust brackets doc url sub
  trusted : (ensureIrsaTrust brackets doc url sub).Trusts url sub
  others : ∀ other, other ≠ sub → doc.Trusts url other →
    (removeIrsaTrust (ensureIrsaTrust brackets doc url sub) url sub).Trusts url other
  restores : ¬doc.Trusts url sub → removeIrsaTrust (ensureIrsaTrust brackets doc url sub) url sub = doc

/-- When the edits are exact. If no pattern matches the subject, nothing denies it; otherwise it is really trusted, and
every other trusted subject has a statement that does not pin this one. -/
def EditsExactly (brackets : Brackets) (doc : TrustDocument) (url sub : Text) : Prop :=
  if alreadyTrusted brackets doc url sub then
    doc.Trusts url sub ∧ ∀ other, other ≠ sub → doc.Trusts url other →
      ∃ st ∈ doc.statement, st.effect = text "Allow" ∧ st.Covers url other ∧ st.pins url sub = false
  else ¬doc.Denies url sub

section

variable {brackets : Brackets} {doc : TrustDocument} {url sub : Text} {ns svc : KubeName}

theorem KubeName.char (n : KubeName) {c : Char} (member : c ∈ n.name) : isLowerOrDigit c = true ∨ c = '-' := by
  simpa using List.all_eq_true.mp n.plain c member

theorem subject_char {c : Char} (member : c ∈ subject ns svc) : isLowerOrDigit c = true ∨ c = '-' ∨ c = ':' := by
  have fixed : ((text "system:serviceaccount:").all fun c => isLowerOrDigit c || c == ':') = true := by decide +kernel
  unfold subject at member
  simp only [List.mem_append] at member
  rcases member with ((head | inNs) | colon) | inSvc
  · have char := List.all_eq_true.mp fixed c head
    rcases Bool.or_eq_true_iff.mp char with plain | colon
    · exact Or.inl plain
    · exact Or.inr (Or.inr (by simpa using colon))
  · rcases ns.char inNs with plain | dash
    · exact Or.inl plain
    · exact Or.inr (Or.inl dash)
  · exact Or.inr (Or.inr (by simpa [text] using colon))
  · rcases svc.char inSvc with plain | dash
    · exact Or.inl plain
    · exact Or.inr (Or.inl dash)

theorem subject_plain (ns svc : KubeName) : PlainPattern (subject ns svc) ∧ '\n' ∉ subject ns svc ∧ subject ns svc ≠ [] := by
  refine ⟨?_, ?_, ?_⟩
  · intro c member
    have allowed := subject_char member
    refine ⟨?_, ?_, ?_, ?_⟩ <;> rintro rfl <;> exact absurd allowed (by decide)
  · intro member
    exact absurd (subject_char member) (by decide)
  · simp [subject, text]

theorem pinnedStatement_pins : (pinnedStatement doc url sub).pins url sub = true := by
  simp [pinnedStatement, Statement.pins, OneOrMany.toList]

theorem pinnedStatement_covers : (pinnedStatement doc url sub).Covers url sub := by
  refine ⟨?_, ?_⟩
  · intro values held
    simp only [pinnedStatement, List.lookup_cons, beq_self_eq_true, Option.some.injEq] at held
    rw [← held]
    exact List.mem_cons_self ..
  · intro values held
    cases held

/-- A statement that pins a subject is seen by the shell's check. -/
theorem alreadyTrusted_of_pins {st : Statement} (member : st ∈ doc.statement)
    (pins : st.pins url (subject ns svc) = true) : alreadyTrusted brackets doc url (subject ns svc) = true := by
  obtain ⟨plain, oneLine, nonempty⟩ := subject_plain ns svc
  unfold Statement.pins at pins
  split at pins
  · cases pins
  next values held =>
    have listed : subject ns svc ∈ valuesOf st.condition.stringEquals (subKey url) := by
      unfold valuesOf
      rw [held]
      simpa using pins
    refine List.any_eq_true.mpr ⟨subject ns svc, ?_, shellMatches_self plain⟩
    refine List.mem_filter.mpr ⟨?_, by simpa using nonempty⟩
    refine List.mem_flatMap.mpr ⟨st, member, List.mem_flatMap.mpr ⟨subject ns svc, List.mem_append_left _ listed, ?_⟩⟩
    rw [List.splitOn_eq_singleton oneLine]
    exact List.mem_singleton.mpr rfl

theorem denies_remove {other : Text} (denied : (removeIrsaTrust doc url sub).Denies url other) : doc.Denies url other := by
  obtain ⟨st, member, deny, covers⟩ := denied
  exact ⟨st, (List.mem_filter.mp member).1, deny, covers⟩

/-- Where no pattern matches, a pinned statement is appended, and removing takes it away again. -/
theorem exactEdits_append (fresh : alreadyTrusted brackets doc url (subject ns svc) = false) :
    ExactEdits brackets doc url (subject ns svc) ↔ ¬doc.Denies url (subject ns svc) := by
  let after : TrustDocument := { doc with statement := doc.statement ++ [pinnedStatement doc url (subject ns svc)] }
  have ensured : ensureIrsaTrust brackets doc url (subject ns svc) = after := by
    rw [ensureIrsaTrust, fresh]
    rfl
  have pinned : pinnedStatement doc url (subject ns svc) ∈ after.statement := by
    show _ ∈ doc.statement ++ [_]
    simp
  have restored : removeIrsaTrust after url (subject ns svc) = doc := by
    have kept : doc.statement.filter (fun st => !st.pins url (subject ns svc)) = doc.statement := by
      rw [List.filter_eq_self]
      intro st member
      cases pins : st.pins url (subject ns svc) with
      | false => rfl
      | true =>
        rw [alreadyTrusted_of_pins member pins] at fresh
        cases fresh
    unfold removeIrsaTrust
    show ({ doc with statement := (doc.statement ++ [_]).filter _ } : TrustDocument) = doc
    rw [List.filter_append, kept, List.filter_cons_of_neg (by simp [pinnedStatement_pins])]
    simp
  have denies : after.Denies url (subject ns svc) ↔ doc.Denies url (subject ns svc) := by
    constructor
    · intro h
      obtain ⟨st, member, deny, covers⟩ := h
      rcases List.mem_append.mp member with old | new
      · exact ⟨st, old, deny, covers⟩
      · rw [List.mem_singleton.mp new] at deny
        exact absurd deny (by simp [pinnedStatement, text])
    · intro h
      obtain ⟨st, member, deny, covers⟩ := h
      exact ⟨st, List.mem_append_left _ member, deny, covers⟩
  constructor
  · intro exact' denied
    have trusted := exact'.trusted
    rw [ensured] at trusted
    exact trusted.2 (denies.mpr denied)
  · intro free
    refine ⟨?_, ?_, ?_, ?_⟩
    · rw [ensured, ensureIrsaTrust, if_pos (alreadyTrusted_of_pins pinned pinnedStatement_pins)]
    · rw [ensured]
      exact ⟨⟨_, pinned, rfl, pinnedStatement_covers⟩, fun denied => free (denies.mp denied)⟩
    · intro other _ trusted
      rw [ensured, restored]
      exact trusted
    · intro _
      rw [ensured, restored]

/-- Where a pattern matches, nothing is appended, and removing may take statements of the document itself. -/
theorem exactEdits_matched (already : alreadyTrusted brackets doc url sub = true) :
    ExactEdits brackets doc url sub ↔ doc.Trusts url sub ∧ ∀ other, other ≠ sub → doc.Trusts url other →
      ∃ st ∈ doc.statement, st.effect = text "Allow" ∧ st.Covers url other ∧ st.pins url sub = false := by
  have ensured : ensureIrsaTrust brackets doc url sub = doc := by rw [ensureIrsaTrust, if_pos already]
  constructor
  · intro exact'
    have trusted := exact'.trusted
    rw [ensured] at trusted
    refine ⟨trusted, ?_⟩
    intro other ne before
    have still := exact'.others other ne before
    rw [ensured] at still
    obtain ⟨st, member, allow, covers⟩ := still.1
    obtain ⟨held, kept⟩ := List.mem_filter.mp member
    exact ⟨st, held, allow, covers, by simpa using kept⟩
  · intro h
    refine ⟨?_, ?_, ?_, ?_⟩
    · rw [ensured, ensured]
    · rw [ensured]
      exact h.1
    · intro other ne before
      rw [ensured]
      obtain ⟨st, held, allow, covers, kept⟩ := h.2 other ne before
      exact ⟨⟨st, List.mem_filter.mpr ⟨held, by simpa using kept⟩, allow, covers⟩,
        fun denied => before.2 (denies_remove denied)⟩
    · intro untrusted
      exact absurd h.1 untrusted

/-- For every document, tenant and service the edits are exact precisely under `EditsExactly`, and after removing no
statement pins the subject. -/
theorem exactEdits_iff (brackets : Brackets) (doc : TrustDocument) (url : Text) (ns svc : KubeName) :
    (ExactEdits brackets doc url (subject ns svc) ↔ EditsExactly brackets doc url (subject ns svc)) ∧
      ∀ st ∈ (removeIrsaTrust doc url (subject ns svc)).statement, st.pins url (subject ns svc) = false := by
  refine ⟨?_, fun st member => by simpa using (List.mem_filter.mp member).2⟩
  unfold EditsExactly
  by_cases already : alreadyTrusted brackets doc url (subject ns svc) = true
  · rw [if_pos already]
    exact exactEdits_matched already
  · rw [if_neg already]
    exact exactEdits_append (by simpa using already)

end

/-- A statement that trusts the services of two tenants, next to one that trusts the golden app. -/
def sharedTrust : TrustDocument where
  version := text "2012-10-17"
  statement :=
    [{ effect := text "Allow", action := text "sts:AssumeRoleWithWebIdentity", principal := none
       condition := { stringLike := [(text "oidc:sub", .one (text "system:serviceaccount:otterworks:*"))] } },
      { effect := text "Allow", action := text "sts:AssumeRoleWithWebIdentity", principal := none
        condition := { stringEquals := [(text "oidc:sub", .many [text "system:serviceaccount:otterworks-ana:file-service",
          text "system:serviceaccount:otterworks-ben:file-service"])] } }]

def anasNamespace : KubeName := ⟨text "otterworks-ana", by decide +kernel⟩

def fileService : KubeName := ⟨text "file-service", by decide +kernel⟩

def bensNamespace : KubeName := ⟨text "otterworks-ben", by decide +kernel⟩

/-- Removing one tenant's trust takes the other's. -/
theorem shared_statement_removed :
    ¬ExactEdits (fun _ => none) sharedTrust (text "oidc") (subject anasNamespace fileService) := by
  intro exact'
  have ensured : ensureIrsaTrust (fun _ => none) sharedTrust (text "oidc") (subject anasNamespace fileService) =
      sharedTrust := by decide +kernel
  have left : (removeIrsaTrust sharedTrust (text "oidc") (subject anasNamespace fileService)).statement =
      sharedTrust.statement.take 1 := by decide +kernel
  have before : sharedTrust.Trusts (text "oidc") (subject bensNamespace fileService) := by
    refine ⟨⟨sharedTrust.statement[1], List.getElem_mem _, rfl, ?_, ?_⟩, ?_⟩
    · intro values held
      cases held
      decide +kernel
    · intro values held
      cases held
    · intro denied
      obtain ⟨st, member, deny, _⟩ := denied
      have allow : ∀ st ∈ sharedTrust.statement, st.effect ≠ text "Deny" := by decide +kernel
      exact allow st member deny
  have after := exact'.others (subject bensNamespace fileService) (by decide +kernel) before
  rw [ensured] at after
  obtain ⟨st, member, _, covers⟩ := after.1
  rw [left] at member
  cases List.mem_singleton.mp member
  obtain ⟨pattern, listed, matched⟩ := covers.2 _ rfl
  cases List.mem_singleton.mp listed
  exact absurd matched (by decide +kernel)

end OtterWorks.Tenants
