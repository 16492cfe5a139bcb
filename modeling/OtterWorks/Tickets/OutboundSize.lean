import OtterWorks.Tickets.Outbound
import OtterWorks.Lib.Literals
import Mathlib.Data.Bool.AllAny

namespace OtterWorks.Tickets.Outbound

open JsonText
open Utf16 (ofString)

/-- The limits that the loop goes through. -/
def limits : List Nat := [12000, 6000, 3000, 1500, 750, 375, 200]

def labelsBytes (labels : List Utf16) : Nat := (labels.map fun l => cost l + 2).sum + (labels.length - 1) + 2

/-- The bytes of everything but the description and the prompt. -/
def fixedBytes (publicUrl : Utf16) (project : Project) (ticket : Ticket) : Nat :=
  486 + cost ticket.key + cost ticket.title + cost (TicketType.text ticket.type) +
    cost (Priority.text ticket.priority) + cost (Status.text ticket.status) + labelsBytes ticket.labels +
    cost (orElse ticket.repo project.repo) + cost ticket.branch + cost (ticketUrl publicUrl project ticket) +
    cost project.key + cost project.name + cost project.repo + cost (callbackUrl publicUrl ticket)

/-- The bytes of the payload with both texts cut at a limit. -/
def bytesAt (publicUrl : Utf16) (project : Project) (ticket : Ticket) (prompt : Utf16) (limit : Nat) : Nat :=
  fixedBytes publicUrl project ticket + cost (truncate ticket.description limit) + cost (truncate prompt limit)

/-- The first of some limits at which the payload fits. -/
def firstFit (publicUrl : Utf16) (project : Project) (ticket : Ticket) (prompt : Utf16) (limits : List Nat) : Option Nat :=
  limits.find? fun limit => bytesAt publicUrl project ticket prompt limit ≤ maxBodyBytes

/-- The first limit at which the payload fits leaves room for the delivery id. -/
def LeavesRoom (publicUrl : Utf16) (project : Project) (ticket : Ticket) (prompt : Utf16) : Prop :=
  ∃ limit ∈ firstFit publicUrl project ticket prompt limits,
    bytesAt publicUrl project ticket prompt limit + 53 ≤ maxBodyBytes

section

variable (publicUrl : Utf16) (project : Project) (ticket : Ticket) (prompt : Utf16)

theorem closed_labels (labels : List Utf16) : ∀ v ∈ labels.map quote, Closed v := by
  intro v mem
  obtain ⟨l, _, rfl⟩ := List.mem_map.mp mem
  exact closed_quote l

theorem bytes_labels (labels : List Utf16) : byteLength (array (labels.map quote)) = labelsBytes labels := by
  have items : (labels.map quote).map byteLength = labels.map fun l => cost l + 2 := by
    rw [List.map_map]
    exact List.map_congr_left fun l _ => bytes_quote l
  rw [bytes_array (closed_labels labels), items, List.length_map]
  rfl

theorem ticketFields_closed (descriptionMax : Nat) :
    ∀ field ∈ ticketFields publicUrl project ticket descriptionMax, Closed field.2 := by
  intro field mem
  simp only [ticketFields, List.mem_cons, List.not_mem_nil, or_false] at mem
  rcases mem with rfl | rfl | rfl | rfl | rfl | rfl | rfl | rfl | rfl | rfl
  case inr.inr.inr.inr.inr.inr.inl => exact closed_array (closed_labels ticket.labels)
  all_goals exact closed_quote _

theorem projectFields_closed : ∀ field ∈ projectFields project, Closed field.2 := by
  intro field mem
  simp only [projectFields, List.mem_cons, List.not_mem_nil, or_false] at mem
  rcases mem with rfl | rfl | rfl
  all_goals exact closed_quote _

theorem base_closed (descriptionMax promptMax : Nat) :
    ∀ field ∈ base publicUrl project ticket prompt descriptionMax promptMax, Closed field.2 := by
  intro field mem
  simp only [base, List.mem_cons, List.not_mem_nil, or_false] at mem
  rcases mem with rfl | rfl | rfl | rfl | rfl | rfl | rfl
  case inr.inr.inl => exact closed_object (ticketFields_closed publicUrl project ticket descriptionMax)
  case inr.inr.inr.inl => exact closed_object (projectFields_closed project)
  all_goals exact closed_quote _

theorem bytes_ticketFields (descriptionMax : Nat) :
    byteLength (object (ticketFields publicUrl project ticket descriptionMax)) =
      115 + cost ticket.key + cost ticket.title + cost (truncate ticket.description descriptionMax) +
        cost (TicketType.text ticket.type) + cost (Priority.text ticket.priority) + cost (Status.text ticket.status) +
        labelsBytes ticket.labels + cost (orElse ticket.repo project.repo) + cost ticket.branch +
        cost (ticketUrl publicUrl project ticket) := by
  have names : (["key", "title", "description", "type", "priority", "status", "labels", "repo", "branch", "url"].map
      fun name => cost (ofString name)) = [3, 5, 11, 4, 8, 6, 6, 4, 6, 3] := by decide +kernel
  simp only [List.map_cons, List.map_nil, List.cons.injEq, and_true] at names
  obtain ⟨n1, n2, n3, n4, n5, n6, n7, n8, n9, n10⟩ := names
  rw [bytes_object (ticketFields_closed publicUrl project ticket descriptionMax)]
  simp only [ticketFields, List.map_cons, List.map_nil, List.sum_cons, List.sum_nil, List.length_cons, List.length_nil,
    bytes_quote, bytes_labels, n1, n2, n3, n4, n5, n6, n7, n8, n9, n10]
  omega

theorem bytes_projectFields :
    byteLength (object (projectFields project)) = 30 + cost project.key + cost project.name + cost project.repo := by
  have names : (["key", "name", "repo"].map fun name => cost (ofString name)) = [3, 4, 4] := by decide
  simp only [List.map_cons, List.map_nil, List.cons.injEq, and_true] at names
  obtain ⟨n1, n2, n3⟩ := names
  rw [bytes_object (projectFields_closed project)]
  simp only [projectFields, List.map_cons, List.map_nil, List.sum_cons, List.sum_nil, List.length_cons, List.length_nil,
    bytes_quote, n1, n2, n3]
  omega

/-- Every field counts with the bytes of its text inside a JSON string. -/
theorem size_eq (limit : Nat) :
    size publicUrl project ticket prompt limit limit = bytesAt publicUrl project ticket prompt limit := by
  have names : (["prompt", "event", "ticket", "project", "callback_url", "callback_api_key",
      "callback_instructions"].map fun name => cost (ofString name)) = [6, 5, 6, 7, 12, 16, 21] := by decide +kernel
  have values : cost (ofString "ticket.assigned_to_devin") = 24 ∧ cost (ofString "PROJECTS_API_KEY") = 16 ∧
      cost callbackInstructions = 189 := by decide +kernel
  simp only [List.map_cons, List.map_nil, List.cons.injEq, and_true] at names
  obtain ⟨n1, n2, n3, n4, n5, n6, n7⟩ := names
  obtain ⟨v1, v2, v3⟩ := values
  unfold size bytesAt fixedBytes
  rw [bytes_object (base_closed publicUrl project ticket prompt limit limit)]
  simp only [base, List.map_cons, List.map_nil, List.sum_cons, List.sum_nil, List.length_cons, List.length_nil,
    bytes_quote, bytes_ticketFields, bytes_projectFields, n1, n2, n3, n4, n5, n6, n7, v1, v2, v3]
  omega

theorem firstFit_cons {limit : Nat} (rest : List Nat) : firstFit publicUrl project ticket prompt (limit :: rest) =
    if bytesAt publicUrl project ticket prompt limit ≤ maxBodyBytes then some limit
    else firstFit publicUrl project ticket prompt rest := by
  unfold firstFit
  rw [List.find?_cons]
  by_cases fits : bytesAt publicUrl project ticket prompt limit ≤ maxBodyBytes
  · simp only [fits, decide_true, if_true]
  · simp only [fits, decide_false, if_false]

theorem shrink_step {limit : Nat} {rest : List Nat} (large : 200 < limit)
    (after : shrink publicUrl project ticket prompt (max 200 (limit / 2)) (max 200 (limit / 2)) =
      ((firstFit publicUrl project ticket prompt rest).getD 200, (firstFit publicUrl project ticket prompt rest).getD 200)) :
    shrink publicUrl project ticket prompt limit limit =
      ((firstFit publicUrl project ticket prompt (limit :: rest)).getD 200,
        (firstFit publicUrl project ticket prompt (limit :: rest)).getD 200) := by
  rw [shrink, size_eq, firstFit_cons]
  by_cases fits : bytesAt publicUrl project ticket prompt limit ≤ maxBodyBytes
  · rw [if_neg (by omega), if_pos fits]
    rfl
  · rw [if_pos ⟨by omega, Or.inl large⟩, if_neg fits]
    exact after

/-- The loop stops at the first limit that fits, at the latest at the last one. -/
theorem shrink_eq : shrink publicUrl project ticket prompt 12000 12000 =
    ((firstFit publicUrl project ticket prompt limits).getD 200,
      (firstFit publicUrl project ticket prompt limits).getD 200) := by
  have last : shrink publicUrl project ticket prompt 200 200 =
      ((firstFit publicUrl project ticket prompt [200]).getD 200,
        (firstFit publicUrl project ticket prompt [200]).getD 200) := by
    rw [shrink, if_neg (by omega), firstFit_cons]
    split
    · rfl
    · rfl
  have at375 := shrink_step publicUrl project ticket prompt (show 200 < 375 by omega) last
  have at750 := shrink_step publicUrl project ticket prompt (show 200 < 750 by omega) at375
  have at1500 := shrink_step publicUrl project ticket prompt (show 200 < 1500 by omega) at750
  have at3000 := shrink_step publicUrl project ticket prompt (show 200 < 3000 by omega) at1500
  have at6000 := shrink_step publicUrl project ticket prompt (show 200 < 6000 by omega) at3000
  exact shrink_step publicUrl project ticket prompt (show 200 < 12000 by omega) at6000

theorem bytes_uuid (id : Uuid) : byteLength (quote id.text) = 38 := by
  have plain : ∀ c ∈ id.text, isHigh c = false ∧ unitCost c = 1 := by
    intro c mem
    have small : ∀ n < 0x67, isDigit n.toUInt16 ∨ (0x61 ≤ n.toUInt16 ∧ n.toUInt16 ≤ 0x66) ∨ n.toUInt16 = 0x2d →
        isHigh n.toUInt16 = false ∧ unitCost n.toUInt16 = 1 := by decide +kernel
    have shape := id.shape c mem
    have same : c.toNat.toUInt16 = c := UInt16.ofNat_toNat
    have below : c.toNat < 0x67 := by
      rcases shape with digit | letter | rfl
      · simp only [isDigit, Bool.and_eq_true, decide_eq_true_eq] at digit
        have le : c.toNat ≤ 0x39 := digit.2
        omega
      · have le : c.toNat ≤ 0x66 := letter.2
        omega
      · decide
    have plain := small c.toNat below
    rw [same] at plain
    exact plain shape
  rw [bytes_quote, cost_of_plain plain, id.length]

theorem bytes_body (id : Uuid) :
    byteLength (object (buildOutboundPayload publicUrl project ticket prompt ++ [(ofString "delivery_id", quote id.text)])) =
      bytesAt publicUrl project ticket prompt ((firstFit publicUrl project ticket prompt limits).getD 200) + 53 := by
  have name : cost (ofString "delivery_id") = 11 := by decide
  have closed := base_closed publicUrl project ticket prompt
    ((firstFit publicUrl project ticket prompt limits).getD 200) ((firstFit publicUrl project ticket prompt limits).getD 200)
  unfold buildOutboundPayload
  rw [shrink_eq]
  dsimp only
  rw [bytes_object_concat closed (closed_quote _) (List.cons_ne_nil _ _), bytes_uuid, name, ← size_eq]
  rfl

theorem leavesRoom_iff : LeavesRoom publicUrl project ticket prompt ↔
    bytesAt publicUrl project ticket prompt ((firstFit publicUrl project ticket prompt limits).getD 200) + 53 ≤
      maxBodyBytes := by
  unfold LeavesRoom
  cases found : firstFit publicUrl project ticket prompt limits with
  | some limit => simp
  | none =>
    have beyond := List.find?_eq_none.mp found 200 (by decide)
    simp only [decide_eq_true_eq] at beyond
    constructor
    · intro h
      obtain ⟨limit, mem, _⟩ := h
      cases mem
    · intro h
      exact absurd (Nat.le_of_add_right_le h) beyond

/-- The body stays within its bytes where the first limit that the payload fits at leaves 53 bytes for the delivery id. -/
theorem webhook_body_bounded_iff (id : Uuid) :
    (∀ body ∈ webhookBody publicUrl project ticket id, byteLength body ≤ maxBodyBytes ∧
      ∃ text rest, body = object ((ofString "prompt", quote text) :: rest)) ↔
    ∀ prompt ∈ renderPrompt project ticket, LeavesRoom publicUrl project ticket prompt := by
  unfold webhookBody
  cases renderPrompt project ticket with
  | none => exact ⟨fun _ _ => nofun, fun _ _ => nofun⟩
  | some prompt =>
    simp only [Option.map_some, Option.mem_some_iff, forall_eq']
    rw [bytes_body, leavesRoom_iff]
    exact and_iff_left ⟨_, _, rfl⟩

end

section

variable {publicUrl : Utf16} {project : Project} {ticket : Ticket}

theorem length_truncate {s : Utf16} {n : Nat} (pos : 0 < n) : (truncate s n).length ≤ n := by
  unfold truncate
  split
  · rw [List.length_append, List.length_take, List.length_singleton]
    omega
  · omega

theorem sum_cost_le {labels : List Utf16} (short : ∀ l ∈ labels, l.length ≤ 40) :
    (labels.map fun l => cost l + 2).sum ≤ 242 * labels.length := by
  induction labels with
  | nil => exact le_refl 0
  | cons l labels ih =>
    have here := short l (List.mem_cons_self ..)
    have worst := cost_le l
    have later := ih fun x hx => short x (List.mem_cons_of_mem _ hx)
    rw [List.map_cons, List.sum_cons, List.length_cons]
    omega

theorem labelsBytes_le (ticket : Ticket) : labelsBytes ticket.labels ≤ 4861 := by
  have total := sum_cost_le ticket.labelLength
  have count := ticket.labelCount
  unfold labelsBytes
  omega

theorem length_key (ticket : Ticket) (number : ticket.number < 10 ^ 30) : ticket.key.length ≤ 41 := by
  have digits : (Nat.toDigits 10 ticket.number).length ≤ 30 := (Nat.length_toDigits_le_iff (by omega) (by omega)).mpr number
  have units : ∀ l : List Char, (∀ c ∈ l, c.isDigit) → (l.flatMap Utf16.ofChar).length = l.length := by
    intro l all
    induction l with
    | nil => rfl
    | cons c l ih =>
      have bounds := toNat_of_isDigit (all c (List.mem_cons_self ..))
      have one : Utf16.ofChar c = [c.toNat.toUInt16] := if_pos (by omega)
      rw [List.flatMap_cons, one, List.length_append, ih fun x hx => all x (List.mem_cons_of_mem _ hx),
        List.length_singleton, List.length_cons, Nat.add_comm]
  have project := length_projectKey ticket.keyShape
  unfold Ticket.key
  rw [List.length_append, List.length_cons, units _ fun c mem => Nat.isDigit_of_mem_toDigits (by omega) (by omega) mem]
  omega

/-- What the services store is cut so far that some limit fits, under an address of moderate length. -/
theorem stored_payload_fits (address : publicUrl.length ≤ 300) (number : ticket.number < 10 ^ 30) (prompt : Utf16) :
    ∃ limit, firstFit publicUrl project ticket prompt limits = some limit := by
  have fits : bytesAt publicUrl project ticket prompt 200 ≤ maxBodyBytes := by
    have key := length_key ticket number
    have projectKey := length_projectKey project.keyShape
    have repo : (orElse ticket.repo project.repo).length ≤ 200 := length_orElse ticket.repoLength project.repoLength
    have url : (ticketUrl publicUrl project ticket).length ≤ 370 := by
      have parts : (ofString "/projects/").length = 10 ∧ (ofString "/tickets/").length = 9 := by decide
      unfold ticketUrl
      simp only [List.length_append, parts.1, parts.2]
      omega
    have callback : (callbackUrl publicUrl ticket).length ≤ 369 := by
      have part : (ofString "/api/webhooks/devin?ticket=").length = 27 := by decide
      unfold callbackUrl
      simp only [List.length_append, part]
      omega
    have type : cost (TicketType.text ticket.type) ≤ 5 := by
      cases ticket.type <;> decide
    have priority : cost (Priority.text ticket.priority) ≤ 8 := by
      cases ticket.priority <;> decide
    have status : cost (Status.text ticket.status) ≤ 11 := by
      cases ticket.status <;> decide
    have labels := labelsBytes_le ticket
    have description := length_truncate (s := ticket.description) (n := 200) (by omega)
    have cut := length_truncate (s := prompt) (n := 200) (by omega)
    have worst : ∀ {s : Utf16} {n : Nat}, s.length ≤ n → cost s ≤ 6 * n := by
      intro s n short
      have h := cost_le s
      omega
    have w1 := worst key
    have w2 := worst projectKey
    have w3 := worst repo
    have w4 := worst url
    have w5 := worst callback
    have w6 := worst description
    have w7 := worst cut
    have w8 := worst ticket.titleLength
    have w9 := worst ticket.branchLength
    have w10 := worst project.nameLength
    have w11 := worst project.repoLength
    unfold bytesAt fixedBytes maxBodyBytes
    omega
  cases found : firstFit publicUrl project ticket prompt limits with
  | some limit => exact ⟨limit, rfl⟩
  | none =>
    have not := List.find?_eq_none.mp found 200 (by decide)
    exact absurd (decide_eq_true fits) not

end

def quotedProject : Project where
  key := ofString "OTTER"
  name := ofString "Otter"
  repo := []
  promptTemplate := ofString "go"
  keyShape := by decide
  nameLength := by decide
  repoLength := by decide

def quotedTicket : Ticket where
  projectKey := ofString "OTTER"
  number := 1
  title := ofString "Fix the thing"
  description := List.replicate 9900 0x22
  type := .story
  priority := .low
  status := .backlog
  labels := [ofString "devin"]
  repo := []
  branch := []
  keyShape := by decide
  titleLength := by decide
  labelCount := by decide
  labelLength := by decide
  repoLength := by decide
  branchLength := by decide

def someUuid : Uuid where
  text := ofString "0f8fad5b-d9cb-469f-a165-70867728950e"
  length := by decide +kernel
  shape := List.all_iff_forall_prop.mp (by decide +kernel)

theorem substitute_plain {vars : List (Utf16 × Utf16)} {s : Utf16} (plain : ∀ c ∈ s, c ≠ 0x7b) :
    substitute vars s = some s := by
  induction s with
  | nil => rw [substitute]
  | cons c s ih =>
    have here := plain c (List.mem_cons_self ..)
    rw [substitute]
    simp only [here, false_and, if_false, ih fun x hx => plain x (List.mem_cons_of_mem _ hx), Option.map_some]

/-- A description of 9900 quotation marks is not cut, and the id takes the body 38 bytes past the bound. -/
theorem delivery_id_breaks_bound : ∃ body,
    webhookBody (ofString "https://projects.example.test") quotedProject quotedTicket someUuid = some body ∧
      byteLength body = maxBodyBytes + 38 := by
  have rendered : renderPrompt quotedProject quotedTicket = some (ofString "go") := by
    have template : orElse (trim quotedProject.promptTemplate) defaultPromptTemplate = ofString "go" := by decide +kernel
    have line : oneLine (ofString "go") = ofString "go" := by decide +kernel
    unfold renderPrompt
    rw [template]
    dsimp only
    have plain : ∀ c ∈ ofString "go", c ≠ 0x7b := List.all_iff_forall_prop.mp (by decide +kernel)
    rw [substitute_plain plain, Option.map_some, line]
  have uncut : truncate quotedTicket.description 12000 = List.replicate 9900 0x22 := by
    unfold truncate
    exact if_neg (by rw [show quotedTicket.description = List.replicate 9900 0x22 from rfl, List.length_replicate]; omega)
  have bytes : bytesAt (ofString "https://projects.example.test") quotedProject quotedTicket (ofString "go") 12000 =
      20465 := by
    have fixed : fixedBytes (ofString "https://projects.example.test") quotedProject quotedTicket = 663 := by
      decide +kernel
    have prompt : cost (truncate (ofString "go") 12000) = 2 := by decide
    unfold bytesAt
    rw [fixed, prompt, uncut, cost_replicate (by decide)]
    rfl
  have first : firstFit (ofString "https://projects.example.test") quotedProject quotedTicket (ofString "go") limits =
      some 12000 := by
    unfold limits
    rw [firstFit_cons, bytes]
    rfl
  refine ⟨_, by rw [webhookBody, rendered]; rfl, ?_⟩
  rw [bytes_body, first, Option.getD_some, bytes]
  rfl

end OtterWorks.Tickets.Outbound
