import OtterWorks.Lib.JsonText
import OtterWorks.Tickets.Ticket

namespace OtterWorks.Tickets.Outbound

open JsonText
open Utf16 (ofString)

/-- The white space of `trim` and of `\s`. -/
def isSpace (c : UInt16) : Bool :=
  (9 ≤ c && c ≤ 13) || c == 0x20 || c == 0xa0 || c == 0x1680 || (0x2000 ≤ c && c ≤ 0x200a) || c == 0x2028 ||
    c == 0x2029 || c == 0x202f || c == 0x205f || c == 0x3000 || c == 0xfeff

def trim (s : Utf16) : Utf16 := ((s.dropWhile isSpace).reverse.dropWhile isSpace).reverse

def str (max : Nat) (v : Option Utf16) : Utf16 := (v.getD []).take max

/-- `a || b` -/
def orElse (a b : Utf16) : Utf16 := if a = [] then b else a

def isUpper (c : UInt16) : Bool := 0x41 ≤ c && c ≤ 0x5a

def isDigit (c : UInt16) : Bool := 0x30 ≤ c && c ≤ 0x39

/-- `/^[A-Z][A-Z0-9]{1,9}$/` -/
def isProjectKey : Utf16 → Bool
  | [] => false
  | c :: rest => isUpper c && 1 ≤ rest.length && rest.length ≤ 9 && rest.all fun d => isUpper d || isDigit d

/-- What a stored project has of a payload. -/
structure Project where
  key : Utf16
  name : Utf16
  repo : Utf16
  promptTemplate : Utf16
  keyShape : isProjectKey key
  nameLength : name.length ≤ 120
  repoLength : repo.length ≤ 200

/-- What a stored ticket has of a payload. -/
structure Ticket where
  projectKey : Utf16
  number : Nat
  title : Utf16
  description : Utf16
  type : TicketType
  priority : Priority
  status : Status
  labels : List Utf16
  repo : Utf16
  branch : Utf16
  keyShape : isProjectKey projectKey
  titleLength : title.length ≤ 300
  labelCount : labels.length ≤ 20
  labelLength : ∀ l ∈ labels, l.length ≤ 40
  repoLength : repo.length ≤ 200
  branchLength : branch.length ≤ 200

def Ticket.key (t : Ticket) : Utf16 := t.projectKey ++ 0x2d :: ((Nat.toDigits 10 t.number).flatMap Utf16.ofChar)

theorem length_trim (s : Utf16) : (trim s).length ≤ s.length := by
  unfold trim
  have inner := (s.dropWhile_sublist isSpace).length_le
  have outer := ((s.dropWhile isSpace).reverse.dropWhile_sublist isSpace).length_le
  rw [List.length_reverse] at outer ⊢
  exact outer.trans inner

theorem length_str (max : Nat) (v : Option Utf16) : (str max v).length ≤ max := List.length_take_le _ _

theorem length_trim_str (max : Nat) (v : Option Utf16) : (trim (str max v)).length ≤ max :=
  (length_trim _).trans (length_str max v)

theorem length_orElse {a b : Utf16} {n : Nat} (ha : a.length ≤ n) (hb : b.length ≤ n) : (orElse a b).length ≤ n := by
  unfold orElse
  split
  · exact hb
  · exact ha

theorem length_projectKey {key : Utf16} (shape : isProjectKey key) : key.length ≤ 10 := by
  cases key with
  | nil => cases shape
  | cons c rest =>
    simp only [isProjectKey, Bool.and_eq_true, decide_eq_true_eq] at shape
    rw [List.length_cons]
    omega

/-- The texts of a project's body; a field that is not there, or not a text, is nothing. -/
structure ProjectInput where
  key : Option Utf16
  name : Option Utf16
  repo : Option Utf16
  promptTemplate : Option Utf16

structure TicketInput where
  title : Option Utf16
  description : Option Utf16
  type : Option TicketType
  priority : Option Priority
  status : Option Status
  labels : List Utf16
  repo : Option Utf16
  branch : Option Utf16

def defaultPromptTemplate : Utf16 :=
  ofString ("Implement \x7bkey\x7d: \x7btitle\x7d. \x7bdescription\x7d. Repo: \x7brepo\x7d. " ++
    "Acceptance criteria are in the ticket; run the relevant tests and create a PR.")

def createProject (toUpperCase : Utf16 → Utf16) (input : ProjectInput) : Option Project :=
  let key := toUpperCase (trim (str 20000 input.key))
  if shape : isProjectKey key then
    some {
      key := key
      name := orElse (trim (str 120 input.name)) key
      repo := trim (str 200 input.repo)
      promptTemplate := orElse (trim (str 4000 input.promptTemplate)) defaultPromptTemplate
      keyShape := shape
      nameLength := length_orElse (length_trim_str _ _) ((length_projectKey shape).trans (by omega))
      repoLength := length_trim_str _ _ }
  else none

def updateProject (p : Project) (input : ProjectInput) : Project where
  key := p.key
  name := if input.name.isSome then orElse (trim (str 120 input.name)) p.name else p.name
  repo := if input.repo.isSome then trim (str 200 input.repo) else p.repo
  promptTemplate :=
    if input.promptTemplate.isSome then orElse (trim (str 4000 input.promptTemplate)) defaultPromptTemplate
    else p.promptTemplate
  keyShape := p.keyShape
  nameLength := by
    split
    · exact length_orElse (length_trim_str _ _) p.nameLength
    · exact p.nameLength
  repoLength := by
    split
    · exact length_trim_str _ _
    · exact p.repoLength

/-- `normalizeLabels` of a list of texts; a repeated label stays at its first place. -/
def normalizeLabels (toLowerCase : Utf16 → Utf16) (v : List Utf16) : List Utf16 :=
  ((v.filter fun l => trim l ≠ []).map fun l => (toLowerCase (trim l)).take 40).eraseDups.take 20

theorem normalizeLabels_length (toLowerCase : Utf16 → Utf16) (v : List Utf16) :
    (normalizeLabels toLowerCase v).length ≤ 20 ∧ ∀ l ∈ normalizeLabels toLowerCase v, l.length ≤ 40 := by
  refine ⟨List.length_take_le _ _, fun l mem => ?_⟩
  have listed := List.mem_of_mem_take mem
  rw [List.mem_eraseDups] at listed
  obtain ⟨raw, _, rfl⟩ := List.mem_map.mp listed
  exact List.length_take_le _ _

def createTicket (toLowerCase : Utf16 → Utf16) (project : Project) (n : Nat) (input : TicketInput) : Option Ticket :=
  let title := trim (str 300 input.title)
  if title = [] then none
  else
    some {
      projectKey := project.key
      number := n
      title := title
      description := str 20000 input.description
      type := input.type.getD .story
      priority := input.priority.getD .medium
      status := input.status.getD .backlog
      labels := normalizeLabels toLowerCase input.labels
      repo := orElse (trim (str 200 input.repo)) project.repo
      branch := trim (str 200 input.branch)
      keyShape := project.keyShape
      titleLength := length_trim_str _ _
      labelCount := (normalizeLabels_length toLowerCase input.labels).1
      labelLength := (normalizeLabels_length toLowerCase input.labels).2
      repoLength := length_orElse (length_trim_str _ _) project.repoLength
      branchLength := length_trim_str _ _ }

/-- The labels that are written: those that are there where both lists read alike. -/
def changed (labels v : List Utf16) : List Utf16 :=
  if List.intercalate [0x2c] v = List.intercalate [0x2c] labels then labels else v

/-- `updateTicket`; the labels are there or not. -/
def updateTicket (toLowerCase : Utf16 → Utf16) (t : Ticket) (labels : Option (List Utf16)) (input : TicketInput) :
    Ticket where
  projectKey := t.projectKey
  number := t.number
  title := orElse (trim (str 300 input.title)) t.title
  description := if input.description.isSome then str 20000 input.description else t.description
  type := input.type.getD t.type
  priority := input.priority.getD t.priority
  status := input.status.getD t.status
  labels := changed t.labels ((labels.map (normalizeLabels toLowerCase)).getD t.labels)
  repo := if input.repo.isSome then trim (str 200 input.repo) else t.repo
  branch := if input.branch.isSome then trim (str 200 input.branch) else t.branch
  keyShape := t.keyShape
  titleLength := length_orElse (length_trim_str _ _) t.titleLength
  labelCount := by
    unfold changed
    split
    · exact t.labelCount
    · cases labels with
      | none => exact t.labelCount
      | some v => exact (normalizeLabels_length toLowerCase v).1
  labelLength := by
    unfold changed
    split
    · exact t.labelLength
    · cases labels with
      | none => exact t.labelLength
      | some v => exact (normalizeLabels_length toLowerCase v).2
  repoLength := by
    split
    · exact length_trim_str _ _
    · exact t.repoLength
  branchLength := by
    split
    · exact length_trim_str _ _
    · exact t.branchLength

def addLabels (toLowerCase : Utf16 → Utf16) (t : Ticket) (add remove : List Utf16) : Ticket :=
  let set := (t.labels ++ normalizeLabels toLowerCase add).eraseDups.filter fun l =>
    l ∉ normalizeLabels toLowerCase remove
  { t with
    labels := changed t.labels (set.take 20)
    labelCount := by
      unfold changed
      split
      · exact t.labelCount
      · exact List.length_take_le _ _
    labelLength := by
      unfold changed
      split
      · exact t.labelLength
      · intro l mem
        have listed := List.mem_eraseDups.mp (List.mem_of_mem_filter (List.mem_of_mem_take mem))
        rcases List.mem_append.mp listed with kept | added
        · exact t.labelLength l kept
        · exact (normalizeLabels_length toLowerCase add).2 l added }

/-- `oneLine` before its ends are trimmed. `inRun`: the unit before was a blank. -/
def collapse (inRun : Bool) : Utf16 → Utf16
  | [] => []
  | c :: rest =>
    if isSpace c then if inRun then collapse true rest else 0x20 :: collapse true rest
    else c :: collapse false rest

def oneLine (s : Utf16) : Utf16 := trim (collapse false s)

def isWord (c : UInt16) : Bool := isUpper c || isDigit c || (0x61 ≤ c && c ≤ 0x7a) || c == 0x5f

/-- What every object has by its prototype, where `oneLine` throws. -/
def inherited : List Utf16 :=
  ["constructor", "toString", "toLocaleString", "valueOf", "hasOwnProperty", "isPrototypeOf", "propertyIsEnumerable",
    "__proto__", "__defineGetter__", "__defineSetter__", "__lookupGetter__", "__lookupSetter__"].map ofString

/-- `replace(/\{(\w+)\}/g, …)`: a known name is replaced, an inherited one throws, and other text stays. -/
def substitute (vars : List (Utf16 × Utf16)) : Utf16 → Option Utf16
  | [] => some []
  | c :: rest =>
    let name := rest.takeWhile isWord
    let behind := rest.dropWhile isWord
    if c = 0x7b ∧ name ≠ [] ∧ behind.head? = some 0x7d then
      match vars.lookup name with
      | some value => (substitute vars behind.tail).map (oneLine value ++ ·)
      | none =>
        if name ∈ inherited then none
        else (substitute vars behind.tail).map fun after => c :: (name ++ 0x7d :: after)
    else (substitute vars rest).map (c :: ·)
termination_by s => s.length
decreasing_by
  all_goals
    have shorter := (rest.dropWhile_sublist isWord).length_le
    simp only [List.length_tail, List.length_cons]
    omega

def TicketType.text : TicketType → Utf16
  | .story => ofString "story"
  | .bug => ofString "bug"
  | .task => ofString "task"

def Priority.text : Priority → Utf16
  | .low => ofString "Low"
  | .medium => ofString "Medium"
  | .high => ofString "High"
  | .critical => ofString "Critical"

def Status.text : Status → Utf16
  | .backlog => ofString "Backlog"
  | .ready => ofString "Ready"
  | .inProgress => ofString "In Progress"
  | .inReview => ofString "In Review"
  | .done => ofString "Done"

/-- The prompt as one line; nothing where the rendering throws. -/
def renderPrompt (project : Project) (ticket : Ticket) : Option Utf16 :=
  let template := orElse (trim project.promptTemplate) defaultPromptTemplate
  let vars := [(ofString "key", ticket.key), (ofString "title", ticket.title),
    (ofString "description", ticket.description), (ofString "repo", orElse ticket.repo project.repo),
    (ofString "type", TicketType.text ticket.type), (ofString "priority", Priority.text ticket.priority),
    (ofString "labels", List.intercalate (ofString ", ") ticket.labels), (ofString "branch", ticket.branch)]
  (substitute vars template).map oneLine

def truncate (s : Utf16) (max : Nat) : Utf16 := if max < s.length then s.take (max - 1) ++ [0x2026] else s

def maxBodyBytes : Nat := 20 * 1024

/-- `encodeURIComponent` keeps the letters, the digits and the dash of a key. -/
def ticketUrl (publicUrl : Utf16) (project : Project) (ticket : Ticket) : Utf16 :=
  publicUrl ++ ofString "/projects/" ++ project.key ++ ofString "/tickets/" ++ ticket.key

def callbackUrl (publicUrl : Utf16) (ticket : Ticket) : Utf16 :=
  publicUrl ++ ofString "/api/webhooks/devin?ticket=" ++ ticket.key

def callbackInstructions : Utf16 :=
  ofString "POST JSON \x7bticket, session_id, session_url, " ++
  ofString "status, message, pr_url\x7d to callback_url with " ++
  ofString "header 'Authorization: Bearer <PROJECTS_API_KEY>' " ++
  ofString "whenever you make progress, open a PR, or finish."

section

variable (publicUrl : Utf16) (project : Project) (ticket : Ticket) (prompt : Utf16)

def ticketFields (descriptionMax : Nat) : List (Utf16 × Utf16) :=
  [(ofString "key", quote ticket.key),
    (ofString "title", quote ticket.title),
    (ofString "description", quote (truncate ticket.description descriptionMax)),
    (ofString "type", quote (TicketType.text ticket.type)),
    (ofString "priority", quote (Priority.text ticket.priority)),
    (ofString "status", quote (Status.text ticket.status)),
    (ofString "labels", array (ticket.labels.map quote)),
    (ofString "repo", quote (orElse ticket.repo project.repo)),
    (ofString "branch", quote ticket.branch),
    (ofString "url", quote (ticketUrl publicUrl project ticket))]

def projectFields : List (Utf16 × Utf16) :=
  [(ofString "key", quote project.key), (ofString "name", quote project.name), (ofString "repo", quote project.repo)]

def base (descriptionMax promptMax : Nat) : List (Utf16 × Utf16) :=
  [(ofString "prompt", quote (truncate prompt promptMax)),
    (ofString "event", quote (ofString "ticket.assigned_to_devin")),
    (ofString "ticket", object (ticketFields publicUrl project ticket descriptionMax)),
    (ofString "project", object (projectFields project)),
    (ofString "callback_url", quote (callbackUrl publicUrl ticket)),
    (ofString "callback_api_key", quote (ofString "PROJECTS_API_KEY")),
    (ofString "callback_instructions", quote callbackInstructions)]

def size (descriptionMax promptMax : Nat) : Nat :=
  byteLength (object (base publicUrl project ticket prompt descriptionMax promptMax))

/-- The loop that halves the two limits. -/
def shrink (descriptionMax promptMax : Nat) : Nat × Nat :=
  if maxBodyBytes < size publicUrl project ticket prompt descriptionMax promptMax ∧
      (200 < descriptionMax ∨ 200 < promptMax) then
    shrink (max 200 (descriptionMax / 2)) (max 200 (promptMax / 2))
  else (descriptionMax, promptMax)
termination_by (descriptionMax - 200) + (promptMax - 200)

def buildOutboundPayload : List (Utf16 × Utf16) :=
  let limits := shrink publicUrl project ticket prompt 12000 12000
  base publicUrl project ticket prompt limits.1 limits.2

/-- `randomUUID` -/
structure Uuid where
  text : Utf16
  length : text.length = 36
  shape : ∀ c ∈ text, isDigit c ∨ (0x61 ≤ c ∧ c ≤ 0x66) ∨ c = 0x2d

/-- The body that `dispatchWebhook` posts; nothing where the prompt cannot be rendered. -/
def webhookBody (id : Uuid) : Option Utf16 :=
  (renderPrompt project ticket).map fun prompt =>
    object (buildOutboundPayload publicUrl project ticket prompt ++ [(ofString "delivery_id", quote id.text)])

end

end OtterWorks.Tickets.Outbound
