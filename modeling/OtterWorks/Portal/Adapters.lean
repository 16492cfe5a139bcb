import OtterWorks.Portal.Accept
import OtterWorks.Portal.Contexts

namespace OtterWorks.Portal

open Utf16

def AnnouncementService.found (s : Rows) (id : Int) : Answer :=
  match AnnouncementService.findById s id with
  | some _ => .status 200
  | none => .status 404

/-- The answer of a handler that asks the header after the effect; a check that raises is an unexpected failure. -/
def answered (verdict : Option Bool) (code : Nat) (s : Rows) : Rows × Answer :=
  match verdict with
  | some true => (s, .status code)
  | some false => (s, .status 406)
  | none => (s, .status 500)

section Lambdas

variable {β : Type} (mapper : ObjectMapper β) (parseDouble : Utf16 → Option Double)

namespace Dispatcher

def notBlank (s : Option Utf16) (max : Nat) : Bool :=
  match s with
  | none => false
  | some s => !(trim s).isEmpty && decide (s.length ≤ max)

def valid (r : CreateAnnouncementRequest) : Bool := notBlank r.title 200 && notBlank r.body 4000

/-- The header is asked before the effect. -/
def negotiated (accept : Option Utf16) (s : Rows) (produce : Rows × Answer) : Rows × Answer :=
  if acceptsJson parseDouble accept then produce else (s, .status 406)

/-- The check of a body that binds to the null reference raises. -/
def create (s : Rows) : Bound CreateAnnouncementRequest → Rows × Answer
  | .unreadable => (s, .status 400)
  | .null => (s, .raised)
  | .value r =>
    if valid r then (AnnouncementService.create s r.title r.body r.published, .status 201) else (s, .status 400)

def publish (s : Rows) (id : Int) : Rows × Answer :=
  match AnnouncementService.publish s id with
  | some t => (t, .status 200)
  | none => (s, .status 404)

end Dispatcher

namespace PreferenceRouter

def notBlank (value : Option Utf16) : Bool :=
  match value with
  | none => false
  | some value => !isBlank value

def validate (request : UpdateRequest) : Bool :=
  notBlank request.theme && request.theme.all (·.length ≤ 20) &&
    notBlank request.locale && request.locale.all (·.length ≤ 20)

/-- The new record takes the place of whatever is stored. -/
def save (s : Rows) (userId : Utf16) (theme locale : Option Utf16) (emailNotifications : Bool) : Rows :=
  { s with preferences := s.preferences.insert userId ⟨theme, locale, emailNotifications⟩ }

def respond (accept : Option Utf16) (s : Rows) : Rows × Answer := answered (acceptsJson parseDouble accept) 200 s

def update (accept : Option Utf16) (s : Rows) (userId : Utf16) : Bound UpdateRequest → Rows × Answer
  | .unreadable => (s, .status 400)
  | .null => (s, .status 400)
  | .value request =>
    if validate request then
      respond parseDouble accept (save s userId request.theme request.locale request.emailNotifications)
    else (s, .status 400)

end PreferenceRouter

namespace FeedbackHandler

def notBlank (value : Option Utf16) : Bool :=
  match value with
  | none => false
  | some value => value.any fun c => !isWhitespace c

def valid (request : SubmitRequest) : Bool :=
  notBlank request.userId && request.userId.all (·.length ≤ 100) &&
    (decide (1 ≤ request.rating) && decide (request.rating ≤ 5)) &&
    notBlank request.message && request.message.all (·.length ≤ 2000)

def save (s : Rows) (userId : Option Utf16) (rating : Int) (message : Option Utf16) : Rows :=
  { s with feedback := s.feedback ++ [⟨userId, rating, message⟩] }

def respond (accept : Option Utf16) (code : Nat) (s : Rows) : Rows × Answer :=
  answered (acceptsJson parseDouble accept) code s

def submit (accept : Option Utf16) (s : Rows) : Bound SubmitRequest → Rows × Answer
  | .unreadable => (s, .status 400)
  | .null => (s, .status 400)
  | .value request =>
    if valid request then
      respond parseDouble accept 201 (save s request.userId request.rating request.message)
    else (s, .status 400)

/-- A list needs the query's user. -/
def listForUser (accept : Option Utf16) (s : Rows) (userId : Option Utf16) : Rows × Answer :=
  match userId with
  | none => (s, .status 400)
  | some _ => respond parseDouble accept 200 s

end FeedbackHandler

/-- A request to the lambda handler of its context. -/
def handleRequest (s : Rows) (r : Request β) : Rows × Answer :=
  match r.path, r.method with
  | .announcements, .get => Dispatcher.negotiated parseDouble r.accept s (s, .status 200)
  | .announcements, .post =>
    Dispatcher.negotiated parseDouble r.accept s (Dispatcher.create s (mapper.announcement r.body))
  | .announcement id, .get =>
    Dispatcher.negotiated parseDouble r.accept s (s, AnnouncementService.found s id)
  | .publish id, .post => Dispatcher.negotiated parseDouble r.accept s (Dispatcher.publish s id)
  | .preference _, .get => PreferenceRouter.respond parseDouble r.accept s
  | .preference userId, .put => PreferenceRouter.update parseDouble r.accept s userId (mapper.preference r.body)
  | .feedback, .get => FeedbackHandler.listForUser parseDouble r.accept s r.userId
  | .feedback, .post => FeedbackHandler.submit parseDouble r.accept s (mapper.feedback r.body)
  | .averageRating, .get => FeedbackHandler.respond parseDouble r.accept 200 s
  | _, _ => (s, .status 405)

end Lambdas

section Monolith

-- `allows` is the framework's reading of the Accept header of a JSON response
variable {β : Type} (mapper : ObjectMapper β) (allows : Option Utf16 → Bool)

/-- `@NotBlank`. -/
def NotBlank (value : Option Utf16) : Bool := value.any fun value => !(trim value).isEmpty

/-- `@Size(max = n)`, which null passes. -/
def Size (max : Nat) (value : Option Utf16) : Bool := value.all (·.length ≤ max)

/-- The refusal of a response that the header does not allow comes after the transaction. -/
def refuse (accept : Option Utf16) (out : Rows × Answer) : Rows × Answer :=
  if allows accept then out else (out.1, .status 406)

/-- A body that does not bind, that is null or that fails its constraints is refused before the controller runs. -/
def requestBody {α : Type} (valid : α → Bool) (s : Rows) (run : α → Rows × Answer) : Bound α → Rows × Answer
  | .unreadable => (s, .status 400)
  | .null => (s, .status 400)
  | .value request => if valid request then run request else (s, .status 400)

namespace AnnouncementController

def valid (r : CreateAnnouncementRequest) : Bool :=
  (NotBlank r.title && Size 200 r.title) && (NotBlank r.body && Size 4000 r.body)

def create (s : Rows) (request : CreateAnnouncementRequest) : Rows × Answer :=
  (AnnouncementService.create s request.title request.body request.published, .status 201)

def publish (s : Rows) (id : Int) : Rows × Answer :=
  match AnnouncementService.publish s id with
  | some t => (t, .status 200)
  | none => (s, .status 404)

end AnnouncementController

namespace UserPreferenceController

def valid (r : UpdateRequest) : Bool :=
  (NotBlank r.theme && Size 20 r.theme) && (NotBlank r.locale && Size 20 r.locale)

def defaultPreference : UserPreference := ⟨some (ofString "light"), some (ofString "en-US"), true⟩

/-- The stored entity, or the defaults, with its three fields set. -/
def save (s : Rows) (userId : Utf16) (theme locale : Option Utf16) (emailNotifications : Bool) : Rows :=
  let preference := s.preferences[userId]?.getD defaultPreference
  let preference := { preference with theme := theme }
  let preference := { preference with locale := locale }
  let preference := { preference with emailNotifications := emailNotifications }
  { s with preferences := s.preferences.insert userId preference }

def update (s : Rows) (userId : Utf16) (request : UpdateRequest) : Rows × Answer :=
  (save s userId request.theme request.locale request.emailNotifications, .status 200)

end UserPreferenceController

namespace FeedbackController

def valid (r : SubmitRequest) : Bool :=
  (NotBlank r.userId && Size 100 r.userId) && (decide (1 ≤ r.rating) && decide (r.rating ≤ 5)) &&
    (NotBlank r.message && Size 2000 r.message)

/-- The service looks at the rating once more. -/
def submit (s : Rows) (request : SubmitRequest) : Rows × Answer :=
  if request.rating < 1 ∨ 5 < request.rating then (s, .status 400)
  else ({ s with feedback := s.feedback ++ [⟨request.userId, request.rating, request.message⟩] }, .status 201)

/-- A required parameter is bound before the controller runs. -/
def listForUser (accept : Option Utf16) (s : Rows) (userId : Option Utf16) : Rows × Answer :=
  match userId with
  | none => (s, .status 400)
  | some _ => refuse allows accept (s, .status 200)

end FeedbackController

/-- A request to the controllers of the monolith. -/
def legacyRequest (s : Rows) (r : Request β) : Rows × Answer :=
  match r.path, r.method with
  | .announcements, .get => refuse allows r.accept (s, .status 200)
  | .announcements, .post =>
    requestBody AnnouncementController.valid s
      (fun request => refuse allows r.accept (AnnouncementController.create s request)) (mapper.announcement r.body)
  | .announcement id, .get => refuse allows r.accept (s, AnnouncementService.found s id)
  | .publish id, .post => refuse allows r.accept (AnnouncementController.publish s id)
  | .preference _, .get => refuse allows r.accept (s, .status 200)
  | .preference userId, .put =>
    requestBody UserPreferenceController.valid s
      (fun request => refuse allows r.accept (UserPreferenceController.update s userId request))
      (mapper.preference r.body)
  | .feedback, .get => FeedbackController.listForUser allows r.accept s r.userId
  | .feedback, .post =>
    requestBody FeedbackController.valid s
      (fun request => refuse allows r.accept (FeedbackController.submit s request)) (mapper.feedback r.body)
  | .averageRating, .get => refuse allows r.accept (s, .status 200)
  | _, _ => (s, .status 405)

end Monolith

/-- The two checks of an announcement are one. -/
theorem Dispatcher.valid_eq (r : CreateAnnouncementRequest) : Dispatcher.valid r = AnnouncementController.valid r := by
  have same : ∀ (s : Option Utf16) (max : Nat), Dispatcher.notBlank s max = (NotBlank s && Size max s) := by
    intro s max
    cases s <;> rfl
  rw [Dispatcher.valid, AnnouncementController.valid, same, same]

/-- After the constraints the service's own look at the rating changes nothing. -/
theorem FeedbackController.submit_of_valid {request : SubmitRequest} (checked : FeedbackController.valid request = true)
    (s : Rows) : FeedbackController.submit s request =
      (FeedbackHandler.save s request.userId request.rating request.message, .status 201) := by
  simp only [FeedbackController.valid, Bool.and_eq_true, decide_eq_true_eq] at checked
  obtain ⟨⟨_, low, high⟩, _⟩ := checked
  have inside : ¬ (request.rating < 1 ∨ 5 < request.rating) := by omega
  rw [FeedbackController.submit, if_neg inside]
  rfl

end OtterWorks.Portal
