import OtterWorks.Lib.Lockstep
import OtterWorks.Portal.Adapters

namespace OtterWorks.Portal

open Utf16

section

variable {β : Type} (mapper : ObjectMapper β) (parseDouble : Utf16 → Option Double) (allows : Option Utf16 → Bool)

/-- A side as a machine that shows, of each request, the rows it leaves and its answer. -/
def shown (side : Rows → Request β → Rows × Answer) (s : Rows) (r : Request β) : Rows × (Rows × Answer) :=
  ((side s r).1, side s r)

theorem answered_eq_iff {allows : Option Utf16 → Bool} {accept : Option Utf16} {code : Nat} (fine : code ≠ 406 ∧ code ≠ 500)
    (verdict : Option Bool) (t : Rows) :
    answered verdict code t = refuse allows accept (t, .status code) ↔ verdict = some (allows accept) := by
  obtain ⟨notRefused, notFailed⟩ := fine
  cases verdict with
  | none => cases allowed : allows accept <;> simp [answered, refuse, allowed]; omega
  | some verdict => cases verdict <;> cases allowed : allows accept <;> simp [answered, refuse, allowed] <;> omega

/-- Where nothing is written, the order of the effect and the refusal does not show. -/
theorem negotiated_read_iff {allows : Option Utf16 → Bool} {parseDouble : Utf16 → Option Double} {accept : Option Utf16}
    {s : Rows} {answer : Answer} (fine : answer ≠ .status 406) :
    Dispatcher.negotiated parseDouble accept s (s, answer) = refuse allows accept (s, answer) ↔
      Dispatcher.acceptsJson parseDouble accept = allows accept := by
  have other := fine.symm
  rw [Dispatcher.negotiated, refuse]
  cases Dispatcher.acceptsJson parseDouble accept <;> cases allows accept <;> simp [fine, other]

/-- Where the two sides do the same with a request: where the handler reads the Accept header as the framework does
before it answers a request it has accepted, where it finds the same bodies valid, and, for the announcements, where a
refused request had nothing to write and its body is not null. -/
def Alike (s : Rows) (r : Request β) : Prop :=
  let announced := Dispatcher.acceptsJson parseDouble r.accept
  let preferred := PreferenceRouter.acceptsJson parseDouble r.accept
  let heard := FeedbackHandler.acceptsJson parseDouble r.accept
  match r.path, r.method with
  | .announcements, .get => announced = allows r.accept
  | .announcement _, .get => announced = allows r.accept
  | .announcements, .post =>
    match mapper.announcement r.body with
    | .unreadable => announced = true
    | .null => False
    | .value request => announced = true ∧ (Dispatcher.valid request = true → allows r.accept = true)
  | .publish id, .post =>
    announced = allows r.accept ∧
      (announced = false → ∀ a ∈ AnnouncementService.findById s id, a.published = true)
  | .preference _, .get => preferred = some (allows r.accept)
  | .preference _, .put =>
    ∀ request, mapper.preference r.body = .value request →
      PreferenceRouter.validate request = UserPreferenceController.valid request ∧
        (PreferenceRouter.validate request = true → preferred = some (allows r.accept))
  | .feedback, .get => r.userId.isSome = true → heard = some (allows r.accept)
  | .feedback, .post =>
    ∀ request, mapper.feedback r.body = .value request →
      FeedbackHandler.valid request = FeedbackController.valid request ∧
        (FeedbackHandler.valid request = true → heard = some (allows r.accept))
  | .averageRating, .get => heard = some (allows r.accept)
  | _, _ => True

variable {mapper parseDouble allows}

theorem create_iff (accept : Option Utf16) (s : Rows) (bound : Bound CreateAnnouncementRequest) :
    Dispatcher.negotiated parseDouble accept s (Dispatcher.create s bound) =
        requestBody AnnouncementController.valid s
          (fun request => refuse allows accept (AnnouncementController.create s request)) bound ↔
      match bound with
      | .unreadable => Dispatcher.acceptsJson parseDouble accept = true
      | .null => False
      | .value request =>
        Dispatcher.acceptsJson parseDouble accept = true ∧ (Dispatcher.valid request = true → allows accept = true) := by
  rw [Dispatcher.negotiated]
  cases bound with
  | unreadable => cases Dispatcher.acceptsJson parseDouble accept <;> simp [requestBody, Dispatcher.create]
  | null => cases Dispatcher.acceptsJson parseDouble accept <;> simp [requestBody, Dispatcher.create]
  | value request =>
    rw [requestBody, ← Dispatcher.valid_eq]
    -- a row that only one side writes shows
    have written := (AnnouncementService.create_ne s request.title request.body request.published).symm
    cases Dispatcher.acceptsJson parseDouble accept with
    | true =>
      cases checked : Dispatcher.valid request <;> cases allowed : allows accept <;>
        simp [Dispatcher.create, AnnouncementController.create, refuse, checked, allowed]
    | false =>
      cases checked : Dispatcher.valid request <;> cases allowed : allows accept <;>
        simp [AnnouncementController.create, refuse, allowed, written]

theorem publish_iff (accept : Option Utf16) (s : Rows) (id : Int) :
    Dispatcher.negotiated parseDouble accept s (Dispatcher.publish s id) =
        refuse allows accept (AnnouncementController.publish s id) ↔
      Dispatcher.acceptsJson parseDouble accept = allows accept ∧
        (Dispatcher.acceptsJson parseDouble accept = false →
          ∀ a ∈ AnnouncementService.findById s id, a.published = true) := by
  rw [← AnnouncementService.publish_idle_iff, Dispatcher.negotiated, refuse]
  have same : Dispatcher.publish s id = AnnouncementController.publish s id := rfl
  rw [same, AnnouncementController.publish]
  cases Dispatcher.acceptsJson parseDouble accept with
  | true =>
    cases AnnouncementService.publish s id <;> cases allows accept <;> simp
  | false =>
    cases AnnouncementService.publish s id <;> cases allows accept <;> simp [eq_comm]

/-- Two sides that check a body, each its own way, and then write the same and answer. -/
theorem requestBody_iff {α : Type} {mine theirs : α → Bool} (write : α → Rows) {run : α → Rows × Answer}
    {accept : Option Utf16} {code : Nat} (fine : code ≠ 400 ∧ code ≠ 406 ∧ code ≠ 500)
    (runs : ∀ request, theirs request = true → run request = (write request, .status code))
    (verdict : Option Bool) (s : Rows) (bound : Bound α) :
    requestBody mine s (fun request => answered verdict code (write request)) bound =
        requestBody theirs s (fun request => refuse allows accept (run request)) bound ↔
      ∀ request, bound = .value request →
        mine request = theirs request ∧ (mine request = true → verdict = some (allows accept)) := by
  obtain ⟨notBad, notRefused, notFailed⟩ := fine
  cases bound with
  | unreadable => simp [requestBody]
  | null => simp [requestBody]
  | value request =>
    have both : answered verdict code (write request) = refuse allows accept (write request, .status code) ↔
        verdict = some (allows accept) := answered_eq_iff ⟨notRefused, notFailed⟩ verdict (write request)
    -- a side that answers never answers as one that finds the body bad
    have answers400 : (answered verdict code (write request)).2 ≠ .status 400 := by
      cases verdict with
      | none => simp [answered]
      | some verdict => cases verdict <;> simp [answered, notBad]
    have refuse400 : (refuse allows accept (write request, .status code)).2 ≠ .status 400 := by
      cases allowed : allows accept <;> simp [refuse, allowed, notBad]
    simp only [requestBody, Bound.value.injEq, forall_eq']
    cases own : mine request <;> cases other : theirs request
    · simp
    · rw [runs request other]
      simp only [Bool.false_eq_true, if_false, if_true, false_and, iff_false]
      intro same
      exact refuse400 (congrArg Prod.snd same).symm
    · simp only [Bool.false_eq_true, if_false, if_true, reduceCtorEq, false_and, iff_false]
      intro same
      exact answers400 (congrArg Prod.snd same)
    · rw [runs request other]
      simp only [if_true, true_and, forall_const]
      exact both

theorem update_iff (accept : Option Utf16) (s : Rows) (userId : Utf16) (bound : Bound UpdateRequest) :
    PreferenceRouter.update parseDouble accept s userId bound =
        requestBody UserPreferenceController.valid s
          (fun request => refuse allows accept (UserPreferenceController.update s userId request)) bound ↔
      ∀ request, bound = .value request →
        PreferenceRouter.validate request = UserPreferenceController.valid request ∧
          (PreferenceRouter.validate request = true →
            PreferenceRouter.acceptsJson parseDouble accept = some (allows accept)) := by
  have fine : 200 ≠ 400 ∧ 200 ≠ 406 ∧ 200 ≠ 500 := by decide
  have run : ∀ request, UserPreferenceController.valid request = true →
      UserPreferenceController.update s userId request =
        (PreferenceRouter.save s userId request.theme request.locale request.emailNotifications, .status 200) :=
    fun request _ => rfl
  rw [← requestBody_iff _ fine run]
  cases bound <;> rfl

theorem submit_iff (accept : Option Utf16) (s : Rows) (bound : Bound SubmitRequest) :
    FeedbackHandler.submit parseDouble accept s bound =
        requestBody FeedbackController.valid s
          (fun request => refuse allows accept (FeedbackController.submit s request)) bound ↔
      ∀ request, bound = .value request →
        FeedbackHandler.valid request = FeedbackController.valid request ∧
          (FeedbackHandler.valid request = true →
            FeedbackHandler.acceptsJson parseDouble accept = some (allows accept)) := by
  have fine : 201 ≠ 400 ∧ 201 ≠ 406 ∧ 201 ≠ 500 := by decide
  rw [← requestBody_iff _ fine fun request checked => FeedbackController.submit_of_valid checked s]
  cases bound <;> rfl

theorem found_ne (s : Rows) (id : Int) : AnnouncementService.found s id ≠ .status 406 := by
  rw [AnnouncementService.found]
  cases AnnouncementService.findById s id <;> simp

/-- What one request shows is the same on both sides exactly if they are alike on it. -/
theorem request_iff (s : Rows) (r : Request β) :
    handleRequest mapper parseDouble s r = legacyRequest mapper allows s r ↔ Alike mapper parseDouble allows s r := by
  have ok : Answer.status 200 ≠ .status 406 := by decide
  have fine : 200 ≠ 406 ∧ 200 ≠ 500 := by decide
  obtain ⟨method, path, accept, userId, body⟩ := r
  cases path with
  | announcements =>
    cases method with
    | get => exact negotiated_read_iff ok
    | post =>
      rw [handleRequest, legacyRequest, Alike, create_iff]
    | put => simp [handleRequest, legacyRequest, Alike]
  | announcement id =>
    cases method with
    | get => exact negotiated_read_iff (found_ne s id)
    | post => simp [handleRequest, legacyRequest, Alike]
    | put => simp [handleRequest, legacyRequest, Alike]
  | publish id =>
    cases method with
    | get => simp [handleRequest, legacyRequest, Alike]
    | post => exact publish_iff accept s id
    | put => simp [handleRequest, legacyRequest, Alike]
  | preference user =>
    cases method with
    | get => exact answered_eq_iff fine _ s
    | post => simp [handleRequest, legacyRequest, Alike]
    | put => exact update_iff accept s user (mapper.preference body)
  | feedback =>
    cases method with
    | get =>
      cases userId with
      | none => simp [handleRequest, legacyRequest, Alike, FeedbackHandler.listForUser, FeedbackController.listForUser]
      | some user =>
        simp only [handleRequest, legacyRequest, Alike, Option.isSome_some, forall_const]
        exact answered_eq_iff fine _ s
    | post => exact submit_iff accept s (mapper.feedback body)
    | put => simp [handleRequest, legacyRequest, Alike]
  | averageRating =>
    cases method with
    | get => exact answered_eq_iff fine _ s
    | post => simp [handleRequest, legacyRequest, Alike]
    | put => simp [handleRequest, legacyRequest, Alike]

variable (mapper parseDouble allows)

/-- Request by request, the handlers answer as the monolith and leave the same rows exactly if every request of the
run finds them alike. -/
theorem handlers_keep_effects_iff (s : Rows) (rs : List (Request β)) :
    answers (shown (handleRequest mapper parseDouble)) s rs = answers (shown (legacyRequest mapper allows)) s rs ↔
      ∀ n r, rs[n]? = some r →
        Alike mapper parseDouble allows (after (shown (handleRequest mapper parseDouble)) s (rs.take n)) r := by
  have same : ∀ s t (r : Request β), s = t → True →
      ((shown (handleRequest mapper parseDouble) s r).2 = (shown (legacyRequest mapper allows) t r).2 ↔
        Alike mapper parseDouble allows s r) := by
    rintro s t r rfl _
    exact request_iff s r
  have keep : ∀ s t (r : Request β), s = t → True → Alike mapper parseDouble allows s r →
      (shown (handleRequest mapper parseDouble) s r).1 = (shown (legacyRequest mapper allows) t r).1 := by
    rintro s t r rfl _ alike
    rw [shown, shown, (request_iff s r).mpr alike]
  exact answers_eq_iff same keep rfl rs fun _ _ => trivial

end

section

def noRows : Rows := ⟨[], ∅, []⟩

def newsBody : Utf16 := ofString "\x7b\"title\":\"News\",\"body\":\"Text\"\x7d"

def spaceTheme : Utf16 := ofString "\x7b\"theme\":\"\u3000\",\"locale\":\"en\"\x7d"

/-- The binding of the bodies of the three requests. -/
def fewBodies : ObjectMapper Utf16 where
  announcement body :=
    if body = newsBody then .value ⟨some (ofString "News"), some (ofString "Text"), false⟩
    else if body = ofString "null" then .null
    else .unreadable
  preference body :=
    if body = spaceTheme then .value ⟨some (ofString "\u3000"), some (ofString "en"), false⟩ else .unreadable
  feedback _ := .unreadable

def htmlRefused (accept : Option Utf16) : Bool := accept != some (ofString "text/html")

/-- An announcement with a header that does not allow JSON, an announcement whose body is `null`, and preferences whose
theme is an ideographic space. -/
theorem three_requests_differ :
    let mine := shown (handleRequest fewBodies fun _ => none)
    let theirs := shown (legacyRequest fewBodies htmlRefused)
    let html : Request Utf16 := ⟨.post, .announcements, some (ofString "text/html"), none, newsBody⟩
    let null : Request Utf16 := ⟨.post, .announcements, none, none, ofString "null"⟩
    let space : Request Utf16 := ⟨.put, .preference (ofString "u1"), none, none, spaceTheme⟩
    answers mine noRows [html] ≠ answers theirs noRows [html] ∧
      answers mine noRows [null] ≠ answers theirs noRows [null] ∧
      answers mine noRows [space] ≠ answers theirs noRows [space] := by
  intro mine theirs html null space
  refine ⟨?_, ?_, ?_⟩
  · intro same
    have stored := congrArg (List.map fun out => out.1.announcements.length) same
    revert stored
    decide +kernel
  · intro same
    have answer := congrArg (List.map fun out => out.2) same
    revert answer
    decide +kernel
  · intro same
    have answer := congrArg (List.map fun out => out.2) same
    revert answer
    decide +kernel

end

end OtterWorks.Portal
