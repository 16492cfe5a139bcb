import Mathlib.Data.List.Basic
import Mathlib.Logic.Function.Basic

namespace OtterWorks.Notifications

inductive DeliveryChannel
  | email
  | inApp
  | push
  deriving DecidableEq, Repr

/-- The name under which `deliveredVia` lists a channel. -/
def DeliveryChannel.text : DeliveryChannel → String
  | .email => "email"
  | .inApp => "in_app"
  | .push => "push"

structure SqsNotificationMessage where
  eventType : String
  fileId : String := ""
  ownerId : String := ""
  sharedWithUserId : String := ""
  documentId : String := ""
  commentId : String := ""
  userId : String := ""
  actorId : String := ""
  mentionedUserId : String := ""
  deriving DecidableEq, Repr

structure Notification where
  id : String
  userId : String
  type : String
  title : String
  message : String
  resourceId : String
  resourceType : String
  actorId : String
  read : Bool
  deliveredVia : List String
  createdAt : String
  deriving DecidableEq, Repr

abbrev Channels := List (String × List DeliveryChannel)

/-- The channels of a `NotificationPreference` that sets none. -/
def defaultChannels : Channels :=
  [("file_shared", [.email, .inApp, .push]), ("comment_added", [.inApp, .push]), ("document_edited", [.inApp]),
    ("user_mentioned", [.email, .inApp, .push])]

def enabledChannels (preferences : Channels) (eventType : String) : List DeliveryChannel :=
  ((preferences.lookup eventType).or (defaultChannels.lookup eventType)).getD [.inApp]

def ifEmpty (text other : String) : String := if text.isEmpty then other else text

/-- `Char.isWhitespace` on the JVM, which has no next-line character. -/
def isWhitespace (c : Char) : Bool :=
  (9 ≤ c.toNat && c.toNat ≤ 13) || (0x1c ≤ c.toNat && c.toNat ≤ 0x20) || c.toNat = 0xa0 || c.toNat = 0x1680 ||
    (0x2000 ≤ c.toNat && c.toNat ≤ 0x200a) || c.toNat = 0x2028 || c.toNat = 0x2029 ||
    c.toNat = 0x202f || c.toNat = 0x205f || c.toNat = 0x3000

namespace SqsNotificationMessage

def resolveTargetUserId (event : SqsNotificationMessage) : String :=
  match event.eventType with
  | "file_shared" => event.sharedWithUserId
  | "comment_added" => ifEmpty event.userId event.ownerId
  | "document_edited" => ifEmpty event.userId event.ownerId
  | "user_mentioned" => ifEmpty event.mentionedUserId event.userId
  | _ => event.userId

def resolveResourceId (event : SqsNotificationMessage) : String :=
  match event.eventType with
  | "file_shared" => event.fileId
  | "comment_added" => ifEmpty event.commentId event.documentId
  | "document_edited" => event.documentId
  | "user_mentioned" => event.documentId
  | _ => ""

def resolveResourceType (event : SqsNotificationMessage) : String :=
  match event.eventType with
  | "file_shared" => "file"
  | "comment_added" => "comment"
  | "document_edited" => "document"
  | "user_mentioned" => "document"
  | _ => "unknown"

def actor (event : SqsNotificationMessage) : String := ifEmpty event.actorId event.ownerId

/-- Title and message of `NotificationTemplates.render`, the values put in literally. -/
def render (event : SqsNotificationMessage) : String × String :=
  match event.eventType with
  | "file_shared" => ("File Shared With You", "A file has been shared with you by user " ++ event.actor ++ ".")
  | "comment_added" =>
    ("New Comment", "A new comment was added by user " ++ event.actor ++ " on document " ++ event.documentId ++ ".")
  | "document_edited" => ("Document Edited", "Document " ++ event.documentId ++ " was edited by user " ++ event.actor ++ ".")
  | "user_mentioned" =>
    ("You Were Mentioned", "You were mentioned by user " ++ event.actor ++ " in document " ++ event.documentId ++ ".")
  | _ => ("Notification", "You have a new notification.")

def notification (event : SqsNotificationMessage) (id createdAt : String) (deliveredVia : List String) : Notification where
  id := id
  userId := event.resolveTargetUserId
  type := event.eventType
  title := event.render.1
  message := event.render.2
  resourceId := event.resolveResourceId
  resourceType := event.resolveResourceType
  actorId := event.actor
  read := false
  deliveredVia := deliveredVia
  createdAt := createdAt

end SqsNotificationMessage

/-- How a write to a table ends: answered, applied with the answer lost, or failed before it was applied. -/
inductive Ending
  | answered
  | lost
  | failed
  deriving DecidableEq, Repr

/-- Where a call of `processEvent` stands: before which of its repository calls, the email or the push. -/
inductive Stage
  | idle
  | preferences (event : SqsNotificationMessage)
  | email (event : SqsNotificationMessage) (channels : List DeliveryChannel) (deliveredVia : List String)
  | save (event : SqsNotificationMessage) (channels : List DeliveryChannel) (deliveredVia : List String)
  | push (notification : Notification)
  | saveAgain (notification : Notification)
  | returned (notification : Option Notification)
  | thrown
  deriving DecidableEq, Repr

/-- The item of the preferences table, or that the read throws. -/
inductive PreferenceAnswer
  | throws
  | missing
  | stored (channels : Channels)
  deriving DecidableEq, Repr

/-- The table of the notifications and the calls in flight. The last four fields are history: the ids that were drawn, those
that an answered `markAsRead` marked, those that `deleteNotification` took out, and what each call of `processEvent` delivered. -/
structure State where
  table : String → Option Notification
  stage : Nat → Stage
  pending : Nat → List String
  issued : String → Bool
  marked : List String
  removed : List String
  delivered : Nat → DeliveryChannel → Bool

/-- One repository call, email or push of some call in flight. -/
inductive Event
  | processEvent (w : Nat) (event : SqsNotificationMessage)
  | getPreferences (w : Nat) (answer : PreferenceAnswer)
  | sendEmail (w : Nat) (sent : Bool)
  | saveNotification (w : Nat) (id createdAt : String) (ending : Ending)
  | pushNotification (w : Nat) (pushCount : Nat)
  | saveAgain (w : Nat) (ending : Ending)
  | markAsRead (id : String) (ending : Ending)
  | markAllAsRead (k : Nat) (listed : List Notification)
  | markNext (k : Nat) (ending : Ending)
  | deleteNotification (id : String) (ending : Ending)
  deriving DecidableEq, Repr

namespace State

def enter (s : State) (w : Nat) (stage : Stage) : State := { s with stage := Function.update s.stage w stage }

def deliver (s : State) (w : Nat) (channel : DeliveryChannel) : State :=
  { s with delivered := Function.update s.delivered w (Function.update (s.delivered w) channel true) }

def put (s : State) (notification : Notification) : State :=
  { s with table := Function.update s.table notification.id (some notification) }

def issue (s : State) (id : String) : State := { s with issued := Function.update s.issued id true }

def processEvent (s : State) (w : Nat) (event : SqsNotificationMessage) : State :=
  match s.stage w with
  | .idle =>
    if event.resolveTargetUserId.toList.all isWhitespace then s.enter w (.returned none) else s.enter w (.preferences event)
  | _ => s

def inAppText (channels : List DeliveryChannel) : List String := if .inApp ∈ channels then ["in_app"] else []

/-- The rest of `processEvent` up to the next call. -/
def choose (s : State) (w : Nat) (event : SqsNotificationMessage) (preferences : Channels) : State :=
  let channels := enabledChannels preferences event.eventType
  if .email ∈ channels then s.enter w (.email event channels (inAppText channels))
  else s.enter w (.save event channels (inAppText channels))

def getPreferences (s : State) (w : Nat) (answer : PreferenceAnswer) : State :=
  match s.stage w with
  | .preferences event =>
    match answer with
    | .throws => s.enter w .thrown
    | .missing => s.choose w event defaultChannels
    | .stored preferences => s.choose w event preferences
  | _ => s

def sendEmail (s : State) (w : Nat) (sent : Bool) : State :=
  match s.stage w with
  | .email event channels deliveredVia =>
    if sent then (s.deliver w .email).enter w (.save event channels (deliveredVia ++ ["email"]))
    else s.enter w (.save event channels deliveredVia)
  | _ => s

/-- The notification is in the table: a channel `IN_APP` has delivered it. -/
def stored (s : State) (w : Nat) (channels : List DeliveryChannel) (notification : Notification) : State :=
  let s := s.put notification
  if .inApp ∈ channels then s.deliver w .inApp else s

/-- The first `saveNotification`, under an id that `UUID.randomUUID` has not given before. -/
def saveNotification (s : State) (w : Nat) (id createdAt : String) (ending : Ending) : State :=
  match s.stage w with
  | .save event channels deliveredVia =>
    if s.issued id then s
    else
      let notification := event.notification id createdAt deliveredVia
      match ending with
      | .answered =>
        ((s.issue id).stored w channels notification).enter w
          (if .push ∈ channels then .push notification else .returned (some notification))
      | .lost => ((s.issue id).stored w channels notification).enter w .thrown
      | .failed => (s.issue id).enter w .thrown
  | _ => s

def pushNotification (s : State) (w : Nat) (pushCount : Nat) : State :=
  match s.stage w with
  | .push notification =>
    if 0 < pushCount then
      (s.deliver w .push).enter w
        (.saveAgain { notification with deliveredVia := notification.deliveredVia ++ ["push"] })
    else s.enter w (.returned (some notification))
  | _ => s

/-- The second `saveNotification`: the copy that `processEvent` holds, with the push among the channels. -/
def saveAgain (s : State) (w : Nat) (ending : Ending) : State :=
  match s.stage w with
  | .saveAgain notification =>
    match ending with
    | .answered => (s.put notification).enter w (.returned (some notification))
    | .lost => (s.put notification).enter w .thrown
    | .failed => s.enter w .thrown
  | _ => s

/-- `SET #r = true` under the condition `attribute_exists(id)`. -/
def markAsRead (s : State) (id : String) (ending : Ending) : State :=
  match s.table id with
  | none => s
  | some notification =>
    let after := { s with table := Function.update s.table id (some { notification with read := true }) }
    match ending with
    | .answered => { after with marked := id :: s.marked }
    | .lost => after
    | .failed => s

/-- The query of `markAllAsRead`, whose index may lag, and the ids that it is going to mark. -/
def markAllAsRead (s : State) (k : Nat) (listed : List Notification) : State :=
  { s with pending := Function.update s.pending k ((listed.filter fun n => !n.read).map Notification.id) }

def markNext (s : State) (k : Nat) (ending : Ending) : State :=
  match s.pending k with
  | [] => s
  | id :: rest => { s with pending := Function.update s.pending k rest }.markAsRead id ending

def deleteNotification (s : State) (id : String) (ending : Ending) : State :=
  match ending with
  | .failed => s
  | _ =>
    { s with
      table := Function.update s.table id none
      removed := if (s.table id).isSome then id :: s.removed else s.removed }

def step (s : State) : Event → State
  | .processEvent w event => s.processEvent w event
  | .getPreferences w answer => s.getPreferences w answer
  | .sendEmail w sent => s.sendEmail w sent
  | .saveNotification w id createdAt ending => s.saveNotification w id createdAt ending
  | .pushNotification w pushCount => s.pushNotification w pushCount
  | .saveAgain w ending => s.saveAgain w ending
  | .markAsRead id ending => s.markAsRead id ending
  | .markAllAsRead k listed => s.markAllAsRead k listed
  | .markNext k ending => s.markNext k ending
  | .deleteNotification id ending => s.deleteNotification id ending

/-- Some notifications of earlier events, and nothing in flight. -/
def start (rows : List Notification) : State where
  table id := rows.find? fun n => n.id = id
  stage _ := .idle
  pending _ := []
  issued id := (rows.find? fun n => n.id = id).isSome
  marked := []
  removed := []
  delivered _ _ := false

end State

end OtterWorks.Notifications
