import OtterWorks.Lib.JsText
import OtterWorks.Lib.Transition
import OtterWorks.Tickets.Ticket
import Mathlib.Data.List.Sort

namespace OtterWorks.Tickets

/-- An event as `applyDevinEvent` is given it. -/
structure DevinEvent where
  sessionId : Option String
  sessionUrl : Option String
  status : Option String
  message : Option String
  messageId : Option String
  messageAt : Option Nat
  prUrl : Option String
  deriving DecidableEq, Repr

namespace DevinEvent

/-- The message, cut and trimmed. -/
def text (ev : DevinEvent) : Text := JsText.trim ((ev.message.getD "").toList.take 20000)

/-- The id that is remembered: the one sent with the message, or a hash that stands for one. -/
def id (sha1 : String → String) (ev : DevinEvent) : String :=
  if given ev.messageId then ev.messageId.getD ""
  else
    sha1 (match ev.messageAt with
      | some time => toString time ++ ":" ++ String.ofList ev.text
      | none => ev.sessionId.getD "" ++ ":" ++ ev.status.getD "" ++ ":" ++ String.ofList ev.text)

def normalized (sha1 : String → String) (ev : DevinEvent) (now : Nat) : InboundDevinEvent where
  sessionId := ev.sessionId
  sessionUrl := ev.sessionUrl
  status := ev.status
  message := String.ofList ev.text
  messageId := ev.id sha1
  messageAt := ev.messageAt.getD now
  prUrl := String.ofList (JsText.trim ((ev.prUrl.getD "").toList.take 2000))

/-- The id of a message that comes with one. -/
def sent (ev : DevinEvent) : Option String := if given ev.message ∧ given ev.messageId then ev.messageId else none

end DevinEvent

/-- A comment by Devin. `messageId`, which the comment itself does not keep, is the id that came with its message. -/
structure MirroredComment where
  messageId : Option String
  body : String
  createdAt : Nat
  deriving DecidableEq, Repr

/-- A ticket with its comments by Devin. `delivered`: the ids of the messages that came so far. -/
structure Mirror where
  ticket : Ticket
  comments : List MirroredComment
  delivered : List String
  deriving DecidableEq, Repr

inductive MessageSource
  | devin
  | user
  deriving DecidableEq, Repr

structure DevinMessage where
  eventId : String
  source : MessageSource
  message : String
  createdAt : Nat
  deriving DecidableEq, Repr

structure Page where
  items : List DevinMessage
  hasNextPage : Bool
  endCursor : Option String

/-- The loop of `listMessages`, with the number of pages it may still ask for. -/
def listPages (page : Option String → Page) : Nat → Option String → List DevinMessage
  | 0, _ => []
  | n + 1, after =>
    let res := page after
    res.items ++ if !res.hasNextPage || !given res.endCursor then [] else listPages page n res.endCursor

def listMessages (page : Option String → Page) : List DevinMessage := listPages page 20 none

/-- What the Devin API answers to one run of the poller; a message has an id, and no two have the same. `status` is
that of `summarizeStatus`. -/
structure SessionAnswer where
  sessionId : String
  url : String
  status : String
  prUrl : Option String
  page : Option String → Page
  named : ∀ m ∈ listMessages page, m.eventId ≠ ""
  distinct : ((listMessages page).map DevinMessage.eventId).Nodup

def SessionAnswer.devinMessages (answer : SessionAnswer) : List DevinMessage :=
  (listMessages answer.page).filter fun m => m.source = .devin

def DevinMessage.event (answer : SessionAnswer) (m : DevinMessage) : DevinEvent :=
  ⟨some answer.sessionId, some answer.url, none, some m.message, some m.eventId, some m.createdAt, none⟩

def SessionAnswer.lastEvent (answer : SessionAnswer) : DevinEvent :=
  ⟨some answer.sessionId, some answer.url, some answer.status, none, none, none, answer.prUrl⟩

/-- The poller passes a ticket by that has no session or is done. -/
def polled (t : Ticket) : Bool := given t.devin.sessionId && t.status ≠ .done

inductive MirrorEvent
  | poll (answer : SessionAnswer) (now : Nat)
  | inbound (ev : DevinEvent) (now : Nat)

namespace Mirror

section

variable (sha1 : String → String) (s : Mirror)

def applyDevinEvent (ev : DevinEvent) (now : Nat) : Mirror :=
  let inbound := ev.normalized sha1 now
  { s with
    ticket := if inbound.changes s.ticket then { inbound.apply s.ticket with updatedAt := now } else s.ticket
    comments := if inbound.messageIsNew s.ticket.devin then
        s.comments ++ [⟨if given ev.messageId then ev.messageId else none, inbound.message, inbound.messageAt⟩]
      else s.comments }

/-- The Devin messages that the snapshot of the ticket does not remember, by their time. -/
def fresh (answer : SessionAnswer) : List DevinMessage :=
  (answer.devinMessages.filter fun m => !s.ticket.devin.seenMessageIds.contains m.eventId).insertionSort
    fun a b => a.createdAt ≤ b.createdAt

def mirrorAll (answer : SessionAnswer) (now : Nat) (messages : List DevinMessage) : Mirror :=
  messages.foldl (fun s m => s.applyDevinEvent sha1 (m.event answer) now) s

def poll (answer : SessionAnswer) (now : Nat) : Mirror :=
  if polled s.ticket then
    let after := (s.mirrorAll sha1 answer now (s.fresh answer)).applyDevinEvent sha1 answer.lastEvent now
    { after with delivered := s.delivered ++ answer.devinMessages.map DevinMessage.eventId }
  else s

def inbound (ev : DevinEvent) (now : Nat) : Mirror :=
  { s.applyDevinEvent sha1 ev now with delivered := s.delivered ++ ev.sent.toList }

def step : MirrorEvent → Mirror
  | .poll answer now => s.poll sha1 answer now
  | .inbound ev now => s.inbound sha1 ev now

end

/-- How many comments mirror the message with an id. -/
def mirrored (s : Mirror) (id : String) : Nat := s.comments.countP fun c => c.messageId = some id

/-- Each message that came has one comment. -/
def Exact (s : Mirror) : Prop := ∀ id ∈ s.delivered, s.mirrored id = 1

/-- A message came before exactly if it leaves no comment now, because its id is remembered or its text is blank. -/
def Knows (s : Mirror) (id : String) (text : Text) : Prop :=
  id ∈ s.delivered ↔ id ∈ s.ticket.devin.seenMessageIds ∨ text = []

/-- Among the ids that are remembered are those of all messages that come again, and of none that comes for the first
time, and no message is blank that does. -/
def Remembers (s : Mirror) : MirrorEvent → Prop
  | .poll answer _ => polled s.ticket → ∀ m ∈ answer.devinMessages, s.Knows m.eventId (m.event answer).text
  | .inbound ev _ => ∀ id ∈ ev.sent, s.Knows id ev.text

def start (ticket : Ticket) : Mirror := ⟨ticket, [], []⟩

end Mirror

end OtterWorks.Tickets
