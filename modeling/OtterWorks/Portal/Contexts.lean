import OtterWorks.Lib.JavaText
import OtterWorks.Lib.KeyMap

namespace OtterWorks.Portal

/-- What the JSON binding makes of a body: nothing, the null reference, or a request. -/
inductive Bound (α : Type)
  | unreadable
  | null
  | value (request : α)
  deriving DecidableEq, Repr

structure CreateAnnouncementRequest where
  title : Option Utf16
  body : Option Utf16
  published : Bool
  deriving DecidableEq, Repr

structure UpdateRequest where
  theme : Option Utf16
  locale : Option Utf16
  emailNotifications : Bool
  deriving DecidableEq, Repr

structure SubmitRequest where
  userId : Option Utf16
  rating : Int
  message : Option Utf16
  deriving DecidableEq, Repr

/-- The JSON library that both sides bind a body with. -/
structure ObjectMapper (β : Type) where
  announcement : β → Bound CreateAnnouncementRequest
  preference : β → Bound UpdateRequest
  feedback : β → Bound SubmitRequest

structure Announcement where
  title : Option Utf16
  body : Option Utf16
  published : Bool
  deriving DecidableEq, Repr

structure UserPreference where
  theme : Option Utf16
  locale : Option Utf16
  emailNotifications : Bool
  deriving DecidableEq, Repr

structure Feedback where
  userId : Option Utf16
  rating : Int
  message : Option Utf16
  deriving DecidableEq, Repr

/-- The tables of the three contexts. An announcement's id is its place, from one on; a preference is kept under its
user id. -/
structure Rows where
  announcements : List Announcement
  preferences : KeyMap Utf16 UserPreference
  feedback : List Feedback

inductive Method
  | get
  | post
  | put
  deriving DecidableEq, Repr

inductive Path
  | announcements
  | announcement (id : Int)
  | publish (id : Int)
  | preference (userId : Utf16)
  | feedback
  | averageRating
  deriving DecidableEq, Repr

/-- A request with a JSON body; `userId` is the parameter of its query. -/
structure Request (β : Type) where
  method : Method
  path : Path
  accept : Option Utf16
  userId : Option Utf16
  body : β

inductive Answer
  | status (code : Nat)
  | raised
  deriving DecidableEq, Repr

namespace AnnouncementService

def findById (s : Rows) (id : Int) : Option Announcement :=
  if 0 < id then s.announcements[id.toNat - 1]? else none

def create (s : Rows) (title body : Option Utf16) (published : Bool) : Rows :=
  { s with announcements := s.announcements ++ [⟨title, body, published⟩] }

/-- The rows after a publication, if there is such an announcement. -/
def publish (s : Rows) (id : Int) : Option Rows :=
  (findById s id).map fun a =>
    { s with announcements := s.announcements.set (id.toNat - 1) { a with published := true } }

theorem create_ne (s : Rows) (title body : Option Utf16) (published : Bool) : create s title body published ≠ s := by
  intro same
  have lengths := congrArg (fun s : Rows => s.announcements.length) same
  simp only [create, List.length_append, List.length_cons, List.length_nil] at lengths
  omega

/-- A publication changes no row if there is no such announcement or it is published already. -/
theorem publish_idle_iff (s : Rows) (id : Int) :
    (publish s id).getD s = s ↔ ∀ a ∈ findById s id, a.published = true := by
  rw [publish]
  cases held : findById s id with
  | none => simp
  | some a =>
    have positive : 0 < id := by
      by_contra below
      rw [findById, if_neg below] at held
      cases held
    have row : s.announcements[id.toNat - 1]? = some a := by
      rw [findById, if_pos positive] at held
      exact held
    obtain ⟨bound, _⟩ := List.getElem?_eq_some_iff.mp row
    constructor
    · intro same b hb
      cases Option.some.inj hb
      have entry := congrArg (fun s : Rows => s.announcements[id.toNat - 1]?) same
      simp only [Option.map_some, Option.getD_some, List.getElem?_set_self bound, row] at entry
      rw [← Option.some.inj entry]
    · intro published
      have kept : { a with published := true } = a := by
        rw [← published a rfl]
      have rows : s.announcements.set (id.toNat - 1) a = s.announcements := by
        apply List.ext_getElem?
        intro n
        rw [List.getElem?_set]
        split
        next same => rw [← same, row]
        next => rfl
      simp only [Option.map_some, Option.getD_some, kept, rows]

end AnnouncementService

end OtterWorks.Portal
