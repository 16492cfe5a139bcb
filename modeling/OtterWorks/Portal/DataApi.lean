import OtterWorks.Lib.Text
import OtterWorks.Lib.Retry
import OtterWorks.Lib.Upsert

namespace OtterWorks.Portal.DataApi

/-- One exception of a chain of causes. -/
structure Throwable where
  simpleName : String
  message : Option String := none
  deriving DecidableEq, Repr

/-- An exception and its causes. -/
abbrev Thrown := List Throwable

def Throwable.isResuming (e : Throwable) : Bool := e.simpleName = "DatabaseResumingException"

def Throwable.mentions (e : Throwable) (words : String) : Bool := e.message.any fun m => decide (words.toList <:+: m.toList)

def Throwable.mentionsLower (e : Throwable) (words : String) : Bool :=
  e.message.any fun m => decide (words.toList <:+: lower m.toList)

/-- The error of a broken connection; it may come after the statement took effect. -/
structure LinkFailure where
  thrown : Thrown
  link : (thrown.any fun e => e.mentionsLower "communications link failure") = true
  other : (thrown.any Throwable.isResuming) = false

inductive ApiAnswer
  | succeeded
  | failedBefore (e : Thrown)
  | linkFailed (e : LinkFailure)

/-- One call of `executeStatement`, and what the sleep after it would be. -/
structure ApiCall where
  answer : ApiAnswer
  took : Nat := 0
  late : Nat := 0
  interrupted : Bool := false

def ApiCall.attempt (call : ApiCall) : Attempt Thrown where
  answer :=
    match call.answer with
    | .succeeded => .succeeded
    | .failedBefore e => .failed e false
    | .linkFailed e => .failed e.thrown true
  took := call.took
  late := call.late
  interrupted := call.interrupted

/-- A table with a serial key. -/
structure SerialTable (β : Type) where
  rows : List (Nat × β)
  next : Nat
  drawn : ∀ row ∈ rows, row.1 < next
  distinct : (rows.map Prod.fst).Nodup

/-- `INSERT .. RETURNING id` -/
def SerialTable.insert {β : Type} (t : SerialTable β) (b : β) : SerialTable β where
  rows := t.rows ++ [(t.next, b)]
  next := t.next + 1
  drawn := by
    intro row member
    rcases List.mem_append.mp member with old | new
    · exact Nat.lt_succ_of_lt (t.drawn row old)
    · rw [List.mem_singleton.mp new]
      exact Nat.lt_succ_self _
  distinct := by
    rw [List.map_append]
    refine List.nodup_append.mpr ⟨t.distinct, by simp, ?_⟩
    intro key member key' new same
    obtain ⟨row, old, rfl⟩ := List.mem_map.mp member
    have lt := t.drawn row old
    have next : key' = t.next := by simpa using new
    omega

/-- `UPDATE .. WHERE id = :id` -/
def SerialTable.update {β : Type} (t : SerialTable β) (id : Nat) (b : β) : SerialTable β where
  rows := t.rows.map fun row => if row.1 = id then (row.1, b) else row
  next := t.next
  drawn := by
    intro row member
    obtain ⟨old, held, rfl⟩ := List.mem_map.mp member
    split
    · exact t.drawn old held
    · exact t.drawn old held
  distinct := by
    have keys : (t.rows.map fun row => if row.1 = id then (row.1, b) else row).map Prod.fst = t.rows.map Prod.fst :=
      map_updated fun row _ _ => rfl
    rw [keys]
    exact t.distinct

structure Feedback where
  id : Option Nat
  userId : String
  rating : Int
  message : String
  createdAt : Int
  deriving DecidableEq, Repr

/-- The row of a feedback; times are in nanoseconds, a column of type `timestamp` holds microseconds. -/
structure FeedbackRow where
  createdAt : Int
  message : String
  rating : Int
  userId : String
  deriving DecidableEq, Repr

namespace FeedbackRepository

def retryWindowNanos : Nat := 20000000000

structure Delay where
  millis : Nat
  pos : 0 < millis

def isRetryable (thrown : Thrown) : Bool :=
  thrown.any fun e => e.isResuming || e.mentionsLower "communications link failure"

/-- The `catch` of `retry`. -/
def policy : RetryPolicy Delay Thrown := fun delay elapsed thrown =>
  if isRetryable thrown = false ∨ retryWindowNanos ≤ elapsed then none
  else some (min (retryWindowNanos - elapsed) (delay.millis * 1000000),
    ⟨min (delay.millis * 2) 3000, by have := delay.pos; omega⟩)

def firstDelay : Delay := ⟨250, by decide⟩

def row (feedback : Feedback) : FeedbackRow where
  createdAt := feedback.createdAt.fdiv 1000
  message := feedback.message
  rating := feedback.rating
  userId := feedback.userId

def write (feedback : Feedback) (t : SerialTable FeedbackRow) : Feedback × SerialTable FeedbackRow :=
  ({ feedback with id := some t.next }, t.insert (row feedback))

def save (calls : Nat → ApiCall) (feedback : Feedback) (fuel : Nat) (t : SerialTable FeedbackRow) :
    Option (Retried Feedback Thrown (SerialTable FeedbackRow)) :=
  retry policy (write feedback) (fun k => (calls k).attempt) fuel 0 firstDelay 0 t

end FeedbackRepository

structure UserPreference where
  userId : String
  theme : String
  locale : String
  emailNotifications : Bool
  deriving DecidableEq, Repr

/-- The preferences, with `user_id` as their key. -/
structure PreferenceTable where
  rows : List UserPreference
  keyed : (rows.map UserPreference.userId).Nodup

namespace PreferenceRepository

def maxAttempts : Nat := 5

def retryDelayMillis : Nat := 5000

def isRetryable (thrown : Thrown) : Bool :=
  thrown.any fun e => e.isResuming || e.mentions "is not available" || e.mentions "Communications link failure"

/-- The `catch` of `execute`; the state is the number of the attempt, from one on. -/
def policy : RetryPolicy Nat Thrown := fun attempt _ thrown =>
  if maxAttempts ≤ attempt ∨ isRetryable thrown = false then none else some (retryDelayMillis * 1000000, attempt + 1)

/-- `INSERT .. ON CONFLICT (user_id) DO UPDATE` -/
def put (preference : UserPreference) (t : PreferenceTable) : PreferenceTable where
  rows := upsert (fun r => r.userId = preference.userId) (fun r => { preference with userId := r.userId }) preference t.rows
  keyed := by
    by_cases held : t.rows.any (fun r => r.userId = preference.userId) = true
    · have keys : (t.rows.map fun r => if (decide (r.userId = preference.userId)) = true then
          { preference with userId := r.userId } else r).map UserPreference.userId = t.rows.map UserPreference.userId :=
        map_updated fun r _ _ => rfl
      rw [upsert_conflict held, keys]
      exact t.keyed
    · have fresh : t.rows.any (fun r => r.userId = preference.userId) = false := by simpa using held
      rw [upsert_new fresh, List.map_append]
      refine List.nodup_append.mpr ⟨t.keyed, by simp, ?_⟩
      intro user member user' new same
      obtain ⟨r, old, rfl⟩ := List.mem_map.mp member
      have other := List.any_eq_false.mp fresh r old
      have own : user' = preference.userId := by simpa using new
      rw [same, own] at other
      simp at other

def write (preference : UserPreference) (t : PreferenceTable) : UserPreference × PreferenceTable :=
  (preference, put preference t)

def save (calls : Nat → ApiCall) (preference : UserPreference) (fuel : Nat) (t : PreferenceTable) :
    Option (Retried UserPreference Thrown PreferenceTable) :=
  retry policy (write preference) (fun k => (calls k).attempt) fuel 0 1 0 t

end PreferenceRepository

structure Announcement where
  id : Option Nat
  title : String
  body : String
  published : Bool
  createdAt : Int
  deriving DecidableEq, Repr

structure AnnouncementRow where
  title : String
  body : String
  published : Bool
  createdAt : Int
  deriving DecidableEq, Repr

namespace AnnouncementRepository

def windowNanos : Nat := 20000000000

/-- The `catch` of `execute`, which takes the exception itself and not its causes; the state counts the sleeps. -/
def policy : RetryPolicy Nat Thrown := fun attempt elapsed thrown =>
  if (thrown.head?.any Throwable.isResuming) = false ∨ windowNanos ≤ elapsed then none
  else some (min (500 * (attempt + 1)) 3000 * 1000000, attempt + 1)

def row (announcement : Announcement) : AnnouncementRow where
  title := announcement.title
  body := announcement.body
  published := announcement.published
  createdAt := announcement.createdAt.fdiv 1000

/-- What the statement of `save` does and what `save` makes of its answer. -/
def write (announcement : Announcement) (t : SerialTable AnnouncementRow) : Announcement × SerialTable AnnouncementRow :=
  match announcement.id with
  | none =>
    ({ announcement with id := some t.next, createdAt := (row announcement).createdAt * 1000 }, t.insert (row announcement))
  | some id => (announcement, t.update id (row announcement))

def save (calls : Nat → ApiCall) (announcement : Announcement) (fuel : Nat) (t : SerialTable AnnouncementRow) :
    Option (Retried Announcement Thrown (SerialTable AnnouncementRow)) :=
  retry policy (write announcement) (fun k => (calls k).attempt) fuel 0 0 0 t

end AnnouncementRepository

end OtterWorks.Portal.DataApi
