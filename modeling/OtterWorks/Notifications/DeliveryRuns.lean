import Mathlib.Data.List.Nodup
import OtterWorks.Lib.Transition
import OtterWorks.Notifications.Service

namespace OtterWorks.Notifications

/-- `deliveredVia` lists exactly these channels, each once. -/
def Lists (deliveredVia : List String) (delivered : DeliveryChannel → Bool) : Prop :=
  deliveredVia.Nodup ∧ ∀ text, text ∈ deliveredVia ↔ ∃ channel, delivered channel = true ∧ channel.text = text

/-- What the table owes to its users. -/
structure Faithful (s : State) : Prop where
  read : ∀ id ∈ s.marked, ∀ row, s.table id = some row → row.read = true
  gone : ∀ id ∈ s.removed, s.table id = none
  listed : ∀ w n row, s.stage w = .returned (some n) → s.table n.id = some row → Lists row.deliveredVia (s.delivered w)

/-- A second save stores a notification that has not been marked or removed since the first one. -/
def Undisturbed (s : State) : Event → Prop
  | .saveAgain w ending => ending ≠ .failed → ∀ n, s.stage w = .saveAgain n → n.id ∉ s.marked ∧ n.id ∉ s.removed
  | _ => True

/-- The channels in the order in which `processEvent` notes them. -/
def viaOf (delivered : DeliveryChannel → Bool) : List String :=
  ([DeliveryChannel.inApp, .email, .push].filter delivered).map DeliveryChannel.text

theorem text_injective : Function.Injective DeliveryChannel.text := by
  intro a b same
  cases a <;> cases b <;> first | rfl | exact absurd same (by decide)

theorem lists_viaOf (delivered : DeliveryChannel → Bool) : Lists (viaOf delivered) delivered := by
  have distinct : [DeliveryChannel.inApp, .email, .push].Nodup := by decide
  refine ⟨(distinct.filter delivered).map text_injective, ?_⟩
  intro text
  have all (channel : DeliveryChannel) : channel ∈ [DeliveryChannel.inApp, .email, .push] := by
    cases channel <;> decide
  simp only [viaOf, List.mem_map, List.mem_filter, all, true_and]

/-- The copy that a call of `processEvent` has stored or is about to store again. -/
def Stage.notification : Stage → Option Notification
  | .push n => some n
  | .saveAgain n => some n
  | .returned n => n
  | _ => none

/-- The row still shows the channels of the copy. -/
def Recorded (table : String → Option Notification) (n : Notification) : Prop :=
  ∀ row, table n.id = some row → row.deliveredVia = n.deliveredVia

/-- What a call knows of its deliveries at each stage. -/
def Told (table : String → Option Notification) (delivered : DeliveryChannel → Bool) : Stage → Prop
  | .idle => ∀ channel, delivered channel = false
  | .preferences _ => ∀ channel, delivered channel = false
  | .email _ channels deliveredVia => deliveredVia = State.inAppText channels ∧ ∀ channel, delivered channel = false
  | .save _ channels deliveredVia => delivered .inApp = false ∧ delivered .push = false ∧
      deliveredVia = State.inAppText channels ++ if delivered .email then ["email"] else []
  | .push n => delivered .push = false ∧ n.deliveredVia = viaOf delivered ∧ Recorded table n
  | .saveAgain n => n.deliveredVia = viaOf delivered
  | .returned (some n) => n.deliveredVia = viaOf delivered ∧ Recorded table n
  | .returned none => True
  | .thrown => True

structure Consistent (s : State) : Prop where
  rows : ∀ id row, s.table id = some row → row.id = id ∧ s.issued id = true
  marked : ∀ id ∈ s.marked, s.issued id = true
  removed : ∀ id ∈ s.removed, s.issued id = true
  told : ∀ w, Told s.table (s.delivered w) (s.stage w)
  owned : ∀ w n, (s.stage w).notification = some n → n.read = false ∧ s.issued n.id = true
  apart : ∀ w w' n n', (s.stage w).notification = some n → (s.stage w').notification = some n' → n.id = n'.id → w = w'

section

variable {s : State} {w : Nat} {id : String} {n : Notification} {table : String → Option Notification}
  {delivered : DeliveryChannel → Bool} {stage : Stage}

/-- What a call knows depends on the table only through the row of its own copy. -/
theorem Told.over_table {table' : String → Option Notification} (told : Told table delivered stage)
    (kept : ∀ n, stage.notification = some n → ∀ row', table' n.id = some row' →
      ∃ row, table n.id = some row ∧ row.deliveredVia = row'.deliveredVia) : Told table' delivered stage := by
  have recorded (n : Notification) (own : stage.notification = some n) (before : Recorded table n) : Recorded table' n := by
    intro row' held
    obtain ⟨row, old, same⟩ := kept n own row' held
    rw [← same]
    exact before row old
  cases stage with
  | push n => exact ⟨told.1, told.2.1, recorded n rfl told.2.2⟩
  | returned n =>
    cases n with
    | none => trivial
    | some n => exact ⟨told.1, recorded n rfl told.2⟩
  | _ => exact told

/-- A call moves on: it keeps its copy, or takes one under an id that is its own. -/
theorem Consistent.move (ok : Consistent s) (w : Nat) (told : Told s.table delivered stage)
    (held : ∀ n, stage.notification = some n → n.read = false ∧ s.issued n.id = true ∧
      ∀ w' m, w' ≠ w → (s.stage w').notification = some m → m.id ≠ n.id) :
    Consistent { s with stage := Function.update s.stage w stage, delivered := Function.update s.delivered w delivered } := by
  refine ⟨ok.rows, ok.marked, ok.removed, ?_, ?_, ?_⟩
  · intro v
    dsimp only
    by_cases here : v = w
    · rw [here, Function.update_self, Function.update_self]
      exact told
    · rw [Function.update_of_ne here, Function.update_of_ne here]
      exact ok.told v
  · intro v m own
    dsimp only at own ⊢
    by_cases here : v = w
    · rw [here, Function.update_self] at own
      exact ⟨(held m own).1, (held m own).2.1⟩
    · rw [Function.update_of_ne here] at own
      exact ok.owned v m own
  · intro v v' m m' own own' same
    dsimp only at own own'
    by_cases here : v = w
    · by_cases there : v' = w
      · rw [here, there]
      · rw [here, Function.update_self] at own
        rw [Function.update_of_ne there] at own'
        exact absurd same.symm ((held m own).2.2 v' m' there own')
    · rw [Function.update_of_ne here] at own
      by_cases there : v' = w
      · rw [there, Function.update_self] at own'
        exact absurd same ((held m' own').2.2 v m here own)
      · rw [Function.update_of_ne there] at own'
        exact ok.apart v v' m m' own own' same

theorem Consistent.enter (ok : Consistent s) (w : Nat) (told : Told s.table (s.delivered w) stage)
    (held : ∀ n, stage.notification = some n → n.read = false ∧ s.issued n.id = true ∧
      ∀ w' m, w' ≠ w → (s.stage w').notification = some m → m.id ≠ n.id) : Consistent (s.enter w stage) := by
  have moved := ok.move w told held
  rw [Function.update_eq_self] at moved
  exact moved

/-- Rows change or go, but none appears and none changes its id or its channels. -/
theorem Consistent.rewrite (ok : Consistent s) {marked removed : List String} (pending : Nat → List String)
    (kept : ∀ id row', table id = some row' →
      ∃ row, s.table id = some row ∧ row.id = row'.id ∧ row.deliveredVia = row'.deliveredVia)
    (marks : ∀ id ∈ marked, s.issued id = true) (removals : ∀ id ∈ removed, s.issued id = true) :
    Consistent { s with table := table, pending := pending, marked := marked, removed := removed } := by
  refine ⟨?_, marks, removals, ?_, ok.owned, ok.apart⟩
  · intro id row' held
    obtain ⟨row, old, same, _⟩ := kept id row' held
    rw [← same]
    exact ok.rows id row old
  · intro w
    refine (ok.told w).over_table ?_
    intro n _ row' held
    obtain ⟨row, old, _, same⟩ := kept n.id row' held
    exact ⟨row, old, same⟩

theorem Consistent.issue (ok : Consistent s) (id : String) : Consistent (s.issue id) := by
  have more (i : String) (old : s.issued i = true) : (s.issue id).issued i = true := by
    unfold State.issue
    by_cases same : i = id
    · simp [same]
    · simp [same, old]
  refine ⟨?_, ?_, ?_, ok.told, ?_, ok.apart⟩
  · intro i row held
    exact ⟨(ok.rows i row held).1, more i (ok.rows i row held).2⟩
  · intro i member
    exact more i (ok.marked i member)
  · intro i member
    exact more i (ok.removed i member)
  · intro v m own
    exact ⟨(ok.owned v m own).1, more _ (ok.owned v m own).2⟩

/-- A put changes what the calls know only where one holds a copy of that id. -/
theorem Consistent.put (ok : Consistent s) (drawn : s.issued n.id = true)
    (own : ∀ w m, (s.stage w).notification = some m → m.id = n.id → Told (s.put n).table (s.delivered w) (s.stage w)) :
    Consistent (s.put n) := by
  refine ⟨?_, ok.marked, ok.removed, ?_, ok.owned, ok.apart⟩
  · intro id row held
    unfold State.put at held
    dsimp only at held
    by_cases same : id = n.id
    · subst same
      rw [Function.update_self] at held
      cases Option.some.inj held
      exact ⟨rfl, drawn⟩
    · rw [Function.update_of_ne same] at held
      exact ok.rows id row held
  · intro w
    show Told (s.put n).table (s.delivered w) (s.stage w)
    cases copy : (s.stage w).notification with
    | none =>
      refine (ok.told w).over_table ?_
      intro m held
      rw [copy] at held
      cases held
    | some m =>
      by_cases same : m.id = n.id
      · exact own w m copy same
      · refine (ok.told w).over_table ?_
        intro m' held row' there
        rw [copy] at held
        cases Option.some.inj held
        refine ⟨row', ?_, rfl⟩
        unfold State.put at there
        dsimp only at there
        rwa [Function.update_of_ne same] at there

/-- A stage without a copy asks nothing of the other calls. -/
theorem no_copy {w : Nat} (none' : stage.notification = none) : ∀ n, stage.notification = some n →
    n.read = false ∧ s.issued n.id = true ∧ ∀ w' m, w' ≠ w → (s.stage w').notification = some m → m.id ≠ n.id := by
  intro n own
  rw [none'] at own
  cases own

/-- A call that keeps its copy stays apart from the others. -/
theorem Consistent.same_copy (ok : Consistent s) {old : Notification} (own : (s.stage w).notification = some old)
    (id : n.id = old.id) (unread : n.read = old.read) (copy : stage.notification = some n) : ∀ n, stage.notification = some n →
    n.read = false ∧ s.issued n.id = true ∧ ∀ w' m, w' ≠ w → (s.stage w').notification = some m → m.id ≠ n.id := by
  intro m held
  rw [copy] at held
  cases Option.some.inj held
  have mine := ok.owned w old own
  refine ⟨by rw [unread]; exact mine.1, by rw [id]; exact mine.2, ?_⟩
  intro w' m other own' same
  exact other (ok.apart w' w m old own' own (same.trans id))

theorem viaOf_of_stored {channels : List DeliveryChannel} (inApp : delivered .inApp = false) (push : delivered .push = false) :
    State.inAppText channels ++ (if delivered .email then ["email"] else []) =
      viaOf (if .inApp ∈ channels then Function.update delivered .inApp true else delivered) := by
  by_cases shown : DeliveryChannel.inApp ∈ channels
  · cases sent : delivered .email <;> simp [State.inAppText, viaOf, shown, push, sent, DeliveryChannel.text]
  · cases sent : delivered .email <;> simp [State.inAppText, viaOf, shown, inApp, push, sent, DeliveryChannel.text]

theorem viaOf_push (push : delivered .push = false) :
    viaOf delivered ++ ["push"] = viaOf (Function.update delivered .push true) := by
  cases shown : delivered .inApp <;> cases sent : delivered .email <;>
    simp [viaOf, shown, sent, push, DeliveryChannel.text]

theorem consistent_choose (ok : Consistent s) (event : SqsNotificationMessage) (preferences : Channels)
    (none' : ∀ channel, s.delivered w channel = false) : Consistent (s.choose w event preferences) := by
  unfold State.choose
  dsimp only
  split
  · exact ok.enter w ⟨rfl, none'⟩ (no_copy rfl)
  · refine ok.enter w ⟨none' .inApp, none' .push, ?_⟩ (no_copy rfl)
    rw [none' .email]
    exact (List.append_nil _).symm

theorem consistent_saveNotification (ok : Consistent s) (w : Nat) (id createdAt : String) (ending : Ending) :
    Consistent (s.saveNotification w id createdAt ending) := by
  unfold State.saveNotification
  split
  next event channels deliveredVia stage =>
    split
    · exact ok
    next fresh =>
      have told := ok.told w
      rw [stage] at told
      obtain ⟨inApp, push, via⟩ := told
      let copy := event.notification id createdAt deliveredVia
      have drawn : (s.issue id).issued id = true := Function.update_self ..
      have mine (v : Nat) (m : Notification) (own : (s.stage v).notification = some m) : m.id ≠ id := by
        intro same
        have issued := (ok.owned v m own).2
        rw [same] at issued
        exact fresh issued
      have put : Consistent ((s.issue id).put copy) :=
        (ok.issue id).put drawn fun v m own same => absurd same (mine v m own)
      have told' : Recorded ((s.issue id).put copy).table copy := by
        intro row held
        unfold State.put at held
        dsimp only at held
        rw [Function.update_self] at held
        rw [← Option.some.inj held]
      have stored (st : Stage) : ((s.issue id).stored w channels copy).enter w st = { (s.issue id).put copy with
          stage := Function.update s.stage w st
          delivered := Function.update s.delivered w
            (if .inApp ∈ channels then Function.update (s.delivered w) .inApp true else s.delivered w) } := by
        unfold State.stored
        dsimp only
        split
        · rfl
        · rw [Function.update_eq_self]
          rfl
      have shown := @viaOf_of_stored (s.delivered w) channels inApp push
      have later : (if .inApp ∈ channels then Function.update (s.delivered w) .inApp true else s.delivered w) .push =
          false := by
        split
        · rw [Function.update_of_ne (by decide)]
          exact push
        · exact push
      have held (st : Stage) (here : st.notification = some copy) : ∀ n, st.notification = some n → n.read = false ∧
          ((s.issue id).put copy).issued n.id = true ∧ ∀ w' m, w' ≠ w →
            (((s.issue id).put copy).stage w').notification = some m → m.id ≠ n.id := by
        intro n own
        rw [here] at own
        cases Option.some.inj own
        exact ⟨rfl, drawn, fun v m _ own' => mine v m own'⟩
      cases ending with
      | answered =>
        dsimp only
        rw [stored]
        split
        · exact put.move w ⟨later, via.trans shown, told'⟩ (held _ rfl)
        · exact put.move w ⟨via.trans shown, told'⟩ (held _ rfl)
      | lost =>
        dsimp only
        rw [stored]
        exact put.move w trivial (no_copy rfl)
      | failed => exact (ok.issue id).enter w trivial (no_copy rfl)
  next => exact ok

theorem consistent_saveAgain (ok : Consistent s) (w : Nat) (ending : Ending) : Consistent (s.saveAgain w ending) := by
  unfold State.saveAgain
  split
  next copy stage =>
    have own : (s.stage w).notification = some copy := by rw [stage]; rfl
    have told := ok.told w
    rw [stage] at told
    have put : Consistent (s.put copy) := by
      refine ok.put (ok.owned w copy own).2 ?_
      intro v m own' same
      have here : v = w := ok.apart v w m copy own' own same
      rw [here, stage]
      exact told
    cases ending with
    | answered =>
      refine put.enter w ⟨told, ?_⟩ (put.same_copy own rfl rfl rfl)
      intro row held
      unfold State.put at held
      dsimp only at held
      rw [Function.update_self] at held
      rw [← Option.some.inj held]
    | lost => exact put.enter w trivial (no_copy rfl)
    | failed => exact ok.enter w trivial (no_copy rfl)
  next => exact ok

theorem consistent_pushNotification (ok : Consistent s) (w pushCount : Nat) :
    Consistent (s.pushNotification w pushCount) := by
  unfold State.pushNotification
  split
  next copy stage =>
    have own : (s.stage w).notification = some copy := by rw [stage]; rfl
    have told := ok.told w
    rw [stage] at told
    obtain ⟨push, via, recorded⟩ := told
    split
    · let again : Notification := { copy with deliveredVia := copy.deliveredVia ++ ["push"] }
      have noted : again.deliveredVia = viaOf (Function.update (s.delivered w) .push true) := by
        rw [← viaOf_push push, ← via]
      refine ok.move w ?_ (ok.same_copy (n := again) own rfl rfl rfl)
      exact noted
    · exact ok.enter w ⟨via, recorded⟩ (ok.same_copy own rfl rfl rfl)
  next => exact ok

theorem consistent_markAsRead (ok : Consistent s) (pending : Nat → List String) (id : String) (ending : Ending) :
    Consistent ({ s with pending := pending }.markAsRead id ending) := by
  have still (pending : Nat → List String) : Consistent { s with pending := pending } :=
    ok.rewrite pending (fun _ row held => ⟨row, held, rfl, rfl⟩) ok.marked ok.removed
  unfold State.markAsRead
  split
  · exact still pending
  next row here =>
    have kept : ∀ i row', Function.update s.table id (some { row with read := true }) i = some row' →
        ∃ old, s.table i = some old ∧ old.id = row'.id ∧ old.deliveredVia = row'.deliveredVia := by
      intro i row' held
      by_cases same : i = id
      · subst same
        rw [Function.update_self] at held
        cases Option.some.inj held
        exact ⟨row, here, rfl, rfl⟩
      · rw [Function.update_of_ne same] at held
        exact ⟨row', held, rfl, rfl⟩
    cases ending with
    | answered =>
      refine ok.rewrite pending kept ?_ ok.removed
      intro i member
      rcases List.mem_cons.mp member with same | old
      · rw [same]
        exact (ok.rows id row here).2
      · exact ok.marked i old
    | lost => exact ok.rewrite pending kept ok.marked ok.removed
    | failed => exact still pending

theorem consistent_deleteNotification (ok : Consistent s) (id : String) (ending : Ending) :
    Consistent (s.deleteNotification id ending) := by
  have erased : Consistent { s with
      table := Function.update s.table id none
      removed := if (s.table id).isSome then id :: s.removed else s.removed } := by
    refine ok.rewrite s.pending ?_ ok.marked ?_
    · intro i row held
      by_cases same : i = id
      · subst same
        rw [Function.update_self] at held
        cases held
      · rw [Function.update_of_ne same] at held
        exact ⟨row, held, rfl, rfl⟩
    · intro i member
      split at member
      next there =>
        rcases List.mem_cons.mp member with same | old
        · obtain ⟨row, here⟩ := Option.isSome_iff_exists.mp there
          rw [same]
          exact (ok.rows id row here).2
        · exact ok.removed i old
      next => exact ok.removed i member
  cases ending with
  | answered => exact erased
  | lost => exact erased
  | failed => exact ok

theorem consistent_step (ok : Consistent s) (e : Event) : Consistent (s.step e) := by
  cases e with
  | processEvent w event =>
    show Consistent (s.processEvent w event)
    unfold State.processEvent
    split
    next stage =>
      have told := ok.told w
      rw [stage] at told
      split
      · exact ok.enter w trivial (no_copy rfl)
      · exact ok.enter w told (no_copy rfl)
    next => exact ok
  | getPreferences w answer =>
    show Consistent (s.getPreferences w answer)
    unfold State.getPreferences
    split
    next event stage =>
      have told := ok.told w
      rw [stage] at told
      cases answer with
      | throws => exact ok.enter w trivial (no_copy rfl)
      | missing => exact consistent_choose ok event _ told
      | stored preferences => exact consistent_choose ok event preferences told
    next => exact ok
  | sendEmail w sent =>
    show Consistent (s.sendEmail w sent)
    unfold State.sendEmail
    split
    next event channels deliveredVia stage =>
      have told := ok.told w
      rw [stage] at told
      obtain ⟨via, none'⟩ := told
      split
      · refine ok.move w ⟨?_, ?_, ?_⟩ (no_copy rfl)
        · rw [Function.update_of_ne (by decide)]
          exact none' .inApp
        · rw [Function.update_of_ne (by decide)]
          exact none' .push
        · rw [Function.update_self, via]
          rfl
      · refine ok.enter w ⟨none' .inApp, none' .push, ?_⟩ (no_copy rfl)
        rw [none' .email, via]
        exact (List.append_nil _).symm
    next => exact ok
  | saveNotification w id createdAt ending => exact consistent_saveNotification ok w id createdAt ending
  | pushNotification w pushCount => exact consistent_pushNotification ok w pushCount
  | saveAgain w ending => exact consistent_saveAgain ok w ending
  | markAsRead id ending => exact consistent_markAsRead ok s.pending id ending
  | markAllAsRead k listed => exact ok.rewrite _ (fun _ row held => ⟨row, held, rfl, rfl⟩) ok.marked ok.removed
  | markNext k ending =>
    show Consistent (s.markNext k ending)
    unfold State.markNext
    split
    · exact ok
    next id rest _ => exact consistent_markAsRead ok _ id ending
  | deleteNotification id ending => exact consistent_deleteNotification ok id ending

/-- What marking and deleting has promised. -/
def Kept (s : State) : Prop :=
  (∀ id ∈ s.marked, ∀ row, s.table id = some row → row.read = true) ∧ ∀ id ∈ s.removed, s.table id = none

theorem faithful_iff (ok : Consistent s) : Faithful s ↔ Kept s := by
  constructor
  · intro h
    exact ⟨h.read, h.gone⟩
  · intro h
    refine ⟨h.1, h.2, ?_⟩
    intro w n row stage here
    have told := ok.told w
    rw [stage] at told
    obtain ⟨via, recorded⟩ := told
    rw [recorded row here, via]
    exact lists_viaOf _

/-- A put of an unread copy keeps the promises exactly if there are none about its id. -/
theorem kept_put_iff {t : State} (kept : Kept s) (unread : n.read = false) (table : t.table = (s.put n).table)
    (marked : t.marked = s.marked) (removed : t.removed = s.removed) : Kept t ↔ n.id ∉ s.marked ∧ n.id ∉ s.removed := by
  unfold Kept
  rw [table, marked, removed]
  unfold State.put
  dsimp only
  constructor
  · intro h
    refine ⟨?_, ?_⟩
    · intro member
      have read := h.1 n.id member n (Function.update_self ..)
      rw [unread] at read
      cases read
    · intro member
      have gone := h.2 n.id member
      rw [Function.update_self] at gone
      cases gone
  · intro h
    refine ⟨?_, ?_⟩
    · intro id member row held
      have other : id ≠ n.id := fun same => h.1 (same ▸ member)
      rw [Function.update_of_ne other] at held
      exact kept.1 id member row held
    · intro id member
      have other : id ≠ n.id := fun same => h.2 (same ▸ member)
      rw [Function.update_of_ne other]
      exact kept.2 id member

theorem kept_saveNotification (ok : Consistent s) (kept : Kept s) (w : Nat) (id createdAt : String) (ending : Ending) :
    Kept (s.saveNotification w id createdAt ending) := by
  unfold State.saveNotification
  split
  next event channels deliveredVia stage =>
    split
    · exact kept
    next fresh =>
      have free : id ∉ s.marked ∧ id ∉ s.removed :=
        ⟨fun member => fresh (ok.marked id member), fun member => fresh (ok.removed id member)⟩
      have after (st : Stage) : Kept (((s.issue id).stored w channels (event.notification id createdAt deliveredVia)).enter w
          st) := by
        have shelf (t : State) : (t.stored w channels (event.notification id createdAt deliveredVia)).table =
            (t.put (event.notification id createdAt deliveredVia)).table ∧
            (t.stored w channels (event.notification id createdAt deliveredVia)).marked = t.marked ∧
            (t.stored w channels (event.notification id createdAt deliveredVia)).removed = t.removed := by
          unfold State.stored
          dsimp only
          split <;> exact ⟨rfl, rfl, rfl⟩
        obtain ⟨table, marked, removed⟩ := shelf (s.issue id)
        exact (@kept_put_iff s (event.notification id createdAt deliveredVia) _ kept rfl table marked removed).mpr free
      cases ending with
      | answered => exact after _
      | lost => exact after _
      | failed => exact kept
  next => exact kept

theorem kept_saveAgain_iff (ok : Consistent s) (kept : Kept s) (w : Nat) (ending : Ending) :
    Kept (s.saveAgain w ending) ↔ Undisturbed s (.saveAgain w ending) := by
  unfold State.saveAgain Undisturbed
  split
  next copy stage =>
    have unread : copy.read = false := (ok.owned w copy (by rw [stage]; rfl)).1
    have only : (∀ n, s.stage w = .saveAgain n → n.id ∉ s.marked ∧ n.id ∉ s.removed) ↔
        copy.id ∉ s.marked ∧ copy.id ∉ s.removed := by
      rw [stage]
      constructor
      · intro h
        exact h copy rfl
      · intro h n same
        cases same
        exact h
    dsimp only
    rw [only]
    have put (st : Stage) : Kept ((s.put copy).enter w st) ↔ copy.id ∉ s.marked ∧ copy.id ∉ s.removed :=
      kept_put_iff kept unread rfl rfl rfl
    cases ending with
    | answered => simpa using put _
    | lost => simpa using put _
    | failed =>
      have same : Kept (s.enter w .thrown) := kept
      simp [same]
  next other =>
    refine iff_of_true kept ?_
    intro _ n here
    exact absurd here (other n)

theorem kept_markAsRead (kept : Kept s) (pending : Nat → List String) (id : String) (ending : Ending) :
    Kept ({ s with pending := pending }.markAsRead id ending) := by
  unfold State.markAsRead
  split
  · exact kept
  next row here =>
    dsimp only at here
    have read : ∀ i, (i = id ∨ i ∈ s.marked) → ∀ row', Function.update s.table id (some { row with read := true }) i =
        some row' → row'.read = true := by
      intro i member row' held
      by_cases same : i = id
      · rw [same, Function.update_self] at held
        cases Option.some.inj held
        rfl
      · rw [Function.update_of_ne same] at held
        exact kept.1 i (member.resolve_left same) row' held
    have gone : ∀ i ∈ s.removed, Function.update s.table id (some { row with read := true }) i = none := by
      intro i member
      have absent := kept.2 i member
      have other : i ≠ id := by
        intro same
        rw [same, here] at absent
        cases absent
      rw [Function.update_of_ne other]
      exact absent
    cases ending with
    | answered => exact ⟨fun i member => read i (List.mem_cons.mp member), gone⟩
    | lost => exact ⟨fun i member => read i (Or.inr member), gone⟩
    | failed => exact kept

theorem kept_deleteNotification (kept : Kept s) (id : String) (ending : Ending) :
    Kept (s.deleteNotification id ending) := by
  have erased : Kept { s with
      table := Function.update s.table id none
      removed := if (s.table id).isSome then id :: s.removed else s.removed } := by
    refine ⟨?_, ?_⟩
    · intro i member row held
      dsimp only at held
      by_cases same : i = id
      · rw [same, Function.update_self] at held
        cases held
      · rw [Function.update_of_ne same] at held
        exact kept.1 i member row held
    · intro i member
      by_cases same : i = id
      · rw [same]
        exact Function.update_self ..
      · have old : i ∈ s.removed := by
          split at member
          · exact (List.mem_cons.mp member).resolve_left same
          · exact member
        dsimp only
        rw [Function.update_of_ne same]
        exact kept.2 i old
  cases ending with
  | answered => exact erased
  | lost => exact erased
  | failed => exact kept

/-- The second save is the only step that can break a promise. -/
theorem kept_step_iff (ok : Consistent s) (kept : Kept s) (e : Event) : Kept (s.step e) ↔ Undisturbed s e := by
  cases e with
  | saveAgain w ending => exact kept_saveAgain_iff ok kept w ending
  | saveNotification w id createdAt ending => exact iff_of_true (kept_saveNotification ok kept w id createdAt ending) trivial
  | markAsRead id ending => exact iff_of_true (kept_markAsRead kept s.pending id ending) trivial
  | deleteNotification id ending => exact iff_of_true (kept_deleteNotification kept id ending) trivial
  | markAllAsRead k listed => exact iff_of_true kept trivial
  | markNext k ending =>
    refine iff_of_true ?_ trivial
    show Kept (s.markNext k ending)
    unfold State.markNext
    split
    · exact kept
    next id rest _ => exact kept_markAsRead kept _ id ending
  | processEvent w event =>
    refine iff_of_true ?_ trivial
    show Kept (s.processEvent w event)
    unfold State.processEvent
    repeat' split
    all_goals exact kept
  | getPreferences w answer =>
    refine iff_of_true ?_ trivial
    show Kept (s.getPreferences w answer)
    unfold State.getPreferences State.choose
    dsimp only
    repeat' split
    all_goals exact kept
  | sendEmail w sent =>
    refine iff_of_true ?_ trivial
    show Kept (s.sendEmail w sent)
    unfold State.sendEmail
    repeat' split
    all_goals exact kept
  | pushNotification w pushCount =>
    refine iff_of_true ?_ trivial
    show Kept (s.pushNotification w pushCount)
    unfold State.pushNotification
    repeat' split
    all_goals exact kept

end

theorem consistent_start (rows : List Notification) : Consistent (State.start rows) := by
  refine ⟨?_, by simp [State.start], by simp [State.start], fun _ _ => rfl, ?_, ?_⟩
  · intro id row held
    have here : rows.find? (fun n => n.id = id) = some row := held
    refine ⟨by simpa using List.find?_some here, ?_⟩
    show (rows.find? fun n => n.id = id).isSome = true
    rw [here]
    rfl
  · intro w n own
    cases own
  · intro w w' n n' own
    cases own

theorem consistent_run (rows : List Notification) (events : List Event) :
    Consistent (events.foldl State.step (State.start rows)) := by
  have always := foldl_always_of (fun t e (_ : True) (ok : Consistent t) => consistent_step ok e) (consistent_start rows)
    events (fun _ _ _ => trivial) events.length
  rwa [List.take_length] at always

/-- Through a run, what was marked stays read or deleted, what was deleted stays away, and the channels of what is stored are
those that delivered it, exactly if each second save comes before the user's answer to the push. -/
theorem faithful_iff_undisturbed (rows : List Notification) (events : List Event) :
    (∀ n, Faithful ((events.take n).foldl State.step (State.start rows))) ↔
      ∀ n e, events[n]? = some e → Undisturbed ((events.take n).foldl State.step (State.start rows)) e := by
  have start : Kept (State.start rows) := ⟨by simp [State.start], by simp [State.start]⟩
  have always := foldl_always_iff_with (fun t e (ok : Consistent t) (_ : Kept t) => consistent_step ok e)
    (fun t e ok kept => kept_step_iff ok kept e) (consistent_start rows) events
  have each (n : Nat) : Faithful ((events.take n).foldl State.step (State.start rows)) ↔
      Kept ((events.take n).foldl State.step (State.start rows)) := faithful_iff (consistent_run rows (events.take n))
  constructor
  · intro h
    exact (always.mp fun n => (each n).mp (h n)).2
  · intro h n
    exact (each n).mpr (always.mpr ⟨start, h⟩ n)

/-- The user opens the pushed comment before its second save, which makes it unread again. -/
def openedAtOnce : List Event :=
  [.processEvent 0 { eventType := "comment_added", userId := "ana", documentId := "d1", actorId := "ben" },
    .getPreferences 0 .missing, .saveNotification 0 "n1" "2024-05-01T10:00:00Z" .answered, .pushNotification 0 1,
    .markAsRead "n1" .answered, .saveAgain 0 .answered]

theorem opened_turns_unread :
    (openedAtOnce.foldl State.step (State.start [])).marked = ["n1"] ∧
      ((openedAtOnce.foldl State.step (State.start [])).table "n1").map Notification.read = some false ∧
      ¬ ∀ n, Faithful ((openedAtOnce.take n).foldl State.step (State.start [])) := by
  have marked : (openedAtOnce.foldl State.step (State.start [])).marked = ["n1"] := by decide +kernel
  have unread : ((openedAtOnce.foldl State.step (State.start [])).table "n1").map Notification.read = some false := by
    decide +kernel
  refine ⟨marked, unread, ?_⟩
  intro always
  have faithful := always 6
  obtain ⟨row, here, read⟩ := Option.map_eq_some_iff.mp unread
  have still := faithful.read "n1" (by rw [show openedAtOnce.take 6 = openedAtOnce from rfl, marked]; simp) row here
  rw [read] at still
  cases still

end OtterWorks.Notifications
