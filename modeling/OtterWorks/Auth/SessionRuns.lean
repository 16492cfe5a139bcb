import OtterWorks.Auth.Sessions
import OtterWorks.Lib.Upsert

namespace OtterWorks.Auth

open Relation

namespace Sessions

/-- The token may still be exchanged. -/
def Usable (s : Sessions) (tokenId : Text) : Prop := ∃ r ∈ s.rows, r.tokenId = tokenId ∧ r.revoked = false

/-- What holds between two steps: the rows are the tokens issued, an exchanged one is revoked, and a call that
exchanges a token holds its row, which is not. -/
structure Inv (s : Sessions) : Prop where
  lineage : Lineage s.issued
  rows : s.rows.map TokenRow.tokenId = (s.issued.map Prod.snd).reverse
  used : ∀ r ∈ s.rows, r.tokenId ∈ s.issued.filterMap Prod.fst → r.revoked = true
  held : ∀ (call : Nat) (jti userId : Text), s.calls[call]? = some (.exchanging jti userId) →
    ∃ r ∈ s.rows, r.tokenId = jti ∧ r.holder = some call ∧ r.revoked = false

/-- What a step can do, and for which call. -/
inductive Change (s : Sessions) : Option Nat → Sessions → Prop
  | calls (calls : List Call) (older : ∀ (call : Nat) (jti userId : Text),
      calls[call]? = some (.exchanging jti userId) → s.calls[call]? = some (.exchanging jti userId))
      {call : Option Nat} : Change s call { s with calls := calls }
  | rollback (call : Nat) : Change s (some call) (s.rollback call)
  | acquire (call : Nat) (userId : Text) (r : TokenRow) (row : r ∈ s.rows) (free : r.holder = none)
      (open_ : r.revoked = false) (known : call < s.calls.length) : Change s (some call)
        { s with rows := s.lock call r.tokenId, calls := s.calls.set call (.exchanging r.tokenId userId) }
  | lock (call : Nat) (tokenId : Text) : Change s (some call) { s with rows := s.lock call tokenId }
  | revoke (call : Nat) : Change s (some call) (s.committed call)
  | issue (call : Nat) (parent : Option Text) (userId tokenId : Text) (expiresAt : Nat) (users : List Text)
      (exchanged : ∀ jti, parent = some jti → ∃ userId, s.calls[call]? = some (.exchanging jti userId))
      (fresh : ∀ r ∈ s.rows, r.tokenId ≠ tokenId) : Change s (some call)
        { s.committed call with
          users := users
          rows := s.unlock call true ++ [⟨tokenId, userId, expiresAt, false, none⟩]
          issued := (parent, tokenId) :: s.issued }

variable {s s' : Sessions} {call : Nat} {who : Option Nat} {tokenId jti userId : Text}

theorem change_same : Change s who s := .calls s.calls fun _ _ _ h => h

theorem change_begin (work : Call) (new : ∀ jti userId, work ≠ .exchanging jti userId) : Change s who (s.begin work) := by
  refine .calls _ fun call jti userId h => ?_
  rw [List.getElem?_append] at h
  split at h
  next => exact h
  next =>
    rw [List.getElem?_singleton] at h
    split at h
    next => exact absurd (Option.some.inj h) (new jti userId)
    next => cases h

theorem change_goOn (next : Call) (new : ∀ jti userId, next ≠ .exchanging jti userId) :
    Change s who (s.goOn call next) := by
  refine .calls _ fun other jti userId h => ?_
  rw [List.getElem?_set] at h
  split at h
  next =>
    split at h
    next => exact absurd (Option.some.inj h) (new jti userId)
    next => cases h
  next => exact h

theorem change_issue {parent : Option Text} {expiresAt : Nat} {users : List Text}
    (exchanged : ∀ jti, parent = some jti → ∃ userId, s.calls[call]? = some (.exchanging jti userId)) :
    Change s (some call) (s.issue call parent userId tokenId expiresAt users) := by
  unfold issue
  split
  next => exact .rollback call
  next free =>
    refine .issue call parent userId tokenId expiresAt users exchanged fun r hr same => ?_
    exact free (List.any_eq_true.mpr ⟨r, hr, by simpa using same⟩)

theorem change_commit {expiresAt : Nat} {work : Call} (here : s.calls[call]? = some work) :
    Change s (some call) (s.commit call tokenId expiresAt work) := by
  cases work with
  | register userId =>
    simp only [commit]
    split
    next => exact .rollback call
    next => exact change_issue fun _ h => by cases h
  | login userId => exact change_issue fun _ h => by cases h
  | exchanging jti userId =>
    simp only [commit]
    split
    next =>
      apply change_issue
      intro other same
      cases same
      exact ⟨userId, here⟩
    next => exact .rollback call
  | revoking userId rows =>
    cases rows with
    | none => exact change_same
    | some rows =>
      simp only [commit]
      split
      next => exact .revoke call
      next => exact change_same
  | _ => exact change_same

theorem change_select {work : Call} : Change s (some call) (s.select call work) := by
  cases work with
  | validated jti userId =>
    simp only [select]
    split
    next => exact change_goOn _ fun _ _ h => by cases h
    next => exact .rollback call
  | _ => exact change_same

theorem change_acquire {now : Nat} {work : Call} (here : s.calls[call]? = some work) :
    Change s (some call) (s.acquire call now work) := by
  cases work with
  | finding jti userId =>
    simp only [acquire]
    split
    next => exact .rollback call
    next r found =>
      have row := List.mem_of_find?_eq_some found
      have same : r.tokenId = jti := by simpa using List.find?_some found
      subst same
      split
      next => exact change_same
      next free =>
        split
        next => exact .rollback call
        next open_ =>
          split
          next => exact .rollback call
          next =>
            have known : call < s.calls.length := (List.getElem?_eq_some_iff.mp here).1
            exact .acquire call userId r row (by simpa using free) (by simpa using open_) known
  | _ => exact change_same

theorem change_revokeAll {work : Call} : Change s (some call) (s.revokeAll call work) := by
  cases work with
  | revoking userId rows =>
    cases rows with
    | none => exact change_goOn _ fun _ _ h => by cases h
    | some rows => exact change_same
  | _ => exact change_same

theorem change_lockRow {work : Call} : Change s (some call) (s.lockRow call tokenId work) := by
  cases work with
  | revoking userId rows =>
    cases rows with
    | none => exact change_same
    | some rows =>
      simp only [lockRow]
      split
      next => exact .lock call tokenId
      next => exact change_same
  | _ => exact change_same

/-- Every step is one of the changes. -/
theorem change_step (s : Sessions) (e : SessionEvent) : Change s e.call? (s.step e) := by
  have onCall {call : Nat} {statement : Call → Sessions}
      (each : ∀ work, s.calls[call]? = some work → Change s (some call) (statement work)) :
      Change s (some call) (s.onCall call statement) := by
    unfold Sessions.onCall
    split
    next work here => exact each work here
    next => exact change_same
  cases e with
  | register userId => exact change_begin _ fun _ _ h => by cases h
  | login userId =>
    simp only [step]
    split
    next => exact change_begin _ fun _ _ h => by cases h
    next => exact change_same
  | refreshToken claims =>
    simp only [step]
    split
    next => exact change_begin _ fun _ _ h => by cases h
    next => exact change_same
  | logout userId => exact change_begin _ fun _ _ h => by cases h
  | changePassword userId =>
    simp only [step]
    split
    next => exact change_begin _ fun _ _ h => by cases h
    next => exact change_same
  | select call => exact onCall fun _ _ => change_select
  | acquire call now => exact onCall fun _ here => change_acquire here
  | revokeAll call => exact onCall fun _ _ => change_revokeAll
  | lockRow call tokenId => exact onCall fun _ _ => change_lockRow
  | commit call tokenId expiresAt => exact onCall fun _ here => change_commit here
  | rollback call => exact .rollback call

/-! Failing calls. -/

theorem tokens_lock (s : Sessions) (call : Nat) (tokenId : Text) (calls : List Call) :
    ({ s with rows := s.lock call tokenId, calls := calls } : Sessions).tokens = s.tokens :=
  map_updated fun _ _ _ => rfl

theorem tokens_rollback (s : Sessions) (call : Nat) : (s.rollback call).tokens = s.tokens := by
  unfold tokens rollback unlock
  apply map_updated
  intro r _ _
  rw [Bool.or_false]

/-- Only a call that succeeds changes tokens, and what succeeded stays so. -/
theorem Change.tokens (change : Change s who s') :
    s.succeeded ⊆ s'.succeeded ∧ (s'.tokens = s.tokens ∨ ∃ call, who = some call ∧ call ∈ s'.succeeded) := by
  cases change with
  | calls => exact ⟨List.Subset.refl _, Or.inl rfl⟩
  | rollback call => exact ⟨List.Subset.refl _, Or.inl (tokens_rollback s call)⟩
  | acquire call => exact ⟨List.Subset.refl _, Or.inl (tokens_lock ..)⟩
  | lock call => exact ⟨List.Subset.refl _, Or.inl (tokens_lock s call _ s.calls)⟩
  | revoke call => exact ⟨List.subset_cons_self _ _, Or.inr ⟨call, rfl, List.mem_cons_self ..⟩⟩
  | issue call => exact ⟨List.subset_cons_self _ _, Or.inr ⟨call, rfl, List.mem_cons_self ..⟩⟩

theorem succeeded_foldl (events : List SessionEvent) (s : Sessions) :
    s.succeeded ⊆ (events.foldl step s).succeeded := by
  induction events generalizing s with
  | nil => exact List.Subset.refl _
  | cons e events ih => exact List.Subset.trans (change_step s e).tokens.1 (ih _)

/-! The forest. -/

theorem unlock_ids (s : Sessions) (call : Nat) (revoke : Bool) :
    (s.unlock call revoke).map TokenRow.tokenId = s.rows.map TokenRow.tokenId := map_updated fun _ _ _ => rfl

theorem lock_ids (s : Sessions) (call : Nat) (tokenId : Text) :
    (s.lock call tokenId).map TokenRow.tokenId = s.rows.map TokenRow.tokenId := map_updated fun _ _ _ => rfl

theorem mem_unlock {revoke : Bool} {r : TokenRow} (h : r ∈ s.unlock call revoke) :
    ∃ old ∈ s.rows, r = if old.holder = some call then { old with revoked := old.revoked || revoke, holder := none } else old := by
  obtain ⟨old, member, same⟩ := List.mem_map.mp h
  exact ⟨old, member, same.symm⟩

theorem mem_lock {r : TokenRow} (h : r ∈ s.lock call tokenId) :
    ∃ old ∈ s.rows, r = if old.tokenId = tokenId ∧ old.holder = none then { old with holder := some call } else old := by
  obtain ⟨old, member, same⟩ := List.mem_map.mp h
  exact ⟨old, member, same.symm⟩

/-- No token is issued or revoked, and the rows of exchanges stay with them. -/
theorem Inv.frame (h : Inv s) (issued : s'.issued = s.issued)
    (ids : s'.rows.map TokenRow.tokenId = s.rows.map TokenRow.tokenId)
    (rows : ∀ r ∈ s'.rows, ∃ old ∈ s.rows, r.tokenId = old.tokenId ∧ r.revoked = old.revoked)
    (held : ∀ (call : Nat) (jti userId : Text), s'.calls[call]? = some (.exchanging jti userId) →
      ∃ r ∈ s'.rows, r.tokenId = jti ∧ r.holder = some call ∧ r.revoked = false) : Inv s' := by
  refine ⟨?_, ?_, ?_, held⟩
  · rw [issued]
    exact h.lineage
  · rw [issued, ids]
    exact h.rows
  · intro r hr used
    obtain ⟨old, member, id, revoked⟩ := rows r hr
    rw [issued, id] at used
    rw [revoked]
    exact h.used old member used

/-- A call that goes on lets the rows of the others alone. -/
theorem Inv.others (h : Inv s) {revoke : Bool} {other : Nat} (apart : other ≠ call) {jti userId : Text}
    (exchanging : s.calls[other]? = some (.exchanging jti userId)) :
    ∃ r ∈ s.unlock call revoke, r.tokenId = jti ∧ r.holder = some other ∧ r.revoked = false := by
  obtain ⟨r, member, id, holder, free⟩ := h.held other jti userId exchanging
  refine ⟨r, List.mem_map.mpr ⟨r, member, ?_⟩, id, holder, free⟩
  rw [if_neg]
  rw [holder]
  exact fun same => apart (Option.some.inj same)

theorem exchanging_set {call other : Nat} {calls : List Call} {next : Call} {jti userId : Text}
    (h : (calls.set call next)[other]? = some (.exchanging jti userId)) :
    (other = call ∧ next = .exchanging jti userId) ∨ (other ≠ call ∧ calls[other]? = some (.exchanging jti userId)) := by
  rw [List.getElem?_set] at h
  split at h
  next same =>
    split at h
    next => exact Or.inl ⟨same.symm, Option.some.inj h⟩
    next => cases h
  next apart => exact Or.inr ⟨fun same => apart same.symm, h⟩

theorem Inv.lock (h : Inv s) {calls : List Call}
    (held : ∀ (other : Nat) (jti userId : Text), calls[other]? = some (.exchanging jti userId) →
      s.calls[other]? = some (.exchanging jti userId) ∨
        ∃ r ∈ s.rows, r.tokenId = jti ∧ jti = tokenId ∧ r.holder = none ∧ r.revoked = false ∧ other = call) :
    Inv { s with rows := s.lock call tokenId, calls := calls } := by
  apply h.frame
  · rfl
  · exact lock_ids s call tokenId
  · intro r hr
    obtain ⟨old, member, rfl⟩ := mem_lock hr
    refine ⟨old, member, ?_⟩
    split
    next => exact ⟨rfl, rfl⟩
    next => exact ⟨rfl, rfl⟩
  · intro other jti userId exchanging
    rcases held other jti userId exchanging with old | ⟨r, member, id, same, free, open_, rfl⟩
    · obtain ⟨r, member, id, holder, open_⟩ := h.held other jti userId old
      refine ⟨r, List.mem_map.mpr ⟨r, member, ?_⟩, id, holder, open_⟩
      rw [if_neg]
      rw [holder]
      exact fun both => by cases both.2
    · refine ⟨{ r with holder := some other }, List.mem_map.mpr ⟨r, member, ?_⟩, id, rfl, open_⟩
      rw [if_pos ⟨id.trans same, free⟩]

theorem Inv.rollback (h : Inv s) : Inv (s.rollback call) := by
  apply h.frame
  · rfl
  · exact unlock_ids s call false
  · intro r hr
    obtain ⟨old, member, rfl⟩ := mem_unlock hr
    refine ⟨old, member, ?_⟩
    split
    next => exact ⟨rfl, Bool.or_false _⟩
    next => exact ⟨rfl, rfl⟩
  · intro other jti userId exchanging
    rcases exchanging_set exchanging with ⟨_, ended⟩ | ⟨apart, old⟩
    · cases ended
    · exact h.others apart old

/-- Revoking rows breaks nothing: what was exchanged stays revoked. -/
theorem Inv.committed (h : Inv s) : Inv (s.committed call) := by
  refine ⟨h.lineage, (unlock_ids s call true).trans h.rows, ?_, ?_⟩
  · intro r hr used
    obtain ⟨old, member, rfl⟩ := mem_unlock hr
    split
    next => exact Bool.or_true _
    next free =>
      rw [if_neg free] at used
      exact h.used old member used
  · intro other jti userId exchanging
    rcases exchanging_set exchanging with ⟨_, ended⟩ | ⟨apart, old⟩
    · cases ended
    · exact h.others apart old

theorem mem_issued (h : Inv s) : tokenId ∈ s.issued.map Prod.snd ↔ ∃ r ∈ s.rows, r.tokenId = tokenId := by
  rw [← List.mem_reverse, ← h.rows, List.mem_map]

theorem row_unique (h : Inv s) {r r' : TokenRow} (member : r ∈ s.rows) (member' : r' ∈ s.rows)
    (same : r.tokenId = r'.tokenId) : r = r' := by
  have distinct : (s.rows.map TokenRow.tokenId).Nodup := by
    rw [h.rows]
    exact List.nodup_reverse.mpr h.lineage.listed_nodup
  exact List.inj_on_of_nodup_map distinct member member' same

/-- A commit that issues a token revokes the one exchanged for it, which had not been exchanged before. -/
theorem Inv.issue (h : Inv s) {parent : Option Text} {expiresAt : Nat} {users : List Text}
    (exchanged : ∀ jti, parent = some jti → ∃ userId, s.calls[call]? = some (.exchanging jti userId))
    (fresh : ∀ r ∈ s.rows, r.tokenId ≠ tokenId) :
    Inv { s.committed call with
      users := users
      rows := s.unlock call true ++ [⟨tokenId, userId, expiresAt, false, none⟩]
      issued := (parent, tokenId) :: s.issued } := by
  have new : tokenId ∉ s.issued.map Prod.snd := by
    rw [mem_issued h]
    rintro ⟨r, member, same⟩
    exact fresh r member same
  have revoked : Inv (s.committed call) := h.committed
  have ids : (s.unlock call true ++ [(⟨tokenId, userId, expiresAt, false, none⟩ : TokenRow)]).map TokenRow.tokenId =
      (tokenId :: s.issued.map Prod.snd).reverse := by
    rw [List.map_append, unlock_ids, h.rows, List.reverse_cons]
    rfl
  have held : ∀ (other : Nat) (jti user : Text), (s.calls.set call .done)[other]? = some (.exchanging jti user) →
      ∃ r ∈ s.unlock call true ++ [(⟨tokenId, userId, expiresAt, false, none⟩ : TokenRow)],
        r.tokenId = jti ∧ r.holder = some other ∧ r.revoked = false := by
    intro other jti user exchanging
    obtain ⟨r, member, of⟩ := revoked.held other jti user exchanging
    exact ⟨r, List.mem_append_left _ member, of⟩
  cases parent with
  | none =>
    refine ⟨h.lineage.root new, ids, ?_, held⟩
    intro r hr used
    change r.tokenId ∈ s.issued.filterMap Prod.fst at used
    rcases List.mem_append.mp hr with old | last
    · exact revoked.used r old used
    · cases List.mem_singleton.mp last
      exact absurd (h.lineage.used_listed used) new
  | some jti =>
    obtain ⟨user, exchanging⟩ := exchanged jti rfl
    obtain ⟨row, member, id, holder, open_⟩ := h.held call jti user exchanging
    have listed : jti ∈ s.issued.map Prod.snd := (mem_issued h).mpr ⟨row, member, id⟩
    have unused : jti ∉ s.issued.filterMap Prod.fst := by
      intro used
      rw [← id] at used
      rw [h.used row member used] at open_
      cases open_
    refine ⟨h.lineage.next listed unused new, ids, ?_, held⟩
    intro r hr used
    change r.tokenId ∈ jti :: s.issued.filterMap Prod.fst at used
    rcases List.mem_append.mp hr with old | last
    · rcases List.mem_cons.mp used with same | used
      · obtain ⟨before, there, rfl⟩ := mem_unlock old
        have sameId : before.tokenId = jti := by
          split at same
          next => exact same
          next => exact same
        cases row_unique h there member (sameId.trans id.symm)
        rw [if_pos holder]
        exact Bool.or_true _
      · exact revoked.used r old used
    · cases List.mem_singleton.mp last
      rcases List.mem_cons.mp used with same | used
      · change tokenId = jti at same
        exact absurd (same ▸ listed) new
      · exact absurd (h.lineage.used_listed used) new

theorem Change.inv (change : Change s who s') (h : Inv s) : Inv s' := by
  cases change with
  | calls calls older =>
    exact h.frame rfl rfl (fun r hr => ⟨r, hr, rfl, rfl⟩) fun call jti userId exchanging =>
      h.held call jti userId (older call jti userId exchanging)
  | rollback call => exact h.rollback
  | acquire call userId r row free open_ known =>
    apply h.lock
    intro other jti user exchanging
    rcases exchanging_set exchanging with ⟨same, next⟩ | ⟨_, old⟩
    · injection next with id
      exact Or.inr ⟨r, row, id, id.symm, free, open_, same⟩
    · exact Or.inl old
  | lock call tokenId => exact h.lock fun other jti userId exchanging => Or.inl exchanging
  | revoke call => exact h.committed
  | issue call parent userId tokenId expiresAt users exchanged fresh => exact h.issue exchanged fresh

theorem inv_start : Inv start := by
  refine ⟨.nil, rfl, ?_, ?_⟩
  · intro r hr
    cases hr
  · intro call jti userId exchanging
    cases exchanging

theorem inv_run (events : List SessionEvent) : Inv (run events) := by
  have steps : ∀ (events : List SessionEvent) (s : Sessions), Inv s → Inv (events.foldl step s) := by
    intro events
    induction events with
    | nil => exact fun _ h => h
    | cons e events ih => exact fun s h => ih _ ((change_step s e).inv h)
  exact steps events start inv_start

/-- A token that may still be exchanged has not been. -/
theorem usable_unused (h : Inv s) (usable : s.Usable tokenId) : tokenId ∉ s.issued.filterMap Prod.fst := by
  obtain ⟨r, member, rfl, open_⟩ := usable
  intro used
  rw [h.used r member used] at open_
  cases open_

/-- Every token is exchanged by at most one committed call; what descends from one token is a chain without a loop,
of which at most one token may still be exchanged; and a call that does not commit changes no token. -/
theorem refresh_tokens_single_use (events : List SessionEvent) :
    (run events).tokens.map Prod.fst = ((run events).issued.map Prod.snd).reverse ∧
      ((run events).issued.filterMap Prod.fst).Nodup ∧
      (∀ root a b, ReflTransGen (Replaced (run events).issued) root a →
        ReflTransGen (Replaced (run events).issued) root b →
        (ReflTransGen (Replaced (run events).issued) a b ∨ ReflTransGen (Replaced (run events).issued) b a) ∧
          ((run events).Usable a → (run events).Usable b → a = b)) ∧
      (∀ a, ¬ TransGen (Replaced (run events).issued) a a) ∧
      ∀ before e after, events = before ++ e :: after →
        (∀ call, e.call? = some call → call ∉ (run events).succeeded) →
          (run (before ++ [e])).tokens = (run before).tokens := by
  have inv := inv_run events
  refine ⟨?_, inv.lineage.used_nodup, ?_, fun a => inv.lineage.irrefl, ?_⟩
  · rw [← inv.rows, Sessions.tokens, List.map_map]
    rfl
  · intro root a b left right
    refine ⟨inv.lineage.chain left right, fun endA endB => ?_⟩
    exact inv.lineage.end_unique left right (usable_unused inv endA) (usable_unused inv endB)
  · intro before e after split fails
    have here : run (before ++ [e]) = (run before).step e := by
      rw [run, List.foldl_append]
      rfl
    have whole : run events = after.foldl step ((run before).step e) := by
      rw [split, run, List.foldl_append]
      rfl
    have later : ((run before).step e).succeeded ⊆ (run events).succeeded := by
      rw [whole]
      exact succeeded_foldl after _
    rw [here]
    obtain ⟨_, same | ⟨call, who, succeeds⟩⟩ := (change_step (run before) e).tokens
    · exact same
    · exact absurd (later succeeds) (fails call who)

/-- Of two calls that find the same token, the one that waits for its row is refused. -/
example :
    let claims := some ⟨some (text "t1"), text "u", some (text "refresh")⟩
    (run [.register (text "u"), .commit 0 (text "t1") 9, .refreshToken claims, .refreshToken claims, .select 1, .select 2,
      .acquire 1 0, .acquire 2 0, .commit 1 (text "t2") 9, .acquire 2 0, .commit 2 (text "t3") 9]).tokens =
        [(text "t1", text "u", 9, true), (text "t2", text "u", 9, false)] := by
  decide

end Sessions

end OtterWorks.Auth
