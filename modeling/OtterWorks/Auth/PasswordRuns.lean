import OtterWorks.Auth.Account
import OtterWorks.Lib.Dict
import OtterWorks.Lib.Transition

namespace OtterWorks.Auth

variable {enc : PasswordEncoder}

def PasswordEncoder.Encodes (enc : PasswordEncoder) (hash rawPassword : Text) : Prop :=
  ∃ salt, hash = enc.encode salt rawPassword

theorem PasswordEncoder.Encodes.refuses_iff {hash rawPassword : Text} (h : enc.Encodes hash rawPassword) (other : Text) :
    enc.passwordMatches other hash = false ↔ enc.reads other ≠ enc.reads rawPassword := by
  obtain ⟨salt, rfl⟩ := h
  rw [← Bool.not_eq_true, enc.matches_encode]

namespace Account

/-- The password in force is the one that is stored, those it replaced are refused, and a refresh token that is or was
accepted comes from a check of the password since it was set. -/
structure Final (enc : PasswordEncoder) (s : Account) : Prop where
  stored : ∀ user ∈ s.user, enc.Encodes user.passwordHash s.password
  refused : ∀ user ∈ s.user, ∀ old ∈ s.replaced, enc.passwordMatches old user.passwordHash = false
  fresh : ∀ t ∈ s.tokens, t.revoked = false → t.epoch = s.epoch
  accepted : ∀ a ∈ s.accepted, a.1 = a.2

/-- What a commit needs. A login commits before any change to a different password does that was not there when it read
the user; a profile edit that changes something has read a hash of the password in force; and a change to a different
password, by what the encoder reads, finds no token unrevoked that its `UPDATE` has not seen. -/
def CommitFits (enc : PasswordEncoder) (s : Account) (tx : Nat) (tokenId : Text) : Work → Prop
  | .login _ _ epoch => s.taken tokenId = false → epoch = s.epoch
  | .updateProfile loaded user => user ≠ loaded → enc.Encodes loaded.passwordHash s.password
  | .changePassword _ _ request (some rows) =>
    s.locked tx rows = true → replacedBy request s.password ≠ [] →
      (∀ old ∈ replacedBy request s.password, enc.reads old ≠ enc.reads request.newPassword) ∧
        ∀ t ∈ s.tokens, t.revoked = false → t.tokenId ∈ rows
  | _ => True

def Fits (enc : PasswordEncoder) (s : Account) : AuthEvent → Prop
  | .commit tx tokenId _ => ∀ work ∈ s.txs[tx]?, s.CommitFits enc tx tokenId work
  | _ => True

end Account

/-- The rows that a transaction may have locked. -/
def Work.holds (tokenId : Text) : Work → Prop
  | .changePassword _ _ _ (some rows) => tokenId ∈ rows
  | .logout (some rows) => tokenId ∈ rows
  | .refreshToken _ => True
  | _ => False

/-- What an open transaction has in memory, and what it knows of the rows. -/
def Work.Sound (enc : PasswordEncoder) (s : Account) (tx : Nat) : Work → Prop
  | .register user password => enc.Encodes user.passwordHash password
  | .login loaded user epoch => s.user ≠ none ∧ user.passwordHash = loaded.passwordHash ∧ epoch ≤ s.epoch ∧
      (epoch = s.epoch → enc.Encodes loaded.passwordHash s.password)
  | .updateProfile loaded user => s.user ≠ none ∧ user.passwordHash = loaded.passwordHash
  | .changePassword loaded user request _ =>
      s.user ≠ none ∧ enc.Encodes user.passwordHash request.newPassword ∧ user ≠ loaded
  | .refreshToken epoch => ∃ t ∈ s.tokens, t.holder = some tx ∧ t.revoked = false ∧ t.epoch = epoch
  | .logout _ => True
  | .done => True

structure TxInv (enc : PasswordEncoder) (s : Account) : Prop where
  works : ∀ tx (work : Work), s.txs[tx]? = some work → work.Sound enc s tx
  held : ∀ t ∈ s.tokens, ∀ tx, t.holder = some tx → ∃ work, s.txs[tx]? = some work ∧ work.holds t.tokenId
  unregistered : s.user = none → s.replaced = []

namespace Account

section Rows

variable {s : Account} {tx other : Nat} {tokenId : Text} {t : RefreshToken} {revoke : Bool}

theorem of_mem_lock (h : t ∈ s.lock tx tokenId) :
    ∃ row ∈ s.tokens, t.tokenId = row.tokenId ∧ t.revoked = row.revoked ∧ t.epoch = row.epoch ∧
      (t.holder = row.holder ∨ t.holder = some tx ∧ row.tokenId = tokenId) := by
  obtain ⟨row, hrow, ht⟩ := List.mem_map.mp h
  refine ⟨row, hrow, ?_⟩
  split at ht
  next here =>
    subst ht
    exact ⟨rfl, rfl, rfl, Or.inr ⟨rfl, here.1⟩⟩
  next =>
    subst ht
    exact ⟨rfl, rfl, rfl, Or.inl rfl⟩

theorem mem_lock_of_held (h : t ∈ s.tokens) (held : t.holder = some other) : t ∈ s.lock tx tokenId :=
  List.mem_map.mpr ⟨t, h, by simp [held]⟩

theorem of_mem_unlock (h : t ∈ s.unlock tx revoke) :
    (t.holder = none ∧ ∃ row ∈ s.tokens, row.holder = some tx ∧ t.tokenId = row.tokenId ∧ t.epoch = row.epoch ∧
      t.revoked = (row.revoked || revoke)) ∨ t ∈ s.tokens ∧ t.holder ≠ some tx := by
  obtain ⟨row, hrow, ht⟩ := List.mem_map.mp h
  split at ht
  next here =>
    subst ht
    exact Or.inl ⟨rfl, row, hrow, here, rfl, rfl, rfl⟩
  next free =>
    subst ht
    exact Or.inr ⟨hrow, free⟩

theorem mem_unlock_of_other (h : t ∈ s.tokens) (free : t.holder ≠ some tx) : t ∈ s.unlock tx revoke :=
  List.mem_map.mpr ⟨t, h, by simp [free]⟩

/-- Unlocked rows are no less revoked than before. -/
theorem unrevoked_of_mem_unlock (h : t ∈ s.unlock tx revoke) (live : t.revoked = false) :
    ∃ row ∈ s.tokens, row.revoked = false ∧ row.epoch = t.epoch := by
  rcases of_mem_unlock h with ⟨-, row, hrow, -, -, hepoch, hrevoked⟩ | ⟨hrow, -⟩
  · rw [hrevoked, Bool.or_eq_false_iff] at live
    exact ⟨row, hrow, live.1, hepoch.symm⟩
  · exact ⟨t, hrow, live, rfl⟩

end Rows

end Account

section Steps

variable {s s' : Account} {tx : Nat} {work : Work}

/-- What a transaction knows stays true while its rows stay locked: the password in force changes at a registration,
which no other transaction has seen the user before, and at changes that are counted. -/
theorem Work.Sound.frame (h : work.Sound enc s tx) (registered : s.user ≠ none → s'.user ≠ none)
    (force : s.user ≠ none → s'.epoch = s.epoch ∧ s'.password = s.password ∨ s.epoch < s'.epoch)
    (rows : ∀ t ∈ s.tokens, t.holder = some tx → t ∈ s'.tokens) : work.Sound enc s' tx := by
  cases work with
  | register user password => exact h
  | login loaded user epoch =>
    obtain ⟨exists_, same, le, encodes⟩ := h
    refine ⟨registered exists_, same, ?_, ?_⟩
    · rcases force exists_ with ⟨hepoch, -⟩ | hlt <;> omega
    · intro now
      rcases force exists_ with ⟨hepoch, hpassword⟩ | hlt
      · rw [hpassword]
        exact encodes (by omega)
      · omega
  | updateProfile loaded user => exact ⟨registered h.1, h.2⟩
  | changePassword loaded user request rows => exact ⟨registered h.1, h.2⟩
  | refreshToken epoch =>
    obtain ⟨t, ht, holder, live⟩ := h
    exact ⟨t, rows t ht holder, holder, live⟩
  | logout rows => trivial
  | done => trivial

theorem TxInv.start : TxInv enc .start := by
  refine ⟨?_, ?_, fun _ => rfl⟩
  · intro tx work h
    cases h
  · intro t h
    cases h

/-- A transaction begins, perhaps with a row that it has locked. -/
theorem TxInv.begin (inv : TxInv enc s) (sound : work.Sound enc s s.txs.length) : TxInv enc (s.begin work) := by
  refine ⟨?_, ?_, inv.unregistered⟩
  · intro tx other h
    rcases getElem?_of_concat h with ⟨rfl, rfl⟩ | old
    · exact sound.frame id (fun _ => Or.inl ⟨rfl, rfl⟩) fun _ ht _ => ht
    · exact (inv.works tx other old).frame id (fun _ => Or.inl ⟨rfl, rfl⟩) fun _ ht _ => ht
  · intro t ht tx holder
    obtain ⟨other, there, holds⟩ := inv.held t ht tx holder
    exact ⟨other, getElem?_concat_of there work, holds⟩

/-- More rows are locked, each by a transaction that may hold it. -/
theorem TxInv.lock (inv : TxInv enc s) (tokenId : Text) (there : s.txs[tx]? = some work) (holds : work.holds tokenId) :
    TxInv enc { s with tokens := s.lock tx tokenId } := by
  refine ⟨?_, ?_, inv.unregistered⟩
  · intro other work' h
    exact (inv.works other work' h).frame id (fun _ => Or.inl ⟨rfl, rfl⟩) fun t ht held => Account.mem_lock_of_held ht held
  · intro t ht other holder
    obtain ⟨row, hrow, hid, -, -, hholder⟩ := Account.of_mem_lock ht
    rcases hholder with old | ⟨new, here⟩
    · rw [hid]
      exact inv.held row hrow other (old ▸ holder)
    · rw [new, Option.some.injEq] at holder
      subst holder
      refine ⟨work, there, ?_⟩
      rw [hid, here]
      exact holds

/-- The statement of `revokeAllByUserId` starts: the transaction held no row before. -/
theorem TxInv.setWork (inv : TxInv enc s) {before : Work} (there : s.txs[tx]? = some before)
    (none : ∀ tokenId, ¬before.holds tokenId) (sound : work.Sound enc s tx) :
    TxInv enc { s with txs := s.txs.set tx work } := by
  refine ⟨?_, ?_, inv.unregistered⟩
  · intro other work' h
    rcases getElem?_of_set h with ⟨rfl, rfl⟩ | ⟨-, old⟩
    · exact sound.frame id (fun _ => Or.inl ⟨rfl, rfl⟩) fun _ ht _ => ht
    · exact (inv.works other work' old).frame id (fun _ => Or.inl ⟨rfl, rfl⟩) fun _ ht _ => ht
  · intro t ht other holder
    obtain ⟨held, here, holds⟩ := inv.held t ht other holder
    have ne : tx ≠ other := by
      intro same
      subst same
      rw [there, Option.some.injEq] at here
      subst here
      exact none _ holds
    exact ⟨held, by rw [List.getElem?_set_ne ne]; exact here, holds⟩

/-- A transaction ends and gives its rows back; it may have issued a token and written the user. -/
theorem TxInv.finish (inv : TxInv enc s) {revoke : Bool} {issued : List RefreshToken}
    (txs : s'.txs = s.txs.set tx .done) (tokens : s'.tokens = s.unlock tx revoke ++ issued)
    (free : ∀ t ∈ issued, t.holder = none) (registered : s.user ≠ none → s'.user ≠ none)
    (force : s.user ≠ none → s'.epoch = s.epoch ∧ s'.password = s.password ∨ s.epoch < s'.epoch)
    (unregistered : s'.user = none → s'.replaced = []) : TxInv enc s' := by
  refine ⟨?_, ?_, unregistered⟩
  · intro other work' h
    rw [txs] at h
    rcases getElem?_of_set h with ⟨rfl, rfl⟩ | ⟨ne, old⟩
    · trivial
    · apply (inv.works other work' old).frame registered force
      intro t ht holder
      rw [tokens]
      apply List.mem_append_left
      apply Account.mem_unlock_of_other ht
      rw [holder]
      intro same
      exact ne (Option.some.inj same)
  · intro t ht other holder
    rw [tokens] at ht
    rcases List.mem_append.mp ht with old | new
    · rcases Account.of_mem_unlock old with ⟨hnone, -⟩ | ⟨hrow, hother⟩
      · rw [hnone] at holder
        cases holder
      · obtain ⟨held, here, holds⟩ := inv.held t hrow other holder
        have ne : tx ≠ other := by
          intro same
          rw [holder, same] at hother
          exact hother rfl
        refine ⟨held, ?_, holds⟩
        rw [txs, List.getElem?_set_ne ne]
        exact here
    · rw [free t new] at holder
      cases holder

/-- A transaction ends that has issued no token. -/
theorem TxInv.close (inv : TxInv enc s) {revoke : Bool} (txs : s'.txs = s.txs.set tx .done)
    (tokens : s'.tokens = s.unlock tx revoke) (registered : s.user ≠ none → s'.user ≠ none)
    (force : s.user ≠ none → s'.epoch = s.epoch ∧ s'.password = s.password ∨ s.epoch < s'.epoch)
    (unregistered : s'.user = none → s'.replaced = []) : TxInv enc s' := by
  have nothing : s'.tokens = s.unlock tx revoke ++ [] := by rw [tokens, List.append_nil]
  exact inv.finish txs nothing (by simp) registered force unregistered

theorem TxInv.rollback (inv : TxInv enc s) (tx : Nat) : TxInv enc (s.rollback tx) :=
  inv.close rfl rfl id (fun _ => Or.inl ⟨rfl, rfl⟩) inv.unregistered

/-- A refresh begins with the row of its token locked. -/
theorem TxInv.refresh (inv : TxInv enc s) {t : RefreshToken} (ht : t ∈ s.tokens) (free : t.holder = none)
    (live : t.revoked = false) :
    TxInv enc ({ s with tokens := s.lock s.txs.length t.tokenId }.begin (.refreshToken t.epoch)) := by
  refine ⟨?_, ?_, inv.unregistered⟩
  · intro tx other h
    rcases getElem?_of_concat h with ⟨rfl, rfl⟩ | old
    · exact ⟨{ t with holder := some s.txs.length }, List.mem_map.mpr ⟨t, ht, by simp [free]⟩, rfl, live, rfl⟩
    · exact (inv.works tx other old).frame id (fun _ => Or.inl ⟨rfl, rfl⟩) fun t ht held =>
        Account.mem_lock_of_held ht held
  · intro locked hlocked tx holder
    obtain ⟨row, hrow, hid, -, -, hholder⟩ := Account.of_mem_lock hlocked
    rcases hholder with old | ⟨new, -⟩
    · obtain ⟨other, there, holds⟩ := inv.held row hrow tx (old ▸ holder)
      refine ⟨other, getElem?_concat_of there _, ?_⟩
      rw [hid]
      exact holds
    · rw [new, Option.some.injEq] at holder
      subst holder
      exact ⟨.refreshToken t.epoch, by simp [Account.begin], trivial⟩

theorem Account.issue_eq (s : Account) (tx : Nat) (tokenId : Text) (expiresAt epoch : Nat) (after : Account) :
    s.taken tokenId = true ∧ s.issue tx tokenId expiresAt epoch after = s.rollback tx ∨
      s.taken tokenId = false ∧ s.issue tx tokenId expiresAt epoch after =
        { after with tokens := after.tokens ++ [⟨tokenId, expiresAt, false, none, epoch⟩] } := by
  unfold Account.issue
  cases s.taken tokenId with
  | true => exact Or.inl ⟨rfl, rfl⟩
  | false => exact Or.inr ⟨rfl, rfl⟩

theorem flush_cases (loaded user : User) (row : Option User) :
    user = loaded ∧ flush loaded user row = row ∨ user ≠ loaded ∧ flush loaded user row = some user := by
  unfold flush
  by_cases same : user = loaded
  · exact Or.inl ⟨same, if_pos same⟩
  · exact Or.inr ⟨same, if_neg same⟩

theorem flush_ne_none {loaded user : User} {row : Option User} (h : row ≠ none) : flush loaded user row ≠ none := by
  rcases flush_cases loaded user row with ⟨-, hflush⟩ | ⟨-, hflush⟩
  · rw [hflush]
    exact h
  · rw [hflush]
    exact Option.some_ne_none user

theorem replacedBy_eq_nil {request : ChangePasswordRequest} {inForce : Text} (h : replacedBy request inForce = []) :
    inForce = request.newPassword := by
  by_contra ne
  have hmem : inForce ∈ replacedBy request inForce := List.mem_filter.mpr ⟨by simp, by simpa using ne⟩
  rw [h] at hmem
  cases hmem

theorem TxInv.commit (inv : TxInv enc s) (there : s.txs[tx]? = some work) (tokenId : Text) (expiresAt : Nat) :
    TxInv enc (s.commit tx tokenId expiresAt work) := by
  have sound := inv.works tx work there
  have ended : ∀ {after : Account} {epoch : Nat}, after.txs = s.txs.set tx .done → after.tokens = s.unlock tx true →
      (s.user ≠ none → after.user ≠ none) → (s.user ≠ none → after.epoch = s.epoch ∧ after.password = s.password) →
      (after.user = none → after.replaced = []) → TxInv enc (s.issue tx tokenId expiresAt epoch after) := by
    intro after epoch txs tokens registered force unregistered
    rcases s.issue_eq tx tokenId expiresAt epoch after with ⟨-, h⟩ | ⟨-, h⟩
    · rw [h]
      exact inv.rollback tx
    · rw [h]
      have more : ({ after with tokens := after.tokens ++ [⟨tokenId, expiresAt, false, none, epoch⟩] } : Account).tokens =
          s.unlock tx true ++ [⟨tokenId, expiresAt, false, none, epoch⟩] := by rw [tokens]
      refine inv.finish txs more ?_ registered (fun h => Or.inl (force h)) unregistered
      intro t ht
      rw [List.mem_singleton.mp ht]
  cases work with
  | register user password =>
    unfold Account.commit
    dsimp only
    split
    next => exact inv.rollback tx
    next absent =>
      have hnone : s.user = none := by simpa using absent
      exact ended rfl rfl (fun _ => Option.some_ne_none user) (fun h => absurd hnone h) fun h => by cases h
  | login loaded user epoch =>
    refine ended rfl rfl flush_ne_none (fun _ => ⟨rfl, rfl⟩) fun h => absurd h (flush_ne_none sound.1)
  | updateProfile loaded user =>
    refine inv.close rfl rfl flush_ne_none (fun _ => Or.inl ⟨rfl, rfl⟩) ?_
    exact fun h => absurd h (flush_ne_none sound.1)
  | changePassword loaded user request rows =>
    cases rows with
    | none => exact inv
    | some rows =>
      unfold Account.commit
      dsimp only
      split
      next =>
        refine inv.close rfl rfl flush_ne_none ?_ ?_
        · intro _
          by_cases same : replacedBy request s.password = []
          · refine Or.inl ⟨if_pos same, ?_⟩
            exact (replacedBy_eq_nil same).symm
          · refine Or.inr ?_
            change s.epoch < if replacedBy request s.password = [] then s.epoch else s.epoch + 1
            rw [if_neg same]
            omega
        · exact fun h => absurd h (flush_ne_none sound.1)
      next => exact inv
  | refreshToken epoch => exact ended rfl rfl id (fun _ => ⟨rfl, rfl⟩) inv.unregistered
  | logout rows =>
    cases rows with
    | none => exact inv
    | some rows =>
      unfold Account.commit
      dsimp only
      split
      next =>
        exact inv.close rfl rfl id (fun _ => Or.inl ⟨rfl, rfl⟩)
          inv.unregistered
      next => exact inv
  | done => exact inv

theorem UpdateProfileRequest.apply_passwordHash (request : UpdateProfileRequest) (user : User) :
    (request.apply user).passwordHash = user.passwordHash := by
  unfold UpdateProfileRequest.apply
  cases request.displayName <;> cases request.avatarUrl <;> rfl

theorem TxInv.step (inv : TxInv enc s) (final : s.Final enc) (event : AuthEvent) : TxInv enc (s.step enc event) := by
  cases event with
  | register request salt =>
    show TxInv enc (s.register enc request salt)
    unfold Account.register
    cases s.user with
    | some user => exact inv
    | none => exact inv.begin ⟨salt, rfl⟩
  | login password now =>
    show TxInv enc (s.login enc password now)
    unfold Account.login
    split
    next => exact inv
    next user huser =>
      split
      next => exact inv.begin ⟨by simp [huser], rfl, Nat.le_refl _, fun _ => final.stored user huser⟩
      next => exact inv
  | updateProfile request =>
    show TxInv enc (s.updateProfile request)
    unfold Account.updateProfile
    split
    next => exact inv
    next user huser => exact inv.begin ⟨by simp [huser], request.apply_passwordHash user⟩
  | changePassword request salt =>
    show TxInv enc (s.changePassword enc request salt)
    unfold Account.changePassword
    split
    next => exact inv
    next user huser =>
      dsimp only
      split
      next allowed =>
        refine inv.begin ⟨by simp [huser], ⟨salt, rfl⟩, ?_⟩
        intro same
        exact allowed.2 (congrArg User.passwordHash same)
      next => exact inv
  | refreshToken tokenId now =>
    show TxInv enc (s.refreshToken tokenId now)
    unfold Account.refreshToken
    split
    next => exact inv
    next t hfind =>
      split
      next => exact inv
      next free =>
        split
        next => exact inv
        next =>
          have live : t.tokenId = tokenId ∧ t.revoked = false := by simpa using List.find?_some hfind
          have hfree : t.holder = none := by simpa using free
          rw [← live.1]
          exact inv.refresh (List.mem_of_find?_eq_some hfind) hfree live.2
  | logout => exact inv.begin trivial
  | revokeAll tx =>
    unfold Account.step
    dsimp only
    split
    next work there =>
      unfold Account.revokeAll
      split
      next loaded user request =>
        have sound := inv.works tx _ there
        exact inv.setWork there (fun _ h => h) sound
      next => exact inv.setWork there (fun _ h => h) trivial
      next => exact inv
    next => exact inv
  | lockRow tx tokenId =>
    unfold Account.step
    dsimp only
    split
    next work there =>
      unfold Account.lockRow
      split
      next =>
        split
        next seen => exact inv.lock tokenId there seen
        next => exact inv
      next =>
        split
        next seen => exact inv.lock tokenId there seen
        next => exact inv
      next => exact inv
    next => exact inv
  | commit tx tokenId expiresAt =>
    unfold Account.step
    dsimp only
    split
    next work there => exact inv.commit there tokenId expiresAt
    next => exact inv
  | rollback tx => exact inv.rollback tx

/-! ### What a commit does to the password in force -/

namespace Account

/-- The password in force stays, and what is stored is a hash of it. -/
theorem Final.keep (final : s.Final enc) (known : s.user ≠ none ∨ s.user = s'.user)
    (password : s'.password = s.password) (epoch : s'.epoch = s.epoch) (replaced : s'.replaced = s.replaced)
    (user : ∀ user ∈ s'.user, user ∈ s.user ∨ enc.Encodes user.passwordHash s.password)
    (rows : ∀ t ∈ s'.tokens, t.revoked = false → t.epoch = s.epoch)
    (accepted : ∀ a ∈ s'.accepted, a ∈ s.accepted ∨ a.1 = a.2) : s'.Final enc := by
  refine ⟨?_, ?_, ?_, ?_⟩
  · intro u hu
    rw [password]
    rcases user u hu with old | encodes
    · exact final.stored u old
    · exact encodes
  · intro u hu old hold
    rw [replaced] at hold
    rcases user u hu with there | encodes
    · exact final.refused u there old hold
    · -- what the stored hash refused, a hash of the same password refuses
      rcases known with hknown | hsame
      · obtain ⟨before, hbefore⟩ := Option.ne_none_iff_exists'.mp hknown
        have refused := final.refused before hbefore old hold
        rw [(final.stored before hbefore).refuses_iff] at refused
        exact (encodes.refuses_iff old).mpr refused
      · rw [← hsame] at hu
        exact final.refused u hu old hold
  · intro t ht live
    rw [epoch]
    exact rows t ht live
  · intro a ha
    rcases accepted a ha with old | same
    · exact final.accepted a old
    · exact same

theorem Final.unlocked (final : s.Final enc) {revoke : Bool} :
    ∀ t ∈ s.unlock tx revoke, t.revoked = false → t.epoch = s.epoch := by
  intro t ht live
  obtain ⟨row, hrow, hlive, hepoch⟩ := unrevoked_of_mem_unlock ht live
  rw [← hepoch]
  exact final.fresh row hrow hlive

theorem Final.start : start.Final enc := by
  refine ⟨?_, ?_, ?_, ?_⟩
  · intro user h
    cases h
  · intro user h
    cases h
  · intro t h
    cases h
  · intro a h
    cases h

theorem Final.rollback (final : s.Final enc) (tx : Nat) : (s.rollback tx).Final enc :=
  final.keep (Or.inr rfl) rfl rfl rfl (fun _ h => Or.inl h) final.unlocked fun _ h => Or.inl h

/-- A token is issued. -/
theorem Final.issue_iff (tokenId : Text) (expiresAt : Nat) {epoch : Nat} {after : Account} (final : s.Final enc)
    (done : after.Final enc) (same : after.epoch = s.epoch) :
    (s.issue tx tokenId expiresAt epoch after).Final enc ↔ (s.taken tokenId = false → epoch = s.epoch) := by
  rcases s.issue_eq tx tokenId expiresAt epoch after with ⟨taken, h⟩ | ⟨free, h⟩
  · rw [h, taken]
    exact iff_of_true (final.rollback tx) fun h => by cases h
  · rw [h]
    constructor
    · intro final' _
      rw [← same]
      exact final'.fresh ⟨tokenId, expiresAt, false, none, epoch⟩ (List.mem_append_right _ (List.mem_singleton.mpr rfl)) rfl
    · intro now
      refine ⟨done.stored, done.refused, ?_, done.accepted⟩
      intro t ht live
      rcases List.mem_append.mp ht with old | new
      · exact done.fresh t old live
      · rw [List.mem_singleton.mp new]
        exact (now free).trans same.symm

/-- A user row is written by what had loaded it. -/
theorem Final.write_iff (final : s.Final enc) {loaded user : User} (known : s.user ≠ none)
    (same : user.passwordHash = loaded.passwordHash) :
    Final enc { s.committed tx with user := flush loaded user s.user } ↔
      (user ≠ loaded → enc.Encodes loaded.passwordHash s.password) := by
  rcases flush_cases loaded user s.user with ⟨heq, h⟩ | ⟨hne, h⟩
  · rw [h]
    refine iff_of_true ?_ fun hne => absurd heq hne
    exact final.keep (Or.inl known) rfl rfl rfl (fun _ h => Or.inl h) final.unlocked fun _ h => Or.inl h
  · rw [h]
    constructor
    · intro final' _
      rw [← same]
      exact final'.stored user rfl
    · intro encodes
      refine final.keep (Or.inl known) rfl rfl rfl ?_ final.unlocked fun _ h => Or.inl h
      intro u hu
      cases hu
      rw [same]
      exact Or.inr (encodes hne)

/-- A password is changed. -/
theorem Final.commitChange_iff (final : s.Final enc) {loaded user : User} {request : ChangePasswordRequest}
    {rows : List Text} (sound : (Work.changePassword loaded user request (some rows)).Sound enc s tx)
    (held : ∀ t ∈ s.tokens, t.holder = some tx → t.tokenId ∈ rows) (locked : s.locked tx rows = true) :
    (s.commitChange tx loaded user request).Final enc ↔
      (replacedBy request s.password ≠ [] →
        (∀ old ∈ replacedBy request s.password, enc.reads old ≠ enc.reads request.newPassword) ∧
          ∀ t ∈ s.tokens, t.revoked = false → t.tokenId ∈ rows) := by
  obtain ⟨known, encodes, hne⟩ := sound
  have hflush : flush loaded user s.user = some user := if_neg hne
  have hlocked : ∀ t ∈ s.tokens, t.tokenId ∈ rows → t.holder = some tx := by
    intro t ht hrow
    have h := List.all_eq_true.mp locked t ht
    simpa [hrow] using h
  by_cases same : replacedBy request s.password = []
  · refine iff_of_true ?_ fun h => absurd same h
    have hpassword := replacedBy_eq_nil same
    unfold commitChange
    simp only [same, if_true]
    refine final.keep (Or.inl known) hpassword.symm rfl rfl ?_ final.unlocked fun _ h => Or.inl h
    intro u hu
    rw [hflush] at hu
    cases hu
    rw [hpassword]
    exact Or.inr encodes
  · unfold commitChange
    simp only [same, if_false, hflush]
    constructor
    · intro final' _
      constructor
      · intro old hold
        have refused := final'.refused user rfl old hold
        exact (encodes.refuses_iff old).mp refused
      · intro t ht live
        by_contra unseen
        have free : t.holder ≠ some tx := fun holder => unseen (held t ht holder)
        have late := final'.fresh t (mem_unlock_of_other ht free) live
        have now := final.fresh t ht live
        change t.epoch = s.epoch + 1 at late
        omega
    · intro fits
      obtain ⟨different, seen⟩ := fits same
      refine ⟨?_, ?_, ?_, final.accepted⟩
      · intro u hu
        cases hu
        exact encodes
      · intro u hu old hold
        cases hu
        exact (encodes.refuses_iff old).mpr (different old hold)
      · intro t ht live
        rcases of_mem_unlock ht with ⟨-, row, -, -, -, -, hrevoked⟩ | ⟨hrow, free⟩
        · rw [hrevoked, Bool.or_true] at live
          cases live
        · exact absurd (hlocked t hrow (seen t hrow live)) free

/-- What a commit leaves is final exactly if it fits. -/
theorem Final.commit_iff (final : s.Final enc) (inv : TxInv enc s) (there : s.txs[tx]? = some work) (tokenId : Text)
    (expiresAt : Nat) : (s.commit tx tokenId expiresAt work).Final enc ↔ s.CommitFits enc tx tokenId work := by
  have sound := inv.works tx work there
  have kept : (s.committed tx).Final enc :=
    final.keep (Or.inr rfl) rfl rfl rfl (fun _ h => Or.inl h) final.unlocked fun _ h => Or.inl h
  cases work with
  | register user password =>
    refine iff_of_true ?_ trivial
    unfold commit
    dsimp only
    split
    next => exact final.rollback tx
    next absent =>
      have hnone : s.user = none := by simpa using absent
      have registered : Final enc { s.committed tx with user := some user, password := password } := by
        refine ⟨?_, ?_, kept.fresh, kept.accepted⟩
        · intro u hu
          cases hu
          exact sound
        · intro u _ old hold
          change old ∈ s.replaced at hold
          rw [inv.unregistered hnone] at hold
          cases hold
      exact (final.issue_iff tokenId expiresAt registered rfl).mpr fun _ => rfl
  | login loaded user epoch =>
    obtain ⟨known, same, -, encodes⟩ := sound
    -- a login that commits too late may leave its user row wrong as well: its token is
    by_cases now : epoch = s.epoch
    · refine iff_of_true ?_ fun _ => now
      have written : Final enc { s.committed tx with user := flush loaded user s.user } :=
        (final.write_iff known same).mpr fun _ => encodes now
      exact (final.issue_iff tokenId expiresAt written rfl).mpr fun _ => now
    · show (s.issue tx tokenId expiresAt epoch _).Final enc ↔ (s.taken tokenId = false → epoch = s.epoch)
      rcases s.issue_eq tx tokenId expiresAt epoch { s.committed tx with user := flush loaded user s.user } with
        ⟨taken, h⟩ | ⟨free, h⟩
      · rw [h, taken]
        exact iff_of_true (final.rollback tx) fun h => by cases h
      · rw [h]
        refine iff_of_false ?_ fun h => now (h free)
        intro final'
        exact now (final'.fresh ⟨tokenId, expiresAt, false, none, epoch⟩
          (List.mem_append_right _ (List.mem_singleton.mpr rfl)) rfl)
  | updateProfile loaded user => exact final.write_iff sound.1 sound.2
  | changePassword loaded user request rows =>
    cases rows with
    | none => exact iff_of_true final trivial
    | some rows =>
      have held : ∀ t ∈ s.tokens, t.holder = some tx → t.tokenId ∈ rows := by
        intro t ht holder
        obtain ⟨other, here, holds⟩ := inv.held t ht tx holder
        rw [there, Option.some.injEq] at here
        subst here
        exact holds
      unfold commit CommitFits
      dsimp only
      split
      next locked =>
        rw [final.commitChange_iff sound held locked]
        exact ⟨fun h _ => h, fun h => h locked⟩
      next unlocked => exact iff_of_true final fun locked => absurd locked unlocked
  | refreshToken epoch =>
    obtain ⟨t, ht, -, live, hepoch⟩ := sound
    have now : epoch = s.epoch := by rw [← hepoch, final.fresh t ht live]
    refine iff_of_true ?_ trivial
    have logged : Final enc { s.committed tx with accepted := (epoch, s.epoch) :: s.accepted } := by
      refine final.keep (Or.inr rfl) rfl rfl rfl (fun _ h => Or.inl h) final.unlocked ?_
      intro a ha
      rcases List.mem_cons.mp ha with new | old
      · rw [new]
        exact Or.inr now
      · exact Or.inl old
    exact (final.issue_iff tokenId expiresAt logged rfl).mpr fun _ => now
  | logout rows =>
    cases rows with
    | none => exact iff_of_true final trivial
    | some rows =>
      refine iff_of_true ?_ trivial
      unfold commit
      dsimp only
      split
      next => exact kept
      next => exact final
  | done => exact iff_of_true final trivial

/-- Only the rows of the tokens change, and these by locks. -/
theorem Final.locked (final : s.Final enc) (tokenId : Text) : Final enc { s with tokens := s.lock tx tokenId } := by
  refine final.keep (Or.inr rfl) rfl rfl rfl (fun _ h => Or.inl h) ?_ fun _ h => Or.inl h
  intro t ht live
  obtain ⟨row, hrow, -, hrevoked, hepoch, -⟩ := of_mem_lock ht
  rw [hepoch]
  exact final.fresh row hrow (hrevoked.symm.trans live)

theorem Final.txs (final : s.Final enc) (txs : List Work) : Final enc { s with txs := txs } :=
  ⟨final.stored, final.refused, final.fresh, final.accepted⟩

theorem Final.step_iff (final : s.Final enc) (inv : TxInv enc s) (event : AuthEvent) :
    (s.step enc event).Final enc ↔ s.Fits enc event := by
  cases event with
  | register request salt =>
    refine iff_of_true ?_ trivial
    show (s.register enc request salt).Final enc
    unfold register
    split
    next => exact final
    next => exact final.txs _
  | login password now =>
    refine iff_of_true ?_ trivial
    show (s.login enc password now).Final enc
    unfold login
    split
    next => exact final
    next =>
      split
      next => exact final.txs _
      next => exact final
  | updateProfile request =>
    refine iff_of_true ?_ trivial
    show (s.updateProfile request).Final enc
    unfold updateProfile
    split
    next => exact final
    next => exact final.txs _
  | changePassword request salt =>
    refine iff_of_true ?_ trivial
    show (s.changePassword enc request salt).Final enc
    unfold changePassword
    split
    next => exact final
    next =>
      dsimp only
      split
      next => exact final.txs _
      next => exact final
  | refreshToken tokenId now =>
    refine iff_of_true ?_ trivial
    show (s.refreshToken tokenId now).Final enc
    unfold refreshToken
    split
    next => exact final
    next =>
      split
      next => exact final
      next =>
        split
        next => exact final
        next => exact (final.locked tokenId).txs _
  | logout => exact iff_of_true (final.txs _) trivial
  | revokeAll tx =>
    refine iff_of_true ?_ trivial
    unfold step
    dsimp only
    split
    next work _ =>
      unfold revokeAll
      split
      next => exact final.txs _
      next => exact final.txs _
      next => exact final
    next => exact final
  | lockRow tx tokenId =>
    refine iff_of_true ?_ trivial
    unfold step
    dsimp only
    split
    next work _ =>
      unfold lockRow
      split
      next =>
        split
        next => exact final.locked tokenId
        next => exact final
      next =>
        split
        next => exact final.locked tokenId
        next => exact final
      next => exact final
    next => exact final
  | commit tx tokenId expiresAt =>
    unfold step Fits
    dsimp only
    split
    next work there =>
      rw [final.commit_iff inv there]
      constructor
      · intro fits other hother
        rw [Option.mem_def, there, Option.some.injEq] at hother
        subst hother
        exact fits
      · intro fits
        exact fits work there
    next there =>
      refine iff_of_true final ?_
      intro work hwork
      rw [Option.mem_def, there] at hwork
      cases hwork
  | rollback tx => exact iff_of_true (final.rollback tx) trivial

/-- A password change is final in a run exactly if each of its commits fits. -/
theorem password_change_final_iff (enc : PasswordEncoder) (events : List AuthEvent) :
    (∀ n, ((events.take n).foldl (step enc) start).Final enc) ↔
      ∀ n event, events[n]? = some event → ((events.take n).foldl (step enc) start).Fits enc event := by
  have run := @foldl_always_iff_with _ _ (step enc) (Final enc) (Fits enc) (TxInv enc)
    (fun s event aux final => aux.step final event) (fun s event aux final => final.step_iff aux event) _ TxInv.start
    events
  rw [run]
  apply and_iff_right
  exact Final.start

end Account

end Steps

/-- An encoder that keeps what it reads in front of the salt. -/
def plainEncoder : PasswordEncoder where
  encode salt rawPassword := rawPassword.take 72 ++ '$' :: salt.filter (· ≠ '$')
  passwordMatches rawPassword encodedPassword :=
    rawPassword.take 72 == ((encodedPassword.reverse.dropWhile (· ≠ '$')).drop 1).reverse
  reads rawPassword := rawPassword.take 72
  matches_encode := by
    intro salt rawPassword other
    simp

/-- A profile edit that read the user before a password change and commits after it. -/
def overlappedChange : List AuthEvent :=
  [.register ⟨text "o@otterworks.dev", text "river-stone", text "Otter"⟩ (text "a"),
    .commit 0 (text "jti-1") 2592000,
    .updateProfile ⟨some (text "Otto"), none⟩,
    .changePassword ⟨text "river-stone", text "hollow-log"⟩ (text "b"), .revokeAll 2, .lockRow 2 (text "jti-1"),
    .commit 2 [] 0,
    .commit 1 [] 0]

theorem old_password_restored :
    ¬∀ n, ((overlappedChange.take n).foldl (Account.step plainEncoder) .start).Final plainEncoder := by
  intro always
  have refused := (always 8).refused
  revert refused
  decide

end OtterWorks.Auth
