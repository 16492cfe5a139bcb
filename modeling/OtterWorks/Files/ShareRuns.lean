import OtterWorks.Files.Shares
import OtterWorks.Lib.Transition
import Mathlib.Data.List.Nodup

namespace OtterWorks.Files

/-- At most one row stands for a file and a user, and who lost a share no longer sees the file. -/
structure Revocable (s : Sharing) : Prop where
  unique : s.shares.Pairwise fun a b => a.pair ≠ b.pair
  effective : ∀ pair ∈ s.revoked, ∀ scan, ∀ file ∈ s.listSharedFiles scan pair.2, file.id ≠ pair.1

/-- The file is listed for those it is shared with. -/
def Sharing.Live (s : Sharing) (fileId : Uuid) : Prop := ∃ file, s.files fileId = some file ∧ file.isTrashed = false

/-- No row stands for the pair. -/
def Absent (shares : List FileShare) (pair : Uuid × Uuid) : Prop := ∀ r ∈ shares, r.pair ≠ pair

theorem mem_listSharedFiles {s : Sharing} {scan : Scan FileShare} {user : Uuid} {file : FileMetadata} :
    file ∈ s.listSharedFiles scan user ↔
      (∃ r ∈ s.shares, r.sharedWith = user ∧ s.files r.fileId = some file) ∧ file.isTrashed = false := by
  unfold Sharing.listSharedFiles
  simp only [List.mem_filter, List.mem_filterMap, List.mem_eraseDups, List.mem_map, Scan.mem_order, decide_eq_true_eq,
    Bool.not_eq_true']
  constructor
  · rintro ⟨⟨id, ⟨r, ⟨hr, user⟩, rfl⟩, found⟩, untrashed⟩
    exact ⟨⟨r, hr, user, found⟩, untrashed⟩
  · rintro ⟨⟨r, hr, user, found⟩, untrashed⟩
    exact ⟨⟨r.fileId, ⟨r, ⟨hr, user⟩, rfl⟩, found⟩, untrashed⟩

/-- Whatever order the shares are scanned in, a user sees a file that is there through a row of the two. -/
theorem unseen_iff {s : Sharing} {pair : Uuid × Uuid} :
    (∀ scan, ∀ file ∈ s.listSharedFiles scan pair.2, file.id ≠ pair.1) ↔ (s.Live pair.1 → Absent s.shares pair) := by
  constructor
  · intro unseen live r hr same
    obtain ⟨file, found, untrashed⟩ := live
    subst same
    exact unseen .asStored file (mem_listSharedFiles.mpr ⟨⟨r, hr, rfl, found⟩, untrashed⟩) (s.fileKeys _ _ found)
  · intro absent scan file hfile same
    obtain ⟨⟨r, hr, user, found⟩, untrashed⟩ := mem_listSharedFiles.mp hfile
    have key : r.fileId = pair.1 := (s.fileKeys _ _ found).symm.trans same
    rw [key] at found
    exact absent ⟨file, found, untrashed⟩ r hr (Prod.ext key user)

theorem revocable_iff {s : Sharing} : Revocable s ↔
    s.shares.Pairwise (fun a b => a.pair ≠ b.pair) ∧ ∀ pair ∈ s.revoked, s.Live pair.1 → Absent s.shares pair :=
  ⟨fun h => ⟨h.unique, fun pair hp => unseen_iff.mp (h.effective pair hp)⟩,
    fun h => ⟨h.1, fun pair hp => unseen_iff.mpr (h.2 pair hp)⟩⟩

/-- What the handlers know: each id is drawn for one pair, and who is revoked is not being shared with. -/
structure ShareInv (s : Sharing) : Prop where
  ids : (s.shares.map FileShare.id).Nodup
  rows : ∀ r ∈ s.shares, s.drawn r.id = some r.pair
  update : ∀ req existing, .share req (.update existing) ∈ s.handlers → s.drawn existing.id = some req.pair
  delete : ∀ pair share, .remove pair (.delete share) ∈ s.handlers → s.drawn share.id = some pair
  revoked : ∀ pair ∈ s.revoked, s.isShared pair = false

/-- The write of a handler finds no row of the pair but the one its lookup found; a removal may find more while a
`share_file` for the pair is running, or of a file that nobody sees. -/
def Undisturbed (s : Sharing) : ShareEvent → Prop
  | .next i _ id _ =>
    match s.handlers[i]? with
    | some (.share req .create) => s.drawn id ≠ none ∨ Absent s.shares req.pair
    | some (.share req (.update existing)) => ∀ r ∈ s.shares, r.pair = req.pair → r.id = existing.id
    | some (.remove pair (.delete share)) =>
      s.isShared pair = true ∨ ¬ s.Live pair.1 ∨ ∀ r ∈ s.shares, r.pair = pair → r.id = share.id
    | _ => True
  | _ => True

section Rows

variable {shares : List FileShare}

theorem findExistingShare_some {scan : Scan FileShare} {pair : Uuid × Uuid} {share : FileShare}
    (h : findExistingShare scan shares pair = some share) : share ∈ shares ∧ share.pair = pair :=
  ⟨Scan.mem_order.mp (List.mem_of_find?_eq_some h), by simpa using List.find?_some h⟩

theorem putShare_new {share : FileShare} (fresh : ∀ r ∈ shares, r.id ≠ share.id) :
    putShare shares share = shares ++ [share] := by
  apply upsert_new
  rw [List.any_eq_false]
  intro r hr same
  exact fresh r hr (by simpa using same)

theorem mem_putShare {share r : FileShare} (h : r ∈ putShare shares share) : r = share ∨ r ∈ shares := by
  unfold putShare upsert at h
  split at h
  next =>
    obtain ⟨x, hx, rfl⟩ := List.mem_map.mp h
    split
    · exact Or.inl rfl
    · exact Or.inr hx
  next =>
    rcases List.mem_append.mp h with h | h
    · exact Or.inr h
    · exact Or.inl (List.mem_singleton.mp h)

theorem pairwise_append_iff {share : FileShare} (unique : shares.Pairwise fun a b => a.pair ≠ b.pair) :
    ((shares ++ [share]).Pairwise fun a b => a.pair ≠ b.pair) ↔ Absent shares share.pair := by
  rw [List.pairwise_append]
  constructor
  · intro h r hr
    exact h.2.2 r hr share (by simp)
  · intro absent
    refine ⟨unique, List.pairwise_singleton .., ?_⟩
    intro r hr x hx
    rw [List.mem_singleton.mp hx]
    exact absent r hr

/-- A row that replaces one of the same pair keeps the pairs as they are. -/
theorem putShare_pairs {share : FileShare} (drawn : ∀ r ∈ shares, r.id = share.id → r.pair = share.pair)
    (there : ∃ r ∈ shares, r.id = share.id) : (putShare shares share).map FileShare.pair = shares.map FileShare.pair := by
  obtain ⟨r, hr, same⟩ := there
  have conflict : (shares.any fun s => s.id = share.id) = true := List.any_eq_true.mpr ⟨r, hr, by simpa using same⟩
  unfold putShare
  rw [upsert_conflict conflict]
  apply map_updated
  intro x hx hit
  exact (drawn x hx (of_decide_eq_true hit)).symm

theorem putShare_ids {share : FileShare} (ids : (shares.map FileShare.id).Nodup) :
    ((putShare shares share).map FileShare.id).Nodup := by
  by_cases there : ∃ r ∈ shares, r.id = share.id
  · obtain ⟨r, hr, same⟩ := there
    have conflict : (shares.any fun s => s.id = share.id) = true := List.any_eq_true.mpr ⟨r, hr, by simpa using same⟩
    have kept : (putShare shares share).map FileShare.id = shares.map FileShare.id := by
      unfold putShare
      rw [upsert_conflict conflict]
      apply map_updated
      intro x _ hit
      exact (of_decide_eq_true hit).symm
    rw [kept]
    exact ids
  · have fresh : ∀ r ∈ shares, r.id ≠ share.id := fun r hr same => there ⟨r, hr, same⟩
    rw [putShare_new fresh, List.map_append, List.nodup_append]
    refine ⟨ids, by simp, ?_⟩
    intro x hx y hy same
    obtain ⟨r, hr, rfl⟩ := List.mem_map.mp hx
    simp only [List.map_cons, List.map_nil, List.mem_singleton] at hy
    exact fresh r hr (same.trans hy)

end Rows

section Steps

variable {s : Sharing}

namespace ShareInv

theorem setHandler (inv : ShareInv s) {i : Nat} {old : ShareHandler} (new : ShareHandler) (hi : s.handlers[i]? = some old)
    (sharing : ∀ pair, new.sharing pair = true → old.sharing pair = true)
    (update : ∀ req existing, new = .share req (.update existing) → s.drawn existing.id = some req.pair)
    (delete : ∀ pair share, new = .remove pair (.delete share) → s.drawn share.id = some pair) :
    ShareInv (s.setHandler i new) := by
  refine ⟨inv.ids, inv.rows, ?_, ?_, ?_⟩
  · intro req existing h
    rcases List.mem_or_eq_of_mem_set h with h | h
    · exact inv.update req existing h
    · exact update req existing h.symm
  · intro pair share h
    rcases List.mem_or_eq_of_mem_set h with h | h
    · exact inv.delete pair share h
    · exact delete pair share h.symm
  · intro pair hp
    have none := inv.revoked pair hp
    unfold Sharing.isShared at none ⊢
    rw [List.any_eq_false] at none ⊢
    intro h hh shares
    rcases List.mem_or_eq_of_mem_set hh with hh | hh
    · exact none h hh shares
    · rw [hh] at shares
      exact none old (List.mem_of_getElem? hi) (sharing pair shares)

theorem draw (inv : ShareInv s) {id : Uuid} (unused : s.drawn id = none) (pair : Uuid × Uuid) :
    ShareInv { s with drawn := Function.update s.drawn id (some pair) } := by
  have kept : ∀ x p, s.drawn x = some p → Function.update s.drawn id (some pair) x = some p := by
    intro x p hx
    have other : x ≠ id := by
      intro here
      rw [here, unused] at hx
      cases hx
    rw [Function.update_of_ne other]
    exact hx
  exact ⟨inv.ids, fun r hr => kept _ _ (inv.rows r hr), fun req existing h => kept _ _ (inv.update req existing h),
    fun pair share h => kept _ _ (inv.delete pair share h), inv.revoked⟩

theorem put (inv : ShareInv s) {share : FileShare} (drawn : s.drawn share.id = some share.pair) :
    ShareInv { s with shares := putShare s.shares share } := by
  refine ⟨putShare_ids inv.ids, ?_, inv.update, inv.delete, inv.revoked⟩
  intro r hr
  rcases mem_putShare hr with here | hr
  · rw [here]
    exact drawn
  · exact inv.rows r hr

theorem remove (inv : ShareInv s) (id : Uuid) {pair : Uuid × Uuid} :
    ShareInv { s with
      shares := deleteShare s.shares id
      revoked := if s.isShared pair then s.revoked else pair :: s.revoked } := by
  refine ⟨inv.ids.sublist (List.Sublist.map _ List.filter_sublist), fun r hr => inv.rows r (List.mem_of_mem_filter hr),
    inv.update, inv.delete, ?_⟩
  intro p hp
  dsimp only at hp
  split at hp
  next => exact inv.revoked p hp
  next unshared =>
    rcases List.mem_cons.mp hp with here | hp
    · rw [here]
      have none : s.isShared pair = false := by simpa using unshared
      exact none
    · exact inv.revoked p hp

/-- A row under a drawn id is of the pair it was drawn for. -/
theorem pair_of_id (inv : ShareInv s) {r : FileShare} {id : Uuid} {pair : Uuid × Uuid} (hr : r ∈ s.shares)
    (same : r.id = id) (drawn : s.drawn id = some pair) : r.pair = pair := by
  have := inv.rows r hr
  rw [same, drawn] at this
  exact (Option.some.inj this).symm

end ShareInv

theorem next_inv (inv : ShareInv s) {i : Nat} {h : ShareHandler} (hi : s.handlers[i]? = some h) (scan : Scan FileShare)
    (id now : Nat) : ShareInv (s.next i scan id now h) := by
  have mem := List.mem_of_getElem? hi
  cases h with
  | share req stage =>
    cases stage with
    | getFile =>
      simp only [Sharing.next]
      split
      · exact inv.setHandler _ hi (fun _ h => h) (by simp) (by simp)
      · exact inv.setHandler _ hi (by simp [ShareHandler.sharing]) (by simp) (by simp)
    | findExisting =>
      simp only [Sharing.next]
      split
      next => exact inv.setHandler _ hi (fun _ h => h) (by simp) (by simp)
      next existing found =>
        obtain ⟨row, pair⟩ := findExistingShare_some found
        have drawn := inv.rows existing row
        rw [pair] at drawn
        split
        · refine inv.setHandler _ hi (fun _ h => h) ?_ (by simp)
          intro req' existing' same
          cases same
          exact drawn
        · exact inv.setHandler _ hi (by simp [ShareHandler.sharing]) (by simp) (by simp)
    | create =>
      simp only [Sharing.next]
      split
      next unused =>
        have ended := inv.setHandler (.share req .finished) hi (by simp [ShareHandler.sharing]) (by simp) (by simp)
        exact (ended.draw unused req.pair).put (Function.update_self ..)
      next => exact inv
    | update existing =>
      have ended := inv.setHandler (.share req .finished) hi (by simp [ShareHandler.sharing]) (by simp) (by simp)
      exact ended.put (inv.update req existing mem)
    | finished => exact inv
  | remove pair stage =>
    cases stage with
    | getFile =>
      simp only [Sharing.next]
      split
      · exact inv.setHandler _ hi (fun _ h => h) (by simp) (by simp)
      · exact inv.setHandler _ hi (fun _ h => h) (by simp) (by simp)
    | findExisting =>
      simp only [Sharing.next]
      split
      next => exact inv.setHandler _ hi (fun _ h => h) (by simp) (by simp)
      next share found =>
        obtain ⟨row, same⟩ := findExistingShare_some found
        have drawn := inv.rows share row
        rw [same] at drawn
        refine inv.setHandler _ hi (fun _ h => h) (by simp) ?_
        intro pair' share' same
        cases same
        exact drawn
    | delete share =>
      exact (@ShareInv.remove s inv share.id pair).setHandler (.remove pair .finished) hi (fun _ h => h) (by simp) (by simp)
    | finished => exact inv

theorem step_inv_share (inv : ShareInv s) (event : ShareEvent) : ShareInv (s.step event) := by
  cases event with
  | share req =>
    refine ⟨inv.ids, inv.rows, ?_, ?_, ?_⟩
    · intro req' existing h
      rcases List.mem_append.mp h with h | h
      · exact inv.update req' existing h
      · cases List.mem_singleton.mp h
    · intro pair share h
      rcases List.mem_append.mp h with h | h
      · exact inv.delete pair share h
      · cases List.mem_singleton.mp h
    · intro pair hp
      obtain ⟨hp, other⟩ := List.mem_filter.mp hp
      have none := inv.revoked pair hp
      have apart : req.pair ≠ pair := by
        intro same
        rw [same] at other
        simp at other
      have new : ShareHandler.sharing pair (.share req .getFile) = false := by simp [ShareHandler.sharing, apart]
      unfold Sharing.isShared at none ⊢
      simp [Sharing.step, none, new]
  | remove pair =>
    refine ⟨inv.ids, inv.rows, ?_, ?_, ?_⟩
    · intro req' existing h
      rcases List.mem_append.mp h with h | h
      · exact inv.update req' existing h
      · cases List.mem_singleton.mp h
    · intro pair' share h
      rcases List.mem_append.mp h with h | h
      · exact inv.delete pair' share h
      · cases List.mem_singleton.mp h
    · intro pair' hp
      have none := inv.revoked pair' hp
      unfold Sharing.isShared at none ⊢
      simp [Sharing.step, none, ShareHandler.sharing]
  | next i scan id now =>
    simp only [Sharing.step]
    split
    next => exact inv
    next h hi => exact next_inv inv hi scan id now
  | fail i =>
    simp only [Sharing.step]
    split
    next => exact inv
    next h hi =>
      cases h with
      | share req stage => exact inv.setHandler _ hi (by simp [ShareHandler.sharing]) (by simp) (by simp)
      | remove pair stage => exact inv.setHandler _ hi (by simp [ShareHandler.sharing]) (by simp) (by simp)

theorem revocable_congr (s t : Sharing) (files : t.files = s.files) (shares : t.shares = s.shares)
    (revoked : t.revoked = s.revoked) : Revocable t ↔ Revocable s := by
  rw [revocable_iff, revocable_iff]
  unfold Sharing.Live
  rw [files, shares, revoked]

/-- The pair of a running `share_file` is not revoked. -/
theorem sharing_not_revoked (inv : ShareInv s) {i : Nat} {h : ShareHandler} (pair : Uuid × Uuid)
    (hi : s.handlers[i]? = some h) (sharing : h.sharing pair = true) : pair ∉ s.revoked := by
  intro hp
  have none := inv.revoked pair hp
  unfold Sharing.isShared at none
  rw [List.any_eq_false] at none
  exact none h (List.mem_of_getElem? hi) sharing

/-- A new row keeps the shares revocable exactly if its pair had none. -/
theorem put_new_iff (revocable : Revocable s) (share : FileShare) (fresh : ∀ r ∈ s.shares, r.id ≠ share.id)
    (unrevoked : share.pair ∉ s.revoked) :
    Revocable { s with shares := putShare s.shares share } ↔ Absent s.shares share.pair := by
  obtain ⟨unique, effective⟩ := revocable_iff.mp revocable
  rw [revocable_iff, putShare_new fresh]
  constructor
  · intro h
    exact (pairwise_append_iff unique).mp h.1
  · intro absent
    refine ⟨(pairwise_append_iff unique).mpr absent, ?_⟩
    intro pair hp live r hr
    rcases List.mem_append.mp hr with hr | hr
    · exact effective pair hp live r hr
    · rw [List.mem_singleton.mp hr]
      intro same
      exact unrevoked (same ▸ hp)

theorem update_iff (inv : ShareInv s) (revocable : Revocable s) (share : FileShare)
    (drawn : s.drawn share.id = some share.pair) (unrevoked : share.pair ∉ s.revoked) :
    Revocable { s with shares := putShare s.shares share } ↔ ∀ r ∈ s.shares, r.pair = share.pair → r.id = share.id := by
  obtain ⟨unique, effective⟩ := revocable_iff.mp revocable
  by_cases there : ∃ r ∈ s.shares, r.id = share.id
  · -- the row is still there: it is the only one of its pair
    have pairs := putShare_pairs (fun r hr same => inv.pair_of_id hr same drawn) there
    have only : ∀ r ∈ s.shares, r.pair = share.pair → r.id = share.id := by
      obtain ⟨x, hx, same⟩ := there
      intro r hr pair
      have samePair : x.pair = share.pair := inv.pair_of_id hx same drawn
      have nodup : (s.shares.map FileShare.pair).Nodup := by
        rw [List.nodup_iff_pairwise_ne, List.pairwise_map]
        exact unique
      have here : r = x := List.inj_on_of_nodup_map nodup hr hx (pair.trans samePair.symm)
      rw [here, same]
    refine ⟨fun _ => only, fun _ => revocable_iff.mpr ⟨?_, ?_⟩⟩
    · have nodup : ((putShare s.shares share).map FileShare.pair).Nodup := by
        rw [pairs, List.nodup_iff_pairwise_ne, List.pairwise_map]
        exact unique
      rw [List.nodup_iff_pairwise_ne, List.pairwise_map] at nodup
      exact nodup
    · intro pair hp live r hr same
      rcases mem_putShare hr with here | hr
      · rw [here] at same
        exact unrevoked (same ▸ hp)
      · exact effective pair hp live r hr same
  · have fresh : ∀ r ∈ s.shares, r.id ≠ share.id := fun r hr same => there ⟨r, hr, same⟩
    rw [put_new_iff revocable share fresh unrevoked]
    constructor
    · intro absent r hr pair
      exact absurd pair (absent r hr)
    · intro only r hr pair
      exact fresh r hr (only r hr pair)

theorem remove_iff (revocable : Revocable s) (pair : Uuid × Uuid) (id : Uuid) :
    Revocable { s with
      shares := deleteShare s.shares id
      revoked := if s.isShared pair then s.revoked else pair :: s.revoked } ↔
      (s.isShared pair = true ∨ ¬ s.Live pair.1 ∨ ∀ r ∈ s.shares, r.pair = pair → r.id = id) := by
  obtain ⟨unique, effective⟩ := revocable_iff.mp revocable
  have unique' : (deleteShare s.shares id).Pairwise fun a b => a.pair ≠ b.pair := unique.sublist List.filter_sublist
  have gone : Absent (deleteShare s.shares id) pair ↔ ∀ r ∈ s.shares, r.pair = pair → r.id = id := by
    constructor
    · intro absent r hr same
      by_contra other
      exact absent r (List.mem_filter.mpr ⟨hr, by simpa using other⟩) same
    · intro only r hr same
      obtain ⟨hr, other⟩ := List.mem_filter.mp hr
      exact absurd (only r hr same) (by simpa using other)
  have others : ∀ p ∈ s.revoked, s.Live p.1 → Absent (deleteShare s.shares id) p :=
    fun p hp live r hr => effective p hp live r (List.mem_of_mem_filter hr)
  rw [revocable_iff]
  dsimp only
  by_cases shared : s.isShared pair = true
  · rw [if_pos shared]
    exact ⟨fun _ => Or.inl shared, fun _ => ⟨unique', others⟩⟩
  · rw [if_neg shared]
    constructor
    · intro h
      right
      by_cases live : s.Live pair.1
      · exact Or.inr (gone.mp (h.2 pair (List.mem_cons_self ..) live))
      · exact Or.inl live
    · intro cond
      refine ⟨unique', ?_⟩
      intro p hp live
      rcases List.mem_cons.mp hp with here | hp
      · subst here
        rcases cond with h | h | h
        · exact absurd h shared
        · exact absurd live h
        · exact gone.mpr h
      · exact others p hp live

/-- One event keeps the shares revocable exactly if no other request has disturbed the one that writes. -/
theorem step_revocable_iff (event : ShareEvent) (inv : ShareInv s) (revocable : Revocable s) :
    Revocable (s.step event) ↔ Undisturbed s event := by
  have unchanged : ∀ i h, Revocable (s.setHandler i h) := fun i h =>
    (revocable_congr s (s.setHandler i h) rfl rfl rfl).mpr revocable
  cases event with
  | share req =>
    refine ⟨fun _ => trivial, fun _ => revocable_iff.mpr ?_⟩
    obtain ⟨unique, effective⟩ := revocable_iff.mp revocable
    exact ⟨unique, fun pair hp live => effective pair (List.mem_of_mem_filter hp) live⟩
  | remove pair => exact ⟨fun _ => trivial, fun _ => (revocable_congr s (s.step (.remove pair)) rfl rfl rfl).mpr revocable⟩
  | fail i =>
    refine ⟨fun _ => trivial, fun _ => ?_⟩
    simp only [Sharing.step]
    split
    next => exact revocable
    next h _ =>
      cases h with
      | share req stage => exact unchanged i _
      | remove pair stage => exact unchanged i _
  | next i scan id now =>
    simp only [Sharing.step, Undisturbed]
    cases hi : s.handlers[i]? with
    | none => exact ⟨fun _ => trivial, fun _ => revocable⟩
    | some h =>
      cases h with
      | share req stage =>
        cases stage with
        | getFile => exact ⟨fun _ => trivial, fun _ => unchanged i _⟩
        | findExisting =>
          refine ⟨fun _ => trivial, fun _ => ?_⟩
          simp only [Sharing.next]
          split
          next => exact unchanged i _
          next => exact unchanged i _
        | create =>
          have unrevoked := sharing_not_revoked inv req.pair hi (by simp [ShareHandler.sharing])
          simp only [Sharing.next]
          split
          next unused =>
            have fresh : ∀ r ∈ s.shares, r.id ≠ id := by
              intro r hr same
              have drawn := inv.rows r hr
              rw [same, unused] at drawn
              cases drawn
            have new := put_new_iff revocable (req.share id now) fresh unrevoked
            have put := revocable_congr { s with shares := putShare s.shares (req.share id now) }
              { s.setHandler i (.share req .finished) with
                shares := putShare s.shares (req.share id now)
                drawn := Function.update s.drawn id (some req.pair) } rfl rfl rfl
            refine (put.trans new).trans ⟨Or.inr, ?_⟩
            intro cond
            rcases cond with used | absent
            · exact absurd unused used
            · exact absent
          next used => exact ⟨fun _ => Or.inl used, fun _ => revocable⟩
        | update existing =>
          have unrevoked := sharing_not_revoked inv req.pair hi (by simp [ShareHandler.sharing])
          have drawn := inv.update req existing (List.mem_of_getElem? hi)
          have put := revocable_congr { s with shares := putShare s.shares (req.share existing.id existing.createdAt) }
            (s.next i scan id now (.share req (.update existing))) rfl rfl rfl
          exact put.trans (update_iff inv revocable (req.share existing.id existing.createdAt) drawn unrevoked)
        | finished => exact ⟨fun _ => trivial, fun _ => revocable⟩
      | remove pair stage =>
        cases stage with
        | getFile => exact ⟨fun _ => trivial, fun _ => unchanged i _⟩
        | findExisting =>
          refine ⟨fun _ => trivial, fun _ => ?_⟩
          simp only [Sharing.next]
          split
          next => exact unchanged i _
          next => exact unchanged i _
        | delete share =>
          have removed := revocable_congr
            { s with
              shares := deleteShare s.shares share.id
              revoked := if s.isShared pair then s.revoked else pair :: s.revoked }
            (s.next i scan id now (.remove pair (.delete share))) rfl rfl rfl
          exact removed.trans (remove_iff revocable pair share.id)
        | finished => exact ⟨fun _ => trivial, fun _ => revocable⟩

end Steps

section Runs

variable {files : Uuid → Option FileMetadata} {fileKeys : ∀ id file, files id = some file → file.id = id}

theorem start_inv_share : ShareInv (.start files fileKeys) := by
  refine ⟨List.nodup_nil, ?_, ?_, ?_, ?_⟩
  · intro r hr
    cases hr
  · intro req existing h
    cases h
  · intro pair share h
    cases h
  · intro pair h
    cases h

theorem run_inv_share {s : Sharing} (inv : ShareInv s) (events : List ShareEvent) :
    ShareInv (events.foldl Sharing.step s) := by
  induction events generalizing s with
  | nil => exact inv
  | cons event events ih => exact ih (step_inv_share inv event)

/-- Shares stay unique and revocable through a run exactly if every write finds what its lookup found. -/
theorem shares_revocable_iff (events : List ShareEvent) :
    (∀ n, Revocable ((events.take n).foldl Sharing.step (.start files fileKeys))) ↔
      ∀ n event, events[n]? = some event →
        Undisturbed ((events.take n).foldl Sharing.step (.start files fileKeys)) event := by
  have start : Revocable (Sharing.start files fileKeys) := by
    refine ⟨.nil, ?_⟩
    intro pair h
    cases h
  rw [foldl_always_iff_of (fun s event inv revocable => step_revocable_iff event inv revocable)
    (Sharing.start files fileKeys) events fun n _ _ => run_inv_share start_inv_share (events.take n)]
  exact ⟨fun h => h.2, fun h => ⟨start, h⟩⟩

end Runs

def sharedFile : FileMetadata := ⟨3, "plan.txt", "text/plain", 10, ⟨1, 3⟩, none, 1, 1, false, 0, 0⟩

def oneFile : Uuid → Option FileMetadata := fun id => if id = 3 then some sharedFile else none

theorem oneFile_keys (id : Uuid) (file : FileMetadata) (h : oneFile id = some file) : file.id = id := by
  unfold oneFile at h
  split at h
  next here =>
    cases Option.some.inj h
    exact here.symm
  next => cases h

/-- Two shares with user 9 look before either writes; then one removal. -/
def racingShares : List ShareEvent :=
  [.share ⟨3, 9, .viewer, 1⟩, .share ⟨3, 9, .viewer, 1⟩, .next 0 .asStored 0 0, .next 1 .asStored 0 0,
    .next 0 .asStored 0 0, .next 1 .asStored 0 0, .next 0 .asStored 100 0, .next 1 .asStored 101 0,
    .remove (3, 9), .next 2 .asStored 0 0, .next 2 .asStored 0 0, .next 2 .asStored 0 0]

/-- There are two rows, and after the removal the user still sees the file. -/
theorem racing_shares_survive_removal :
    ((racingShares.take 8).foldl Sharing.step (.start oneFile oneFile_keys)).shares.map FileShare.pair =
      [(3, 9), (3, 9)] ∧
    (racingShares.foldl Sharing.step (.start oneFile oneFile_keys)).handlers =
      [.share ⟨3, 9, .viewer, 1⟩ .finished, .share ⟨3, 9, .viewer, 1⟩ .finished, .remove (3, 9) .finished] ∧
    (racingShares.foldl Sharing.step (.start oneFile oneFile_keys)).listSharedFiles .asStored 9 = [sharedFile] := by
  decide

instance (s : Sharing) (fileId : Uuid) : Decidable (s.Live fileId) :=
  decidable_of_iff (∃ file ∈ s.files fileId, file.isTrashed = false) Iff.rfl

instance (shares : List FileShare) (pair : Uuid × Uuid) : Decidable (Absent shares pair) :=
  inferInstanceAs (Decidable (∀ r ∈ shares, r.pair ≠ pair))

instance (s : Sharing) (event : ShareEvent) : Decidable (Undisturbed s event) := by
  unfold Undisturbed
  split
  · split <;> infer_instance
  · infer_instance

/-- User 9 is shared the file, and again with another permission while user 8 is shared it; then user 9's share is
removed. -/
def sharedAndRemoved : List ShareEvent :=
  [.share ⟨3, 9, .viewer, 1⟩, .next 0 .asStored 0 0, .next 0 .asStored 0 0, .next 0 .asStored 100 0,
    .share ⟨3, 9, .editor, 1⟩, .next 1 .asStored 0 0, .share ⟨3, 8, .viewer, 1⟩, .next 1 .asStored 0 0,
    .next 2 .asStored 0 0, .next 1 .asStored 0 0, .next 2 .asStored 0 0, .next 2 .asStored 101 0,
    .remove (3, 9), .next 3 .asStored 0 0, .next 3 .asStored 0 0, .next 3 .asStored 0 0]

theorem shared_and_removed_revocable :
    (∀ n, Revocable ((sharedAndRemoved.take n).foldl Sharing.step (.start oneFile oneFile_keys))) ∧
      (sharedAndRemoved.foldl Sharing.step (.start oneFile oneFile_keys)).revoked = [(3, 9)] ∧
      (sharedAndRemoved.foldl Sharing.step (.start oneFile oneFile_keys)).listSharedFiles .asStored 8 = [sharedFile] := by
  refine ⟨(shares_revocable_iff sharedAndRemoved).mpr ?_, by decide, by decide⟩
  rw [forall_getElem?_iff]
  decide +kernel

end OtterWorks.Files
