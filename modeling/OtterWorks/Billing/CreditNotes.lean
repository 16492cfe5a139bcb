import OtterWorks.Billing.Invoicing

namespace OtterWorks.Billing

/-- What a tenant's notes are still worth. -/
def tenantCredit (notes : List CreditNote) (tenant : Uuid) : ℚ :=
  ((notes.filter fun n => n.tenantId = tenant).map CreditNote.remainingAmount).sum

/-- Notes that are used up count for nothing. -/
theorem openCredit_eq (notes : List CreditNote) (tenant : Uuid) : openCredit notes tenant = tenantCredit notes tenant := by
  unfold openCredit tenantCredit
  induction notes with
  | nil => rfl
  | cons n notes ih =>
    by_cases owner : n.tenantId = tenant
    · rcases n.remaining_nonneg.lt_or_eq with pos | zero
      · have counts : isOpenNote tenant n = true := by simp [isOpenNote, owner, pos]
        rw [List.filter_cons_of_pos counts, List.filter_cons_of_pos (by simpa using owner), List.map_cons,
          List.map_cons, List.sum_cons, List.sum_cons, ih]
      · have used : isOpenNote tenant n = false := by simp [isOpenNote, ← zero]
        rw [List.filter_cons_of_neg (by simp [used]), List.filter_cons_of_pos (by simpa using owner), List.map_cons,
          List.sum_cons, ← zero, zero_add, ih]
    · have other : isOpenNote tenant n = false := by simp [isOpenNote, owner]
      rw [List.filter_cons_of_neg (by simp [other]), List.filter_cons_of_neg (by simpa using owner), ih]

theorem openCredit_digits (notes : List CreditNote) (tenant : Uuid) : HasDigits 2 (openCredit notes tenant) := by
  apply HasDigits.sum
  intro x hx
  obtain ⟨n, _, rfl⟩ := List.mem_map.mp hx
  exact n.cents

theorem openCredit_nonneg (notes : List CreditNote) (tenant : Uuid) : 0 ≤ openCredit notes tenant := by
  apply List.sum_nonneg
  intro x hx
  obtain ⟨n, _, rfl⟩ := List.mem_map.mp hx
  exact n.remaining_nonneg

theorem numeric12_exact {x : ℚ} (digits : HasDigits 2 x) (within : |x| < 10 ^ 10) : numeric12 x = .ok x := by
  unfold numeric12
  rw [digits, if_pos within]

theorem setRemaining_ok (n : CreditNote) {x : ℚ} (digits : HasDigits 2 x) (nonneg : 0 ≤ x)
    (le : x ≤ n.remainingAmount) : ∃ n', n.setRemaining x = .ok n' ∧ n'.id = n.id ∧ n'.tenantId = n.tenantId ∧
      n'.remainingAmount = x := by
  have within : |x| < 10 ^ 10 := by
    rw [abs_of_nonneg nonneg]
    exact (le.trans n.remaining_le).trans_lt n.amount_lt
  have stored := numeric12_exact digits within
  unfold CreditNote.setRemaining
  split
  next e he =>
    rw [stored] at he
    cases he
  next y hy =>
    rw [stored] at hy
    cases Except.ok.inj hy
    rw [dif_pos ⟨nonneg, le.trans n.remaining_le⟩]
    exact ⟨_, rfl, rfl, rfl, rfl⟩

/-- What one turn of the loop makes of a note. -/
structure Reduced (listed : CreditNote) (credit : ℚ) (n n' : CreditNote) : Prop where
  id : n'.id = n.id
  tenantId : n'.tenantId = n.tenantId
  hit : n.id = listed.id → n'.remainingAmount = max (n.remainingAmount - credit) 0
  miss : n.id ≠ listed.id → n' = n

theorem reduce_ok (listed : CreditNote) {credit : ℚ} (digits : HasDigits 2 credit) (nonneg : 0 ≤ credit)
    (notes : List CreditNote) : ∃ notes', (notes.mapM fun n =>
      if n.id = listed.id then n.setRemaining (max (n.remainingAmount - credit) 0) else .ok n) = .ok notes' ∧
      List.Forall₂ (Reduced listed credit) notes notes' := by
  have each : ∀ n ∈ notes, ∃ n',
      (if n.id = listed.id then n.setRemaining (max (n.remainingAmount - credit) 0) else .ok n) = .ok n' ∧
        Reduced listed credit n n' := by
    intro n _
    by_cases hit : n.id = listed.id
    · have le : max (n.remainingAmount - credit) 0 ≤ n.remainingAmount :=
        max_le (sub_le_self _ nonneg) n.remaining_nonneg
      obtain ⟨n', stored, id, tenantId, remaining⟩ :=
        setRemaining_ok n ((n.cents.sub digits).max .zero) (le_max_right _ _) le
      exact ⟨n', by rw [if_pos hit, stored], id, tenantId, fun _ => remaining, fun miss => absurd hit miss⟩
    · exact ⟨n, by rw [if_neg hit], rfl, rfl, fun h => absurd h hit, fun _ => rfl⟩
  obtain ⟨notes', related⟩ := exists_forall₂ each
  exact ⟨notes', mapM_ok.mpr (related.imp fun _ _ h => h.1), related.imp fun _ _ h => h.2⟩

theorem reduced_ids {listed : CreditNote} {credit : ℚ} {notes notes' : List CreditNote}
    (h : List.Forall₂ (Reduced listed credit) notes notes') : notes'.map CreditNote.id = notes.map CreditNote.id := by
  induction h with
  | nil => rfl
  | cons first _ ih => simp [first.id, ih]

theorem reduced_missed {listed : CreditNote} {credit : ℚ} {notes notes' : List CreditNote}
    (h : List.Forall₂ (Reduced listed credit) notes notes') (miss : ∀ n ∈ notes, n.id ≠ listed.id) :
    notes' = notes := by
  induction h with
  | nil => rfl
  | cons first _ ih =>
    rw [first.miss (miss _ (List.mem_cons_self ..)), ih fun n hn => miss n (List.mem_cons_of_mem _ hn)]

/-- The tenant's credit shrinks by what the listed note gives. -/
theorem reduced_credit {listed : CreditNote} {credit : ℚ} {tenant : Uuid} {notes notes' : List CreditNote}
    (h : List.Forall₂ (Reduced listed credit) notes notes') (ids : (notes.map CreditNote.id).Nodup)
    (member : listed ∈ notes) (owner : listed.tenantId = tenant) :
    tenantCredit notes' tenant = tenantCredit notes tenant - min listed.remainingAmount credit := by
  induction h with
  | nil => cases member
  | @cons n n' rest rest' first others ih =>
    rw [List.map_cons, List.nodup_cons] at ids
    by_cases here : n.id = listed.id
    · -- the listed note itself: the others have other ids
      have same : listed = n := by
        rcases List.mem_cons.mp member with same | later
        · exact same
        · exact absurd (List.mem_map.mpr ⟨listed, later, here.symm⟩) ids.1
      subst same
      have untouched : rest' = rest := by
        apply reduced_missed others
        intro x hx eq
        exact ids.1 (List.mem_map.mpr ⟨x, hx, eq⟩)
      have owner' : n'.tenantId = tenant := first.tenantId.trans owner
      have left : max (listed.remainingAmount - credit) 0 = listed.remainingAmount - min listed.remainingAmount credit := by
        rcases le_total listed.remainingAmount credit with le | le
        · rw [min_eq_left le, max_eq_right (by linarith)]
          ring
        · rw [min_eq_right le, max_eq_left (by linarith)]
      unfold tenantCredit
      rw [untouched, List.filter_cons_of_pos (by simpa using owner'), List.filter_cons_of_pos (by simpa using owner),
        List.map_cons, List.map_cons, List.sum_cons, List.sum_cons, first.hit rfl, left]
      ring
    · have later : listed ∈ rest := by
        rcases List.mem_cons.mp member with same | later
        · exact absurd (by rw [same]) here
        · exact later
      have ih := ih ids.2 later
      have kept : n' = n := first.miss here
      subst kept
      unfold tenantCredit at ih ⊢
      by_cases own : n'.tenantId = tenant
      · rw [List.filter_cons_of_pos (by simpa using own), List.filter_cons_of_pos (by simpa using own), List.map_cons,
          List.map_cons, List.sum_cons, List.sum_cons, ih]
        ring
      · rw [List.filter_cons_of_neg (by simpa using own), List.filter_cons_of_neg (by simpa using own), ih]

/-- The loop uses up exactly the credit, if the notes it has listed are worth as much. -/
theorem consumeNotes_ok {tenant : Uuid} {listed notes : List CreditNote} {credit : ℚ}
    (ids : (notes.map CreditNote.id).Nodup) (distinct : (listed.map CreditNote.id).Nodup)
    (member : ∀ n ∈ listed, n ∈ notes ∧ n.tenantId = tenant) (digits : HasDigits 2 credit) (nonneg : 0 ≤ credit)
    (enough : credit ≤ (listed.map CreditNote.remainingAmount).sum) :
    ∃ notes', consumeNotes listed credit notes = .ok notes' ∧
      notes'.map CreditNote.id = notes.map CreditNote.id ∧
      tenantCredit notes' tenant = tenantCredit notes tenant - credit := by
  induction listed generalizing notes credit with
  | nil =>
    have zero : credit = 0 := le_antisymm enough nonneg
    exact ⟨notes, rfl, rfl, by rw [zero, sub_zero]⟩
  | cons first rest ih =>
    by_cases done : credit ≤ 0
    · have zero : credit = 0 := le_antisymm done nonneg
      exact ⟨notes, by rw [consumeNotes, if_pos done], rfl, by rw [zero, sub_zero]⟩
    · obtain ⟨firstMem, owner⟩ := member first (List.mem_cons_self ..)
      obtain ⟨reduced, updated, related⟩ := reduce_ok first digits nonneg notes
      rw [List.map_cons, List.nodup_cons] at distinct
      rw [List.map_cons, List.sum_cons] at enough
      have sameIds := reduced_ids related
      have stillThere : ∀ n ∈ rest, n ∈ reduced ∧ n.tenantId = tenant := by
        intro n hn
        obtain ⟨mem, own⟩ := member n (List.mem_cons_of_mem _ hn)
        obtain ⟨n', mem', hr⟩ := forall₂_left related mem
        have other : n.id ≠ first.id := fun eq => distinct.1 (List.mem_map.mpr ⟨n, hn, eq⟩)
        rw [hr.miss other] at mem'
        exact ⟨mem', own⟩
      have left : max (credit - first.remainingAmount) 0 ≤ (rest.map CreditNote.remainingAmount).sum := by
        apply max_le (by linarith)
        apply List.sum_nonneg
        intro x hx
        obtain ⟨n, _, rfl⟩ := List.mem_map.mp hx
        exact n.remaining_nonneg
      obtain ⟨notes', consumed, ids', worth⟩ := ih (by rw [sameIds]; exact ids) distinct.2 stillThere
        ((digits.sub first.cents).max .zero) (le_max_right _ _) left
      refine ⟨notes', ?_, ids'.trans sameIds, ?_⟩
      · rw [consumeNotes, if_neg done, updated]
        exact consumed
      · rw [worth, reduced_credit related ids firstMem owner]
        rcases le_total first.remainingAmount credit with le | le
        · rw [min_eq_left le, max_eq_left (by linarith)]
          ring
        · rw [min_eq_right le, max_eq_right (by linarith)]
          ring

/-- Consuming from a tenant's open notes. -/
theorem consume_open {tenant : Uuid} {notes : List CreditNote} {credit : ℚ} (ids : (notes.map CreditNote.id).Nodup)
    (digits : HasDigits 2 credit) (nonneg : 0 ≤ credit) (enough : credit ≤ openCredit notes tenant) :
    ∃ notes', consumeNotes (openNotes notes tenant) credit notes = .ok notes' ∧
      (notes'.map CreditNote.id).Nodup ∧ openCredit notes' tenant = openCredit notes tenant - credit := by
  have sorted : (openNotes notes tenant).Perm (notes.filter (isOpenNote tenant)) := List.mergeSort_perm ..
  have distinct : ((openNotes notes tenant).map CreditNote.id).Nodup := by
    rw [(sorted.map CreditNote.id).nodup_iff]
    exact ids.sublist (List.Sublist.map _ List.filter_sublist)
  have member : ∀ n ∈ openNotes notes tenant, n ∈ notes ∧ n.tenantId = tenant := by
    intro n hn
    have inside := List.mem_filter.mp (sorted.mem_iff.mp hn)
    simp only [isOpenNote, decide_eq_true_eq] at inside
    exact ⟨inside.1, inside.2.1⟩
  have worth : ((openNotes notes tenant).map CreditNote.remainingAmount).sum = openCredit notes tenant :=
    (sorted.map CreditNote.remainingAmount).sum_eq
  obtain ⟨notes', consumed, sameIds, left⟩ :=
    consumeNotes_ok ids distinct member digits nonneg (by rw [worth]; exact enough)
  refine ⟨notes', consumed, by rw [sameIds]; exact ids, ?_⟩
  rw [openCredit_eq, openCredit_eq, left]

theorem consume_nothing {notes : List CreditNote} (listed : List CreditNote) :
    consumeNotes listed 0 notes = .ok notes := by
  cases listed with
  | nil => rfl
  | cons first rest => rw [consumeNotes, if_pos (le_refl 0)]

end OtterWorks.Billing
