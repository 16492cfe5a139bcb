import OtterWorks.Billing.InvoiceTotals
import OtterWorks.Lib.Sorting

namespace OtterWorks.Billing

variable {c : Catalog} {ids : Md5Ids} {reads : Reads} {tenant : Uuid} {periodStart periodEnd : Int}

/-- What the note with an id still has. -/
def remainingOf (notes : List CreditNote) (id : Uuid) : ℚ :=
  ((notes.find? fun n => n.id = id).map CreditNote.remainingAmount).getD 0

/-- What consuming may do to a note of a tenant: it loses some of what remains, or nothing at all. -/
structure Drawn (tenant : Uuid) (n n' : CreditNote) : Prop where
  id : n'.id = n.id
  tenantId : n'.tenantId = n.tenantId
  issuedOn : n'.issuedOn = n.issuedOn
  amount : n'.amount = n.amount
  nonneg : 0 ≤ n'.remainingAmount
  le : n'.remainingAmount ≤ n.remainingAmount
  others : n.tenantId ≠ tenant → n' = n

/-- The credit that the lines of an invoice apply. -/
def invoiceCredit (lines : List InvoiceLine) (invoiceId : Uuid) : ℚ :=
  -((lines.filter fun l => l.invoiceId = invoiceId ∧ l.lineType = .credit).map InvoiceLine.amount).sum

section

variable {listed notes notes' : List CreditNote} {credit : ℚ}

theorem Drawn.refl (tenant : Uuid) (n : CreditNote) : Drawn tenant n n :=
  ⟨rfl, rfl, rfl, rfl, n.remaining_nonneg, le_refl _, fun _ => rfl⟩

theorem Drawn.trans {n n' n'' : CreditNote} (first : Drawn tenant n n') (second : Drawn tenant n' n'') :
    Drawn tenant n n'' := by
  refine ⟨second.id.trans first.id, second.tenantId.trans first.tenantId, second.issuedOn.trans first.issuedOn,
    second.amount.trans first.amount, second.nonneg, second.le.trans first.le, ?_⟩
  intro other
  have kept := first.others other
  subst kept
  exact second.others other

theorem remainingOf_mem (unique : (notes.map CreditNote.id).Nodup) {n : CreditNote} (member : n ∈ notes) :
    remainingOf notes n.id = n.remainingAmount := by
  have found : notes.find? (fun m => m.id = n.id) = some n := by
    cases held : notes.find? (fun m => m.id = n.id) with
    | none =>
      have none := List.find?_eq_none.mp held n member
      simp at none
    | some m =>
      have same : m.id = n.id := by simpa using List.find?_some held
      rw [List.inj_on_of_nodup_map unique (List.mem_of_find?_eq_some held) member same]
  rw [remainingOf, found]
  rfl

theorem setRemaining_drawn {n n' : CreditNote} {x : ℚ} (h : n.setRemaining x = .ok n') :
    n'.id = n.id ∧ n'.tenantId = n.tenantId ∧ n'.issuedOn = n.issuedOn ∧ n'.amount = n.amount ∧
      n'.remainingAmount = roundHalfAway 2 x := by
  unfold CreditNote.setRemaining at h
  split at h
  next => cases h
  next y hy =>
    split at h
    next =>
      cases Except.ok.inj h
      exact ⟨rfl, rfl, rfl, rfl, (numeric12_ok hy).1⟩
    next => cases h

theorem drawn_trans {middle : List CreditNote} (first : List.Forall₂ (Drawn tenant) notes middle)
    (second : List.Forall₂ (Drawn tenant) middle notes') : List.Forall₂ (Drawn tenant) notes notes' :=
  @forall₂_trans _ _ _ (Drawn tenant) (Drawn tenant) (Drawn tenant) (fun _ _ _ => Drawn.trans) _ _ _ first second

theorem drawn_ids (h : List.Forall₂ (Drawn tenant) notes notes') :
    notes'.map CreditNote.id = notes.map CreditNote.id := by
  induction h with
  | nil => rfl
  | cons first _ ih => simp [first.id, ih]

theorem consume_done (listed : List CreditNote) (done : credit ≤ 0) : consumeNotes listed credit notes = .ok notes := by
  cases listed with
  | nil => rfl
  | cons first rest => rw [consumeNotes, if_pos done]

/-- One turn of the loop draws on the note it has listed. -/
theorem reduce_drawn {first : CreditNote} {reduced : List CreditNote} (unique : (notes.map CreditNote.id).Nodup)
    (member : first ∈ notes) (owner : first.tenantId = tenant) (digits : HasDigits 2 credit) (nonneg : 0 ≤ credit)
    (h : (notes.mapM fun n =>
      if n.id = first.id then n.setRemaining (max (n.remainingAmount - credit) 0) else .ok n) = .ok reduced) :
    List.Forall₂ (Drawn tenant) notes reduced ∧
      (∀ n ∈ notes, n.id ≠ first.id → n ∈ reduced) ∧
      ∃ first' ∈ reduced, first'.id = first.id ∧ first'.remainingAmount = max (first.remainingAmount - credit) 0 := by
  have related := mapM_ok.mp h
  refine ⟨?_, ?_, ?_⟩
  · have owned := (@List.forall₂_and_left _ _ _ (fun n => n ∈ notes) notes reduced).mpr ⟨fun n hn => hn, related⟩
    apply owned.imp
    rintro n n' ⟨mem, step⟩
    split at step
    next hit =>
      have same : n = first := List.inj_on_of_nodup_map unique mem member hit
      subst same
      obtain ⟨id, tenantId, issuedOn, amount, remaining⟩ := setRemaining_drawn step
      have kept : roundHalfAway 2 (max (n.remainingAmount - credit) 0) = max (n.remainingAmount - credit) 0 :=
        (n.cents.sub digits).max .zero
      rw [kept] at remaining
      refine ⟨id, tenantId, issuedOn, amount, ?_, ?_, ?_⟩
      · rw [remaining]
        exact le_max_right _ _
      · rw [remaining]
        exact max_le (sub_le_self _ nonneg) n.remaining_nonneg
      · intro other
        exact absurd owner other
    next =>
      cases Except.ok.inj step
      exact Drawn.refl tenant n
  · intro n hn other
    obtain ⟨n', hn', step⟩ := forall₂_left related hn
    rw [if_neg other] at step
    cases Except.ok.inj step
    exact hn'
  · obtain ⟨first', mem, step⟩ := forall₂_left related member
    rw [if_pos rfl] at step
    obtain ⟨id, _, _, _, remaining⟩ := setRemaining_drawn step
    have kept : roundHalfAway 2 (max (first.remainingAmount - credit) 0) = max (first.remainingAmount - credit) 0 :=
      (first.cents.sub digits).max .zero
    exact ⟨first', mem, id, remaining.trans kept⟩

/-- The loop draws on the listed notes one after another: what a later one loses, the earlier ones had not. -/
theorem consumeNotes_drawn (unique : (notes.map CreditNote.id).Nodup) (distinct : (listed.map CreditNote.id).Nodup)
    (member : ∀ n ∈ listed, n ∈ notes ∧ n.tenantId = tenant) (digits : HasDigits 2 credit) (nonneg : 0 ≤ credit)
    (h : consumeNotes listed credit notes = .ok notes') :
    List.Forall₂ (Drawn tenant) notes notes' ∧
      (∀ n ∈ notes, (∀ m ∈ listed, m.id ≠ n.id) → n ∈ notes') ∧
      listed.Pairwise fun a b => remainingOf notes' b.id ≠ b.remainingAmount → remainingOf notes' a.id = 0 := by
  induction listed generalizing notes credit with
  | nil =>
    cases Except.ok.inj h
    exact ⟨List.forall₂_same.mpr fun n _ => Drawn.refl tenant n, fun n hn _ => hn, List.Pairwise.nil⟩
  | cons first rest ih =>
    obtain ⟨firstMem, owner⟩ := member first (List.mem_cons_self ..)
    rw [List.map_cons, List.nodup_cons] at distinct
    by_cases done : credit ≤ 0
    · have kept := Except.ok.inj ((consume_done (first :: rest) done).symm.trans h)
      subst kept
      refine ⟨List.forall₂_same.mpr fun n _ => Drawn.refl tenant n, fun n hn _ => hn, ?_⟩
      apply List.pairwise_of_forall_mem_list
      intro a _ b hb changed
      exact absurd (remainingOf_mem unique (member b hb).1) changed
    · rw [consumeNotes, if_neg done] at h
      obtain ⟨reduced, updated, h⟩ := bind_ok h
      obtain ⟨drawn, untouched, first', firstMem', firstId, firstLeft⟩ :=
        reduce_drawn unique firstMem owner digits nonneg updated
      have uniqueReduced : (reduced.map CreditNote.id).Nodup := by rw [drawn_ids drawn]; exact unique
      have apart : ∀ n ∈ rest, n.id ≠ first.id := fun n hn eq => distinct.1 (List.mem_map.mpr ⟨n, hn, eq⟩)
      have stillThere : ∀ n ∈ rest, n ∈ reduced ∧ n.tenantId = tenant := by
        intro n hn
        obtain ⟨mem, own⟩ := member n (List.mem_cons_of_mem _ hn)
        exact ⟨untouched n mem (apart n hn), own⟩
      obtain ⟨drawnRest, untouchedRest, ordered⟩ := ih uniqueReduced distinct.2 stillThere
        ((digits.sub first.cents).max .zero) (le_max_right _ _) h
      have uniqueEnd : (notes'.map CreditNote.id).Nodup := by rw [drawn_ids drawnRest]; exact uniqueReduced
      refine ⟨drawn_trans drawn drawnRest, ?_, List.pairwise_cons.mpr ⟨?_, ordered⟩⟩
      · intro n hn other
        have notFirst : n.id ≠ first.id := (other first (List.mem_cons_self ..)).symm
        exact untouchedRest n (untouched n hn notFirst) fun m hm => other m (List.mem_cons_of_mem _ hm)
      · intro b hb changed
        -- had the listed note been enough, no later one would have been touched
        have short : first.remainingAmount < credit := by
          by_contra enough
          have zero : max (credit - first.remainingAmount) 0 ≤ 0 := max_le (by linarith) (le_refl 0)
          have kept := Except.ok.inj ((consume_done rest zero).symm.trans h)
          subst kept
          exact changed (remainingOf_mem uniqueReduced (stillThere b hb).1)
        have stays : first' ∈ notes' := by
          apply untouchedRest first' firstMem'
          intro m hm
          rw [firstId]
          exact apart m hm
        rw [← firstId, remainingOf_mem uniqueEnd stays, firstLeft]
        exact max_eq_right (by linarith)

theorem openNotes_facts (unique : (notes.map CreditNote.id).Nodup) (tenant : Uuid) :
    ((openNotes notes tenant).map CreditNote.id).Nodup ∧
      (∀ n, n ∈ openNotes notes tenant ↔ n ∈ notes ∧ n.tenantId = tenant ∧ 0 < n.remainingAmount) ∧
      (openNotes notes tenant).Pairwise fun a b => CreditNote.before a b = true := by
  have sorted : (openNotes notes tenant).Perm (notes.filter (isOpenNote tenant)) := List.mergeSort_perm ..
  refine ⟨?_, ?_, ?_⟩
  · rw [(sorted.map CreditNote.id).nodup_iff]
    exact unique.sublist (List.Sublist.map _ List.filter_sublist)
  · intro n
    rw [sorted.mem_iff, List.mem_filter]
    simp [isOpenNote]
  · apply List.pairwise_mergeSort
    · intro a b c first second
      simp only [CreditNote.before, decide_eq_true_eq] at first second ⊢
      rcases first with earlier | ⟨sameDay, smaller⟩
      · left
        rcases second with later | ⟨sameDay, _⟩
        · exact earlier.trans later
        · exact sameDay ▸ earlier
      · rcases second with later | ⟨sameDay', smaller'⟩
        · left
          exact sameDay ▸ later
        · exact Or.inr ⟨sameDay.trans sameDay', smaller.trans smaller'⟩
    · intro a b
      simp only [CreditNote.before, Bool.or_eq_true, decide_eq_true_eq]
      rcases lt_trichotomy a.issuedOn b.issuedOn with earlier | sameDay | later
      · exact Or.inl (Or.inl earlier)
      · rcases Nat.le_total a.id b.id with smaller | larger
        · exact Or.inl (Or.inr ⟨sameDay, smaller⟩)
        · exact Or.inr (Or.inr ⟨sameDay.symm, larger⟩)
      · exact Or.inr (Or.inl later)

theorem before_antisymm {n m : CreditNote} (first : n.before m = true) (second : m.before n = true) : n.id = m.id := by
  simp only [CreditNote.before, decide_eq_true_eq] at first second
  rcases first with earlier | ⟨_, smaller⟩
  · rcases second with later | ⟨sameDay, _⟩
    · omega
    · omega
  · rcases second with later | ⟨_, larger⟩
    · omega
    · exact Nat.le_antisymm smaller larger

end

section

variable {s : Books c} {usage : Usage c} {plan : Plan} {overage : ℚ} {invoices : List Invoice} {lines : List InvoiceLine}
  {sums : Sums}

theorem Totalling.credited
    (h : Totalling ids reads tenant periodStart periodEnd s usage plan overage invoices lines sums) {charge : Charge}
    (charged : usage.charge reads tenant periodStart periodEnd = some charge) :
    sums.credit = min (openCredit s.creditNotes tenant) charge.due := by
  obtain ⟨_, _, amounts, _⟩ := h.stored
  obtain ⟨rating, rated, rfl⟩ := h.rated
  obtain ⟨subscription, planned⟩ := h.planned
  unfold Usage.charge at charged
  rw [rated, planned] at charged
  cases Option.some.inj charged
  rw [amounts]
  rfl

/-- The credit of the sums is the one on the invoice. -/
theorem Totalling.invoiceCredit
    (h : Totalling ids reads tenant periodStart periodEnd s usage plan overage invoices lines sums) :
    invoiceCredit lines (ids.invoiceOf tenant periodStart) = sums.credit := by
  have own := h.own
  obtain ⟨_, _, amounts, _⟩ := h.stored
  have digits : HasDigits 2 sums.credit := by
    rw [amounts]
    exact (openCredit_digits s.creditNotes tenant).min (hasDigits_round 2 _)
  have negated : roundHalfAway 2 (-sums.credit) = -sums.credit := digits.neg
  have credits : (lines.filter fun l => l.invoiceId = ids.invoiceOf tenant periodStart ∧ l.lineType = .credit) =
      (lines.filter fun l => l.invoiceId = ids.invoiceOf tenant periodStart).filter fun l => l.lineType = .credit := by
    rw [List.filter_filter]
    apply List.filter_congr
    intro l _
    simp [and_comm]
  rw [Billing.invoiceCredit, credits, own]
  simp [periodLines, chargeLines, creditLine, PreviewLine.row, PreviewLine.stored, negated]

end

/-- A call that succeeds takes from the tenant's notes exactly the credit on the invoice, each note before any newer
one, and leaves the other tenants' notes as they are. -/
theorem credit_consumed_exactly {s s' : Books c}
    (h : spIssueInvoice ids reads tenant periodStart periodEnd s = .ok s') :
    tenantCredit s'.creditNotes tenant =
        tenantCredit s.creditNotes tenant - invoiceCredit s'.lines (ids.invoiceOf tenant periodStart) ∧
      List.Forall₂ (Drawn tenant) s.creditNotes s'.creditNotes ∧
      ∀ n ∈ s.creditNotes, ∀ m ∈ s.creditNotes, n.tenantId = tenant → m.tenantId = tenant → n.before m = true →
        n.id ≠ m.id → remainingOf s'.creditNotes m.id ≠ m.remainingAmount → remainingOf s'.creditNotes n.id = 0 := by
  obtain ⟨plan, _, overage, invoices, sums, totalling⟩ := issued_totalling h
  obtain ⟨charge, opened, charged, issued⟩ := spIssueInvoice_iff.mp h
  obtain ⟨nonneg, digits, _, worth⟩ := issued.credit
  obtain ⟨distinct, listed, sorted⟩ := openNotes_facts s.creditIds tenant
  obtain ⟨drawn, untouched, ordered⟩ := consumeNotes_drawn s.creditIds distinct
    (fun n hn => ⟨((listed n).mp hn).1, ((listed n).mp hn).2.1⟩) digits nonneg issued.consumed
  refine ⟨?_, drawn, ?_⟩
  · rw [totalling.invoiceCredit, totalling.credited issued.rated, ← openCredit_eq, ← openCredit_eq]
    exact worth
  · intro n hn m hm own own' before apart changed
    have untouchedNote : ∀ k ∈ s.creditNotes, k ∉ openNotes s.creditNotes tenant →
        remainingOf s'.creditNotes k.id = k.remainingAmount := by
      intro k hk closed
      have unique : (s'.creditNotes.map CreditNote.id).Nodup := s'.creditIds
      apply remainingOf_mem unique
      apply untouched k hk
      intro o ho same
      have member := ((listed o).mp ho).1
      exact closed (List.inj_on_of_nodup_map s.creditIds member hk same ▸ ho)
    have touched : m ∈ openNotes s.creditNotes tenant := by
      by_contra closed
      exact changed (untouchedNote m hm closed)
    by_cases live : n ∈ openNotes s.creditNotes tenant
    · have different : n ≠ m := fun same => apart (congrArg CreditNote.id same)
      rcases pairwise_or_swap (sorted.and ordered) live touched different with ⟨_, first⟩ | ⟨backwards, _⟩
      · exact first changed
      · exact absurd (before_antisymm before backwards) apart
    · have spent : n.remainingAmount = 0 := by
        by_contra left
        exact live ((listed n).mpr ⟨hn, own, lt_of_le_of_ne n.remaining_nonneg (Ne.symm left)⟩)
      rw [untouchedNote n hn live, spent]

def creditOf40 : CreditNote :=
  ⟨2, 1, 5, 40, 40, by decide, by decide, by decide, by decide, by decide +kernel⟩

theorem openNotes_twoNotes (creditIds : ([creditOf40, creditOf30].map CreditNote.id).Nodup) :
    openNotes (exemptBooks [creditOf40, creditOf30] creditIds).creditNotes 1 = [creditOf30, creditOf40] := by
  have taken : [creditOf40, creditOf30].filter (isOpenNote 1) = [creditOf40, creditOf30] := by decide +kernel
  have before : creditOf40.before creditOf30 = false := by decide +kernel
  show ([creditOf40, creditOf30].filter (isOpenNote 1)).mergeSort CreditNote.before = _
  rw [taken]
  simp [List.mergeSort, List.MergeSort.Internal.splitInTwo, before]

/-- Of an invoice of 49 the older note pays 30 and the newer one 19. -/
theorem older_note_first : ∃ s' : Books exemptCatalog,
    (tenantCredit s'.creditNotes 1 =
        tenantCredit [creditOf40, creditOf30] 1 - invoiceCredit s'.lines (plainIds.invoiceOf 1 0) ∧
      List.Forall₂ (Drawn 1) [creditOf40, creditOf30] s'.creditNotes ∧
      ∀ n ∈ [creditOf40, creditOf30], ∀ m ∈ [creditOf40, creditOf30], n.tenantId = 1 → m.tenantId = 1 →
        n.before m = true → n.id ≠ m.id → remainingOf s'.creditNotes m.id ≠ m.remainingAmount →
          remainingOf s'.creditNotes n.id = 0) ∧
      s'.creditNotes.map CreditNote.remainingAmount = [21, 0] := by
  have passes : (spIssueInvoice plainIds asStored 1 0 30
      (exemptBooks [creditOf40, creditOf30] (by decide))).toOption.map
        (fun s' => s'.creditNotes.map CreditNote.remainingAmount) = some [21, 0] := by
    unfold spIssueInvoice
    rw [openNotes_twoNotes]
    decide +kernel
  cases issued : spIssueInvoice plainIds asStored 1 0 30 (exemptBooks [creditOf40, creditOf30] (by decide)) with
  | error e =>
    rw [issued] at passes
    cases passes
  | ok s' =>
    rw [issued] at passes
    exact ⟨s', credit_consumed_exactly issued, Option.some.inj passes⟩

end OtterWorks.Billing
