import OtterWorks.Billing.CreditNotes
import OtterWorks.Billing.Rollover

namespace OtterWorks.Billing

variable {c : Catalog} {ids : Md5Ids} {reads : Reads} {tenant : Uuid} {periodStart periodEnd : Int}

/-- The invoice of a period before credit: the lines that charge, and the amount due for the period. -/
structure Charge where
  lines : List PreviewLine
  due : ℚ

def Charge.sums (charge : Charge) : Sums := charge.lines.foldl Sums.add ⟨0, 0, 0⟩

/-- What the rating and the plan of a period charge. -/
def Usage.charge (reads : Reads) (u : Usage c) (tenant : Uuid) (periodStart periodEnd : Int) : Option Charge :=
  match fnUsageRating reads.rating u tenant periodStart periodEnd, u.planOf reads.preview tenant periodStart periodEnd with
  | .ok (some rating), some (_, plan) =>
    let tax := periodTax c tenant plan rating.overageAmount
    some ⟨chargeLines plan rating.overageAmount tax,
      roundHalfAway 2 (plan.monthlyFee + rating.overageAmount + tax)⟩
  | _, _ => none

section Preview

variable {u : Usage c} {notes : List CreditNote}

theorem fnInvoicePreview_iff {preview : List PreviewLine} :
    fnInvoicePreview reads u notes tenant periodStart periodEnd = .ok (some preview) ↔
      ∃ charge, u.charge reads tenant periodStart periodEnd = some charge ∧
        preview = charge.lines ++ [creditLine (min (openCredit notes tenant) charge.due)] := by
  unfold fnInvoicePreview Usage.charge
  cases fnUsageRating reads.rating u tenant periodStart periodEnd with
  | error e => simp [bind, Except.bind]
  | ok rating? =>
    cases u.planOf reads.preview tenant periodStart periodEnd with
    | none => simp [bind, Except.bind]
    | some found =>
      cases rating? with
      | none => simp [bind, Except.bind]
      | some rating =>
        simp only [bind, Except.bind, Except.ok.injEq, Option.some.injEq]
        constructor
        · intro h
          exact ⟨_, rfl, h.symm⟩
        · rintro ⟨charge, rfl, h⟩
          exact h.symm

theorem suspendedPart_nonneg {s : Subscription} {part : ℚ} (h : suspendedPart s periodStart periodEnd = some part) :
    0 ≤ part := by
  unfold suspendedPart at h
  split at h
  next =>
    split at h
    next =>
      cases Option.some.inj h
      exact roundHalfAway_nonneg _ (by positivity)
    next => cases h
  next => cases h

theorem prorate_nonneg {digits : Nat} {x : ℚ} {part : Option ℚ} (hx : 0 ≤ x) (hp : ∀ p, part = some p → 0 ≤ p) :
    0 ≤ prorate digits x part := by
  cases part with
  | none => exact hx
  | some p => exact roundHalfAway_nonneg _ (mul_nonneg hx (hp p rfl))

theorem overage_nonneg {scan : Scan Subscription} {rating : UsageRating}
    (h : fnUsageRating scan u tenant periodStart periodEnd = .ok (some rating)) : 0 ≤ rating.overageAmount := by
  obtain ⟨s, p, rated⟩ := fnUsageRating_fields h
  have rate := p.overageRate_nonneg
  have first : (0 : ℚ) ≤ (rating.firstTierUnits : ℚ) := by
    rw [rated.first]
    exact_mod_cast le_min (le_max_right _ 0) (by norm_num)
  have second : (0 : ℚ) ≤ (rating.secondTierUnits : ℚ) := by
    rw [rated.second]
    exact_mod_cast le_max_right _ 0
  rw [rated.amount]
  apply prorate_nonneg
  · apply roundHalfAway_nonneg
    positivity
  · intro part hp
    exact suspendedPart_nonneg hp

theorem charge_nonneg {charge : Charge} (h : u.charge reads tenant periodStart periodEnd = some charge) :
    0 ≤ charge.due := by
  unfold Usage.charge at h
  split at h
  next rating s plan hrating _ =>
    cases Option.some.inj h
    have overage := overage_nonneg hrating
    have fee := plan.monthlyFee_nonneg
    have tax : 0 ≤ periodTax c tenant plan rating.overageAmount := by
      unfold periodTax
      split
      · exact le_refl 0
      · positivity
    apply roundHalfAway_nonneg
    positivity
  next => cases h

theorem charge_due {charge : Charge} (h : u.charge reads tenant periodStart periodEnd = some charge) :
    HasDigits 2 charge.due := by
  unfold Usage.charge at h
  split at h
  next =>
    cases Option.some.inj h
    exact hasDigits_round 2 _
  next => cases h

end Preview

section Lines

variable {invoiceId : Uuid} {state state' : List InvoiceLine × Sums}

theorem issueLine_ok {line : PreviewLine} (h : issueLine ids invoiceId state line = .ok state') :
    ∃ l : InvoiceLine, state' = (state.1 ++ [l], state.2.add line) ∧ l.invoiceId = invoiceId ∧
      numeric12 (if line.lineType = .credit then line.total else line.amount) = .ok l.amount := by
  obtain ⟨amount, hamount, h⟩ := bind_ok h
  split at h
  next => cases h
  next =>
    cases Except.ok.inj h
    exact ⟨_, rfl, rfl, hamount⟩

/-- What the column `amount` of a line is filled with. -/
def PreviewLine.stored (line : PreviewLine) : ℚ := if line.lineType = .credit then line.total else line.amount

/-- The row a line is stored as. -/
def PreviewLine.row (ids : Md5Ids) (invoiceId : Uuid) (line : PreviewLine) : InvoiceLine :=
  ⟨ids.lineId invoiceId line.lineNo, invoiceId, line.lineNo, line.lineType, line.description,
    roundHalfAway 2 line.stored⟩

theorem issueLine_row {line : PreviewLine} (h : issueLine ids invoiceId state line = .ok state') :
    state' = (state.1 ++ [line.row ids invoiceId], state.2.add line) := by
  obtain ⟨amount, hamount, h⟩ := bind_ok h
  split at h
  next => cases h
  next =>
    cases Except.ok.inj h
    rw [(numeric12_ok hamount).1]
    rfl

theorem issueLines_rows {lines : List PreviewLine} (h : lines.foldlM (issueLine ids invoiceId) state = .ok state') :
    state' = (state.1 ++ lines.map (PreviewLine.row ids invoiceId), lines.foldl Sums.add state.2) := by
  induction lines generalizing state with
  | nil =>
    cases Except.ok.inj h
    simp
  | cons line lines ih =>
    rw [List.foldlM_cons] at h
    obtain ⟨next, first, rest⟩ := bind_ok h
    rw [ih rest, issueLine_row first]
    simp

theorem issueLines_ok {lines : List PreviewLine} (h : lines.foldlM (issueLine ids invoiceId) state = .ok state') :
    ∃ new : List InvoiceLine, state' = (state.1 ++ new, lines.foldl Sums.add state.2) ∧
      ∀ l ∈ new, l.invoiceId = invoiceId := by
  refine ⟨_, issueLines_rows h, ?_⟩
  intro l hl
  obtain ⟨line, _, rfl⟩ := List.mem_map.mp hl
  rfl

/-- Where the credit line went in with one amount, it goes in with any other that fits its column. -/
theorem issueLine_credit {credit credit' : ℚ} (h : issueLine ids invoiceId state (creditLine credit) = .ok state')
    (digits : HasDigits 2 (-credit')) (within : |(-credit')| < 10 ^ 10) : ∃ l : InvoiceLine,
      issueLine ids invoiceId state (creditLine credit') = .ok (state.1 ++ [l], state.2.add (creditLine credit')) ∧
        l.amount = -credit' ∧ l.invoiceId = invoiceId := by
  obtain ⟨amount, _, h⟩ := bind_ok h
  split at h
  next => cases h
  next apart =>
    refine ⟨⟨ids.lineId invoiceId 5, invoiceId, 5, .credit, "credit notes", -credit'⟩, ?_, rfl, rfl⟩
    have stored : numeric12 (if (creditLine credit').lineType = .credit then (creditLine credit').total
        else (creditLine credit').amount) = .ok (-credit') := numeric12_exact digits within
    unfold issueLine
    rw [stored]
    exact if_neg apart

theorem sums_digits {lines : List PreviewLine} {sums : Sums}
    (h : HasDigits 2 sums.subtotal ∧ HasDigits 2 sums.tax) :
    HasDigits 2 (lines.foldl Sums.add sums).subtotal ∧ HasDigits 2 (lines.foldl Sums.add sums).tax := by
  induction lines generalizing sums with
  | nil => exact h
  | cons line lines ih =>
    apply ih
    unfold Sums.add
    cases line.lineType with
    | plan => exact ⟨h.1.add (hasDigits_round 2 _), h.2⟩
    | usage => exact ⟨h.1.add (hasDigits_round 2 _), h.2⟩
    | tax => exact ⟨h.1, h.2.add (hasDigits_round 2 _)⟩
    | credit => exact h

end Lines

section Invoices

theorem setAmounts_again {subtotal tax total total' : ℚ} {i i' : Invoice}
    (h : i.setAmounts subtotal tax total = .ok i') : i'.setAmounts subtotal tax total' = i.setAmounts subtotal tax total' := by
  obtain ⟨s, hs, h⟩ := bind_ok h
  obtain ⟨t, ht, h⟩ := bind_ok h
  obtain ⟨x, hx, h⟩ := bind_ok h
  split at h
  next =>
    cases Except.ok.inj h
    rfl
  next => cases h

theorem setAmounts_ok {subtotal tax total : ℚ} {i i' : Invoice} (h : i.setAmounts subtotal tax total = .ok i') :
    i'.id = i.id ∧ i'.status = i.status ∧ 0 ≤ i'.total ∧ numeric12 total = .ok i'.total := by
  obtain ⟨s, hs, h⟩ := bind_ok h
  obtain ⟨t, ht, h⟩ := bind_ok h
  obtain ⟨x, hx, h⟩ := bind_ok h
  split at h
  next nonneg =>
    cases Except.ok.inj h
    exact ⟨rfl, rfl, nonneg.2.2, hx⟩
  next => cases h

/-- A larger total fits exactly if its column holds it. -/
theorem setAmounts_larger {subtotal tax total total' : ℚ} {i i' : Invoice}
    (h : i.setAmounts subtotal tax total = .ok i') (digits : HasDigits 2 total') (nonneg : 0 ≤ total')
    (within : |total'| < 10 ^ 10) : ∃ i'', i.setAmounts subtotal tax total' = .ok i'' := by
  obtain ⟨s, hs, h⟩ := bind_ok h
  obtain ⟨t, ht, h⟩ := bind_ok h
  obtain ⟨x, hx, h⟩ := bind_ok h
  split at h
  next old =>
    unfold Invoice.setAmounts
    simp only [hs, ht, numeric12_exact digits within, bind, Except.bind]
    rw [dif_pos ⟨old.1, old.2.1, nonneg⟩]
    exact ⟨_, rfl⟩
  next => cases h

theorem setAmounts_overflow {subtotal tax total total' : ℚ} {i i' : Invoice}
    (h : i.setAmounts subtotal tax total = .ok i') (overflow : 10 ^ 10 ≤ |roundHalfAway 2 total'|) :
    ∃ e, i.setAmounts subtotal tax total' = .error e := by
  obtain ⟨s, hs, h⟩ := bind_ok h
  obtain ⟨t, ht, h⟩ := bind_ok h
  have refused : numeric12 total' = .error .numericOutOfRange := if_neg (not_lt.mpr overflow)
  unfold Invoice.setAmounts
  simp only [hs, ht, refused, bind, Except.bind]
  exact ⟨_, rfl⟩

end Invoices

/-- The credit that is left for a second call, and the total it would store. -/
def Charge.credit (charge : Charge) (opened : ℚ) : ℚ := min (opened - min opened charge.due) charge.due

def Charge.total (charge : Charge) (credit : ℚ) : ℚ := charge.sums.subtotal + charge.sums.tax - credit

theorem Charge.total_digits {charge : Charge} {credit : ℚ} (digits : HasDigits 2 credit) :
    HasDigits 2 (charge.total credit) := by
  have sums : HasDigits 2 charge.sums.subtotal ∧ HasDigits 2 charge.sums.tax := sums_digits ⟨.zero, .zero⟩
  exact (sums.1.add sums.2).sub digits

theorem Charge.credit_bounds {charge : Charge} {opened : ℚ} (ho : 0 ≤ opened) (hd : 0 ≤ charge.due) :
    0 ≤ charge.credit opened ∧ charge.credit opened ≤ min opened charge.due := by
  unfold Charge.credit
  have least : 0 ≤ min opened charge.due := le_min ho hd
  refine ⟨le_min (by linarith [min_le_left opened charge.due]) hd, le_min ?_ (min_le_right _ _)⟩
  linarith [min_le_left (opened - min opened charge.due) charge.due]

/-- The update of the invoice's amounts, over the rows of the table. -/
def Charge.setTotal (charge : Charge) (invoiceId : Uuid) (credit : ℚ) (i : Invoice) : Except SqlError Invoice :=
  if i.id = invoiceId then
    i.setAmounts (roundHalfAway 2 charge.sums.subtotal) (roundHalfAway 2 charge.sums.tax)
      (roundHalfAway 2 (charge.total credit))
  else .ok i

section SetTotal

variable {charge : Charge} {invoiceId : Uuid} {credit credit' : ℚ} {i i' : Invoice}

theorem setTotal_ok (h : charge.setTotal invoiceId credit i = .ok i') : i'.id = i.id ∧ i'.status = i.status := by
  unfold Charge.setTotal at h
  split at h
  next =>
    obtain ⟨id, status, _⟩ := setAmounts_ok h
    exact ⟨id, status⟩
  next =>
    cases Except.ok.inj h
    exact ⟨rfl, rfl⟩

theorem setTotal_again (h : charge.setTotal invoiceId credit i = .ok i') :
    charge.setTotal invoiceId credit' i' = charge.setTotal invoiceId credit' i := by
  have id := (setTotal_ok h).1
  unfold Charge.setTotal at h ⊢
  rw [id]
  split at h
  next hit =>
    rw [if_pos hit, if_pos hit]
    exact setAmounts_again h
  next miss =>
    cases Except.ok.inj h
    rfl

theorem setTotal_smaller (h : charge.setTotal invoiceId credit i = .ok i') (digits : HasDigits 2 credit')
    (nonneg : 0 ≤ charge.total credit') (within : charge.total credit' < 10 ^ 10) :
    ∃ i'', charge.setTotal invoiceId credit' i = .ok i'' := by
  have total := charge.total_digits digits
  have exact : roundHalfAway 2 (charge.total credit') = charge.total credit' := total
  unfold Charge.setTotal at h ⊢
  split at h
  next hit =>
    rw [if_pos hit, exact]
    exact setAmounts_larger h total nonneg (by rwa [abs_of_nonneg nonneg])
  next miss => exact ⟨i, if_neg miss⟩

theorem setTotal_overflow (h : charge.setTotal invoiceId credit i = .ok i') (hit : i.id = invoiceId)
    (digits : HasDigits 2 credit') (overflow : 10 ^ 10 ≤ charge.total credit') :
    ∃ e, charge.setTotal invoiceId credit' i = .error e := by
  have exact : roundHalfAway 2 (charge.total credit') = charge.total credit' := charge.total_digits digits
  unfold Charge.setTotal at h ⊢
  rw [if_pos hit] at h ⊢
  rw [exact]
  apply setAmounts_overflow h
  rw [exact]
  exact overflow.trans (le_abs_self _)

end SetTotal

/-- The invoice id of a period. -/
def Md5Ids.invoiceOf (ids : Md5Ids) (tenant : Uuid) (periodStart : Int) : Uuid :=
  ids.invoiceId (ids.periodId tenant periodStart)

/-- The steps of a call that succeeds, after the lines that charge have been stored. -/
structure Issued (ids : Md5Ids) (reads : Reads) (tenant : Uuid) (periodStart periodEnd : Int) (s s' : Books c)
    (charge : Charge) (invoices : List Invoice) (charged : List InvoiceLine × Sums) : Prop where
  finalized : spFinalizeRating ids reads tenant periodStart periodEnd s.usage = .ok s'.usage
  rated : s'.usage.charge reads tenant periodStart periodEnd = some charge
  opened : upsertInvoice s'.usage s.invoices (ids.invoiceOf tenant periodStart) tenant
    (ids.periodId tenant periodStart) periodEnd = .ok invoices
  stored : charge.lines.foldlM (issueLine ids (ids.invoiceOf tenant periodStart))
    (s.lines.filter fun l => l.invoiceId ≠ ids.invoiceOf tenant periodStart, ⟨0, 0, 0⟩) = .ok charged
  credited : ∃ sums, issueLine ids (ids.invoiceOf tenant periodStart) charged
    (creditLine (min (openCredit s.creditNotes tenant) charge.due)) = .ok (s'.lines, sums)
  totalled : invoices.mapM (charge.setTotal (ids.invoiceOf tenant periodStart)
    (min (openCredit s.creditNotes tenant) charge.due)) = .ok s'.invoices
  consumed : consumeNotes (openNotes s.creditNotes tenant) (min (openCredit s.creditNotes tenant) charge.due)
    s.creditNotes = .ok s'.creditNotes

theorem spIssueInvoice_iff {s s' : Books c} :
    spIssueInvoice ids reads tenant periodStart periodEnd s = .ok s' ↔
      ∃ charge invoices charged, Issued ids reads tenant periodStart periodEnd s s' charge invoices charged := by
  constructor
  · intro h
    obtain ⟨usage, finalized, h⟩ := bind_ok h
    obtain ⟨invoices, opened, h⟩ := bind_ok h
    obtain ⟨preview?, previewed, h⟩ := bind_ok h
    cases preview? with
    | none => cases h
    | some preview =>
      obtain ⟨charge, rated, lines⟩ := fnInvoicePreview_iff.mp previewed
      subst lines
      obtain ⟨all, folded, h⟩ := bind_ok h
      rw [List.foldlM_append] at folded
      obtain ⟨charged, stored, last⟩ := bind_ok folded
      rw [List.foldlM_cons] at last
      obtain ⟨all', credited, done⟩ := bind_ok last
      cases Except.ok.inj done
      obtain ⟨new, same, _⟩ := issueLines_ok stored
      obtain ⟨l, same', _, _⟩ := issueLine_ok credited
      have sums : all.2 = ⟨charge.sums.subtotal, charge.sums.tax, min (openCredit s.creditNotes tenant) charge.due⟩ := by
        rw [same', same]
        rfl
      obtain ⟨totalled, htotalled, h⟩ := bind_ok h
      obtain ⟨notes, consumed, h⟩ := bind_ok h
      split at h
      next =>
        cases Except.ok.inj h
        rw [sums] at htotalled consumed
        exact ⟨charge, invoices, charged, finalized, rated, opened, stored, ⟨all.2, credited⟩, htotalled, consumed⟩
      next => cases h
  · rintro ⟨charge, invoices, charged, h⟩
    have previewed : fnInvoicePreview reads s'.usage s.creditNotes tenant periodStart periodEnd =
        .ok (some (charge.lines ++ [creditLine (min (openCredit s.creditNotes tenant) charge.due)])) :=
      fnInvoicePreview_iff.mpr ⟨charge, h.rated, rfl⟩
    obtain ⟨sums, credited⟩ := h.credited
    obtain ⟨new, same, _⟩ := issueLines_ok h.stored
    obtain ⟨l, same', _, _⟩ := issueLine_ok credited
    have total : sums = ⟨charge.sums.subtotal, charge.sums.tax, min (openCredit s.creditNotes tenant) charge.due⟩ := by
      rw [same] at same'
      exact (Prod.mk.inj same').2
    subst total
    have folded : (charge.lines ++ [creditLine (min (openCredit s.creditNotes tenant) charge.due)]).foldlM
        (issueLine ids (ids.invoiceOf tenant periodStart))
        (s.lines.filter fun l => l.invoiceId ≠ ids.invoiceOf tenant periodStart, ⟨0, 0, 0⟩) = .ok (s'.lines,
          ⟨charge.sums.subtotal, charge.sums.tax, min (openCredit s.creditNotes tenant) charge.due⟩) := by
      rw [List.foldlM_append, h.stored]
      simp only [List.foldlM_cons, List.foldlM_nil, credited, bind, Except.bind, pure, Except.pure]
    have totalled := h.totalled
    have opened := h.opened
    unfold Charge.setTotal Charge.total at totalled
    unfold Md5Ids.invoiceOf at folded totalled opened
    unfold spIssueInvoice
    simp only [h.finalized, opened, previewed, folded, totalled, h.consumed, bind, Except.bind]
    rw [dif_pos s'.creditIds]

section Again

variable {s s' : Books c} {charge : Charge} {invoices : List Invoice} {charged : List InvoiceLine × Sums}

theorem upsertInvoice_ok {u : Usage c} {id periodId : Uuid} {rows : List Invoice}
    (h : upsertInvoice u invoices id tenant periodId periodEnd = .ok rows) :
    (rows.any fun i => i.id = id) = true ∧ ∀ i ∈ rows, i.id = id → i.status = .issued := by
  unfold upsertInvoice at h
  split at h
  next => cases h
  next =>
    cases Except.ok.inj h
    refine ⟨any_upsert (fun i hi => hi) (by simp), ?_⟩
    intro i hi same
    unfold upsert at hi
    split at hi
    next =>
      obtain ⟨j, _, rfl⟩ := List.mem_map.mp hi
      split
      next => rfl
      next miss =>
        rw [if_neg miss] at same
        exact absurd (by simpa using same) miss
    next none =>
      rcases List.mem_append.mp hi with hi | hi
      · exact absurd (List.any_eq_true.mpr ⟨i, hi, by simpa using same⟩) none
      · have here := List.mem_singleton.mp hi
        rw [here]

theorem upsertInvoice_issued {u : Usage c} {id periodId : Uuid} (found : (invoices.any fun i => i.id = id) = true)
    (issued : ∀ i ∈ invoices, i.id = id → i.status = .issued) :
    upsertInvoice u invoices id tenant periodId periodEnd = .ok invoices := by
  have same : invoices.map (fun i => if decide (i.id = id) = true then i.issue else i) = invoices.map fun i => i := by
    apply List.map_congr_left
    intro i hi
    by_cases hit : i.id = id
    · have status := issued i hi hit
      cases i
      simp_all [Invoice.issue]
    · simp [hit]
  unfold upsertInvoice
  rw [if_neg (by simp [found]), upsert_conflict found, same, List.map_id']

theorem Issued.invoices_kept (h : Issued ids reads tenant periodStart periodEnd s s' charge invoices charged) :
    (s'.invoices.any fun i => i.id = ids.invoiceOf tenant periodStart) = true ∧
      ∀ i ∈ s'.invoices, i.id = ids.invoiceOf tenant periodStart → i.status = .issued := by
  obtain ⟨found, issued⟩ := upsertInvoice_ok h.opened
  have kept : List.Forall₂ (fun i i' => i'.id = i.id ∧ i'.status = i.status) invoices s'.invoices := by
    apply (mapM_ok.mp h.totalled).imp
    intro i i' hi
    exact setTotal_ok hi
  constructor
  · obtain ⟨i, hi, same⟩ := List.any_eq_true.mp found
    obtain ⟨i', hi', id, _⟩ := forall₂_left kept hi
    exact List.any_eq_true.mpr ⟨i', hi', by simpa [id] using same⟩
  · intro i' hi' same
    obtain ⟨i, hi, id, status⟩ := forall₂_right kept hi'
    rw [status]
    exact issued i hi (id.symm.trans same)

theorem Issued.lines_kept (h : Issued ids reads tenant periodStart periodEnd s s' charge invoices charged) :
    (s'.lines.filter fun l => l.invoiceId ≠ ids.invoiceOf tenant periodStart) =
      s.lines.filter fun l => l.invoiceId ≠ ids.invoiceOf tenant periodStart := by
  obtain ⟨new, same, owns⟩ := issueLines_ok h.stored
  obtain ⟨sums, credited⟩ := h.credited
  obtain ⟨l, same', own, _⟩ := issueLine_ok credited
  have lines : s'.lines = (s.lines.filter fun l => l.invoiceId ≠ ids.invoiceOf tenant periodStart) ++ new ++ [l] := by
    rw [same] at same'
    exact (Prod.mk.inj same').1
  have dropped : (new ++ [l]).filter (fun l => l.invoiceId ≠ ids.invoiceOf tenant periodStart) = [] := by
    rw [List.filter_eq_nil_iff]
    intro x hx
    rcases List.mem_append.mp hx with hx | hx
    · simp [owns x hx]
    · have here := List.mem_singleton.mp hx
      simp [here, own]
  rw [lines, List.append_assoc, List.filter_append, dropped, List.append_nil, List.filter_filter]
  simp

/-- The credit of the first call is stored, and the notes are worth that much less. -/
theorem Issued.credit (h : Issued ids reads tenant periodStart periodEnd s s' charge invoices charged) :
    0 ≤ min (openCredit s.creditNotes tenant) charge.due ∧
      HasDigits 2 (min (openCredit s.creditNotes tenant) charge.due) ∧
      |(-min (openCredit s.creditNotes tenant) charge.due)| < 10 ^ 10 ∧
      openCredit s'.creditNotes tenant =
        openCredit s.creditNotes tenant - min (openCredit s.creditNotes tenant) charge.due := by
  have digits := (openCredit_digits s.creditNotes tenant).min (charge_due h.rated)
  have nonneg : 0 ≤ min (openCredit s.creditNotes tenant) charge.due :=
    le_min (openCredit_nonneg _ _) (charge_nonneg h.rated)
  obtain ⟨sums, credited⟩ := h.credited
  obtain ⟨l, _, _, stored⟩ := issueLine_ok credited
  have within := (numeric12_ok stored).2
  have exact : HasDigits 2 (-min (openCredit s.creditNotes tenant) charge.due) := digits.neg
  obtain ⟨notes, consumed, _, worth⟩ := consume_open s.creditIds digits nonneg (min_le_left _ _)
  have same : notes = s'.creditNotes := Except.ok.inj (consumed.symm.trans h.consumed)
  subst same
  refine ⟨nonneg, digits, ?_, worth⟩
  have amount : roundHalfAway 2 (-min (openCredit s.creditNotes tenant) charge.due) =
      -min (openCredit s.creditNotes tenant) charge.due := exact
  rw [← amount]
  exact within

/-- The invoice of the first call, whose total passed the table's check. -/
theorem Issued.invoice (h : Issued ids reads tenant periodStart periodEnd s s' charge invoices charged) :
    ∃ i ∈ invoices, i.id = ids.invoiceOf tenant periodStart ∧
      0 ≤ charge.total (min (openCredit s.creditNotes tenant) charge.due) := by
  obtain ⟨found, _⟩ := upsertInvoice_ok h.opened
  obtain ⟨i, hi, same⟩ := List.any_eq_true.mp found
  have same : i.id = ids.invoiceOf tenant periodStart := by simpa using same
  obtain ⟨i', _, set⟩ := forall₂_left (mapM_ok.mp h.totalled) hi
  unfold Charge.setTotal at set
  rw [if_pos same] at set
  obtain ⟨_, _, nonneg, stored⟩ := setAmounts_ok set
  have exact : roundHalfAway 2 (charge.total (min (openCredit s.creditNotes tenant) charge.due)) =
      charge.total (min (openCredit s.creditNotes tenant) charge.due) := charge.total_digits h.credit.2.1
  rw [(numeric12_ok stored).1, exact, exact] at nonneg
  exact ⟨i, hi, same, nonneg⟩

/-- The credit of a second call: what the notes still hold, as far as the amount due. -/
theorem Issued.second (h : Issued ids reads tenant periodStart periodEnd s s' charge invoices charged) :
    min (openCredit s'.creditNotes tenant) charge.due = charge.credit (openCredit s.creditNotes tenant) := by
  rw [h.credit.2.2.2]
  rfl

/-- A second call stores that credit, if the total still fits. -/
theorem Issued.again (owned : Owned ids tenant periodStart s.usage)
    (h : Issued ids reads tenant periodStart periodEnd s s' charge invoices charged)
    (within : charge.total (charge.credit (openCredit s.creditNotes tenant)) < 10 ^ 10) : ∃ s'',
      Issued ids reads tenant periodStart periodEnd s' s'' charge s'.invoices charged ∧ s''.usage = s'.usage := by
  obtain ⟨refinalized, _, _⟩ := refinalize owned h.finalized
  obtain ⟨found, issued⟩ := h.invoices_kept
  obtain ⟨nonneg, digits, fits, _⟩ := h.credit
  obtain ⟨sums, credited⟩ := h.credited
  obtain ⟨i, _, _, total_nonneg⟩ := h.invoice
  obtain ⟨credit_nonneg, credit_le⟩ :=
    charge.credit_bounds (openCredit_nonneg s.creditNotes tenant) (charge_nonneg h.rated)
  have creditDigits : HasDigits 2 (charge.credit (openCredit s.creditNotes tenant)) :=
    ((openCredit_digits s.creditNotes tenant).sub digits).min (charge_due h.rated)
  have fits' : |(-charge.credit (openCredit s.creditNotes tenant))| < 10 ^ 10 := by
    rw [abs_neg, abs_of_nonneg nonneg] at fits
    rw [abs_neg, abs_of_nonneg credit_nonneg]
    exact credit_le.trans_lt fits
  obtain ⟨l, credited', _, _⟩ := issueLine_credit credited creditDigits.neg fits'
  have total'_nonneg : 0 ≤ charge.total (charge.credit (openCredit s.creditNotes tenant)) := by
    unfold Charge.total at total_nonneg ⊢
    linarith
  have each : ∀ i ∈ invoices, ∃ i', charge.setTotal (ids.invoiceOf tenant periodStart)
      (charge.credit (openCredit s.creditNotes tenant)) i = .ok i' := by
    intro i hi
    obtain ⟨i', _, set⟩ := forall₂_left (mapM_ok.mp h.totalled) hi
    exact setTotal_smaller set creditDigits total'_nonneg within
  obtain ⟨totalled, related⟩ := exists_forall₂ each
  obtain ⟨notes, consumed, creditIds, _⟩ := consume_open s'.creditIds
    ((openCredit_digits s'.creditNotes tenant).min (charge_due h.rated))
    (le_min (openCredit_nonneg _ _) (charge_nonneg h.rated)) (min_le_left _ _)
  refine ⟨⟨s'.usage, totalled, charged.1 ++ [l], notes, creditIds⟩,
    ⟨refinalized, h.rated, upsertInvoice_issued found issued, ?_, ?_, ?_, consumed⟩, rfl⟩
  · rw [h.lines_kept]
    exact h.stored
  · rw [h.second]
    exact ⟨_, credited'⟩
  · rw [h.second]
    rw [mapM_after (fun _ _ => setTotal_again) h.totalled]
    exact mapM_ok.mpr related

/-- Whatever a second call that succeeds leaves, it leaves by these steps. -/
theorem Issued.again_steps (owned : Owned ids tenant periodStart s.usage) {s'' : Books c}
    (h : Issued ids reads tenant periodStart periodEnd s s' charge invoices charged)
    (h' : spIssueInvoice ids reads tenant periodStart periodEnd s' = .ok s'') :
    Issued ids reads tenant periodStart periodEnd s' s'' charge s'.invoices charged := by
  obtain ⟨charge', invoices', charged', again⟩ := spIssueInvoice_iff.mp h'
  obtain ⟨refinalized, _, _⟩ := refinalize owned h.finalized
  obtain ⟨found, issued⟩ := h.invoices_kept
  have usage : s''.usage = s'.usage := Except.ok.inj (again.finalized.symm.trans refinalized)
  have rated := again.rated
  have opened := again.opened
  rw [usage] at rated opened
  have sameCharge : charge' = charge := Option.some.inj (rated.symm.trans h.rated)
  have sameInvoices : invoices' = s'.invoices :=
    Except.ok.inj (opened.symm.trans (upsertInvoice_issued found issued))
  subst sameCharge sameInvoices
  have stored := again.stored
  rw [h.lines_kept] at stored
  have sameLines : charged' = charged := Except.ok.inj (stored.symm.trans h.stored)
  subst sameLines
  exact again

/-- A second call whose total overflows its column is refused. -/
theorem Issued.overflow (owned : Owned ids tenant periodStart s.usage)
    (h : Issued ids reads tenant periodStart periodEnd s s' charge invoices charged)
    (overflow : 10 ^ 10 ≤ charge.total (charge.credit (openCredit s.creditNotes tenant))) :
    ∃ e, spIssueInvoice ids reads tenant periodStart periodEnd s' = .error e := by
  cases h' : spIssueInvoice ids reads tenant periodStart periodEnd s' with
  | error e => exact ⟨e, rfl⟩
  | ok s'' =>
    have again := h.again_steps owned h'
    have totalled := again.totalled
    rw [h.second, mapM_after (fun _ _ => setTotal_again) h.totalled] at totalled
    obtain ⟨i, hi, hit, _⟩ := h.invoice
    obtain ⟨i', _, set⟩ := forall₂_left (mapM_ok.mp h.totalled) hi
    have digits : HasDigits 2 (charge.credit (openCredit s.creditNotes tenant)) :=
      ((openCredit_digits s.creditNotes tenant).sub h.credit.2.1).min (charge_due h.rated)
    obtain ⟨e, refused⟩ := setTotal_overflow set hit digits overflow
    obtain ⟨e', failed⟩ := mapM_error hi refused
    rw [failed] at totalled
    cases totalled

end Again

/-- What a call leaves of the tables; a call that fails is rolled back. -/
def Books.after (ids : Md5Ids) (reads : Reads) (tenant : Uuid) (periodStart periodEnd : Int) (s : Books c) : Books c :=
  match spIssueInvoice ids reads tenant periodStart periodEnd s with
  | .ok s' => s'
  | .error _ => s

/-- The two states hold the same invoices, lines and credit notes. -/
structure SameBilled (s s' : Books c) : Prop where
  invoices : s'.invoices = s.invoices
  lines : s'.lines = s.lines
  creditNotes : s'.creditNotes = s.creditNotes

/-- The first call is refused, or credits nothing, or charges so much that the second call is refused. -/
def IssuesOnce (ids : Md5Ids) (reads : Reads) (tenant : Uuid) (periodStart periodEnd : Int) (s : Books c) : Prop :=
  (∃ e, spIssueInvoice ids reads tenant periodStart periodEnd s = .error e) ∨
    openCredit s.creditNotes tenant = 0 ∨
    ∃ charge, s.usage.charge reads tenant periodStart periodEnd = some charge ∧
      (charge.due = 0 ∨ 10 ^ 10 ≤ charge.total (charge.credit (openCredit s.creditNotes tenant)))

theorem charge_finalized {u u' : Usage c} (owned : Owned ids tenant periodStart u)
    (h : spFinalizeRating ids reads tenant periodStart periodEnd u = .ok u') :
    u'.charge reads tenant periodStart periodEnd = u.charge reads tenant periodStart periodEnd := by
  obtain ⟨_, subscriptions, rating⟩ := refinalize owned h
  unfold Usage.charge Usage.planOf Usage.subscription
  rw [rating, subscriptions]

section Fixed

variable {s s' s'' : Books c} {charge : Charge} {invoices : List Invoice} {charged : List InvoiceLine × Sums}

theorem Issued.amount (h : Issued ids reads tenant periodStart periodEnd s s' charge invoices charged) :
    ∃ l : InvoiceLine, s'.lines = charged.1 ++ [l] ∧ l.amount = -min (openCredit s.creditNotes tenant) charge.due := by
  obtain ⟨sums, credited⟩ := h.credited
  obtain ⟨l, same, _, stored⟩ := issueLine_ok credited
  have exact : roundHalfAway 2 (-min (openCredit s.creditNotes tenant) charge.due) =
      -min (openCredit s.creditNotes tenant) charge.due := h.credit.2.1.neg
  refine ⟨l, (Prod.mk.inj same).1, ?_⟩
  rw [(numeric12_ok stored).1]
  exact exact

/-- If both calls store the same and the notes are as before, no credit was applied. -/
theorem no_credit (h : Issued ids reads tenant periodStart periodEnd s s' charge invoices charged)
    (h' : Issued ids reads tenant periodStart periodEnd s' s'' charge s'.invoices charged)
    (same : SameBilled s' s'') : min (openCredit s.creditNotes tenant) charge.due = 0 := by
  obtain ⟨l, lines, amount⟩ := h.amount
  obtain ⟨l', lines', amount'⟩ := h'.amount
  have rows := same.lines
  rw [lines, lines'] at rows
  have sameLine : l' = l := by simpa using rows
  rw [sameLine, amount] at amount'
  have worth := h'.credit.2.2.2
  rw [same.creditNotes] at worth
  linarith

/-- Without credit a second call stores what the first has. -/
theorem again_same (h : Issued ids reads tenant periodStart periodEnd s s' charge invoices charged)
    (h' : Issued ids reads tenant periodStart periodEnd s' s'' charge s'.invoices charged)
    (usage : s''.usage = s'.usage) (none : min (openCredit s.creditNotes tenant) charge.due = 0) : s'' = s' := by
  have worth := h.credit.2.2.2
  rw [none, sub_zero] at worth
  have second : min (openCredit s'.creditNotes tenant) charge.due = 0 := by rw [worth, none]
  have totalled := h'.totalled
  rw [second, ← none, mapM_after (fun _ _ => setTotal_again) h.totalled, h.totalled] at totalled
  obtain ⟨sums, credited⟩ := h.credited
  obtain ⟨sums', credited'⟩ := h'.credited
  rw [second, ← none, credited] at credited'
  have consumed := h'.consumed
  rw [second, consume_nothing] at consumed
  exact Books.ext usage (Except.ok.inj totalled).symm (Prod.mk.inj (Except.ok.inj credited')).1.symm
    (Except.ok.inj consumed).symm

end Fixed

theorem after_ok {s s' : Books c} (h : spIssueInvoice ids reads tenant periodStart periodEnd s = .ok s') :
    s.after ids reads tenant periodStart periodEnd = s' := by
  unfold Books.after
  rw [h]

theorem after_error {s : Books c} {e : SqlError}
    (h : spIssueInvoice ids reads tenant periodStart periodEnd s = .error e) :
    s.after ids reads tenant periodStart periodEnd = s := by
  unfold Books.after
  rw [h]

theorem min_eq_zero_iff {x y : ℚ} (hx : 0 ≤ x) (hy : 0 ≤ y) : min x y = 0 ↔ x = 0 ∨ y = 0 := by
  constructor
  · intro h
    rcases min_choice x y with left | right
    · exact Or.inl (left.symm.trans h)
    · exact Or.inr (right.symm.trans h)
  · rintro (rfl | rfl)
    · exact min_eq_left hy
    · exact min_eq_right hx

/-- However often an invoice is issued again, nothing changes exactly if the first call is refused, no credit was
open, nothing is due, or the total without that credit overflows its column. -/
theorem issue_idempotent_iff (s : Books c) (owned : Owned ids tenant periodStart s.usage) :
    (∀ n, SameBilled (s.after ids reads tenant periodStart periodEnd)
      ((Books.after ids reads tenant periodStart periodEnd)^[n + 1] s)) ↔
      IssuesOnce ids reads tenant periodStart periodEnd s := by
  cases first : spIssueInvoice ids reads tenant periodStart periodEnd s with
  | error e =>
    have fixed := after_error first
    constructor
    · intro _
      exact Or.inl ⟨e, first⟩
    · intro _ n
      rw [Function.iterate_fixed fixed, fixed]
      exact ⟨rfl, rfl, rfl⟩
  | ok s' =>
    obtain ⟨charge, invoices, charged, h⟩ := spIssueInvoice_iff.mp first
    have rated : s.usage.charge reads tenant periodStart periodEnd = some charge :=
      (charge_finalized owned h.finalized).symm.trans h.rated
    have nothing := min_eq_zero_iff (openCredit_nonneg s.creditNotes tenant) (charge_nonneg h.rated)
    rw [after_ok first]
    constructor
    · intro same
      right
      by_cases within : charge.total (charge.credit (openCredit s.creditNotes tenant)) < 10 ^ 10
      · obtain ⟨s'', again, _⟩ := h.again owned within
        have twice := same 1
        rw [Function.iterate_succ_apply, after_ok first, Function.iterate_one,
          after_ok (spIssueInvoice_iff.mpr ⟨_, _, _, again⟩)] at twice
        rcases nothing.mp (no_credit h again twice) with open_zero | due_zero
        · exact Or.inl open_zero
        · exact Or.inr ⟨charge, rated, Or.inl due_zero⟩
      · exact Or.inr ⟨charge, rated, Or.inr (not_lt.mp within)⟩
    · intro once n
      have fixed : s'.after ids reads tenant periodStart periodEnd = s' := by
        by_cases within : charge.total (charge.credit (openCredit s.creditNotes tenant)) < 10 ^ 10
        · obtain ⟨s'', again, usage⟩ := h.again owned within
          rw [after_ok (spIssueInvoice_iff.mpr ⟨_, _, _, again⟩)]
          apply again_same h again usage
          rcases once with ⟨e, failed⟩ | zero | ⟨charge', rated', zero | overflow⟩
          · rw [first] at failed
            cases failed
          · exact nothing.mpr (Or.inl zero)
          · cases Option.some.inj (rated'.symm.trans rated)
            exact nothing.mpr (Or.inr zero)
          · cases Option.some.inj (rated'.symm.trans rated)
            exact absurd within (not_lt.mpr overflow)
        · obtain ⟨e, refused⟩ := h.overflow owned (not_lt.mp within)
          exact after_error refused
      rw [Function.iterate_succ_apply, after_ok first, Function.iterate_fixed fixed]
      exact ⟨rfl, rfl, rfl⟩

/-- A tax-exempt tenant on a plan of 49 with a credit note of 30, and no usage. -/
def exemptCatalog : Catalog where
  tenants := [⟨1, true, .active⟩]
  plans := [⟨1, "STARTER", .starter, 49, 100, 1, true, starterFee_nonneg, unitRate_nonneg⟩]
  tenantIds := by decide
  planIds := by decide
  planCodes := by decide

def exemptBooks (notes : List CreditNote) (creditIds : (notes.map CreditNote.id).Nodup) : Books exemptCatalog :=
  ⟨⟨⟨[⟨1, 1, 1, 0, none, .active, none, no_end, no_end⟩], oneSubscription_ids, by decide⟩, [], [], []⟩, [], [], notes, creditIds⟩

def creditOf30 : CreditNote :=
  ⟨1, 1, 0, 30, 30, by decide, by decide, by decide, by decide, by decide +kernel⟩

/-- Issued again, the invoice loses the credit that the first call consumed. -/
theorem second_issue_drops_credit :
    (((exemptBooks [creditOf30] (by decide)).after plainIds asStored 1 0 30).invoices.map Invoice.total = [19]) ∧
    (((Books.after plainIds asStored 1 0 30)^[2] (exemptBooks [creditOf30] (by decide))).invoices.map Invoice.total =
      [49]) ∧
    ¬ SameBilled ((exemptBooks [creditOf30] (by decide)).after plainIds asStored 1 0 30)
      ((Books.after plainIds asStored 1 0 30)^[2] (exemptBooks [creditOf30] (by decide))) := by
  have first : ((exemptBooks [creditOf30] (by decide)).after plainIds asStored 1 0 30).invoices.map Invoice.total =
      [19] := by decide +kernel
  have second : ((Books.after plainIds asStored 1 0 30)^[2]
      (exemptBooks [creditOf30] (by decide))).invoices.map Invoice.total = [49] := by decide +kernel
  refine ⟨first, second, ?_⟩
  intro same
  rw [same.invoices, first] at second
  exact absurd second (by decide)

/-- The books once January is issued: its rows are there, and the note is used up. -/
def afterJanuary : Books exemptCatalog := (exemptBooks [creditOf30] (by decide)).after plainIds asStored 1 0 30

/-- With no credit left, February stays as it is first issued, however often it is issued again. -/
theorem february_issue_is_idempotent :
    afterJanuary.invoices.length = 1 ∧ afterJanuary.creditNotes.map CreditNote.remainingAmount = [0] ∧
      ∀ n, SameBilled (afterJanuary.after plainIds asStored 1 31 58)
        ((Books.after plainIds asStored 1 31 58)^[n + 1] afterJanuary) := by
  have owned : Owned plainIds 1 31 afterJanuary.usage := by
    refine ⟨?_, ?_⟩
    · decide +kernel
    · decide +kernel
  have spent : openCredit afterJanuary.creditNotes 1 = 0 := by decide +kernel
  refine ⟨by decide +kernel, by decide +kernel, ?_⟩
  exact (issue_idempotent_iff afterJanuary owned).mpr (Or.inr (Or.inl spent))

end OtterWorks.Billing
