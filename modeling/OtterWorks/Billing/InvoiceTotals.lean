import OtterWorks.Billing.Reissue

namespace OtterWorks.Billing

variable {c : Catalog} {ids : Md5Ids} {reads : Reads} {tenant : Uuid} {periodStart periodEnd : Int} {s : Books c}

/-- A call has stored the lines of its invoice and comes to the totals. -/
structure Totalling (ids : Md5Ids) (reads : Reads) (tenant : Uuid) (periodStart periodEnd : Int) (s : Books c)
    (usage : Usage c) (plan : Plan) (overage : ℚ) (invoices : List Invoice) (lines : List InvoiceLine) (sums : Sums) :
    Prop where
  finalized : spFinalizeRating ids reads tenant periodStart periodEnd s.usage = .ok usage
  opened : upsertInvoice usage s.invoices (ids.invoiceOf tenant periodStart) tenant (ids.periodId tenant periodStart)
    periodEnd = .ok invoices
  planned : ∃ subscription, usage.planOf reads.preview tenant periodStart periodEnd = some (subscription, plan)
  rated : ∃ rating, fnUsageRating reads.rating usage tenant periodStart periodEnd = .ok (some rating) ∧
    rating.overageAmount = overage
  previewed : ∃ preview, fnInvoicePreview reads usage s.creditNotes tenant periodStart periodEnd = .ok (some preview) ∧
    preview.foldlM (issueLine ids (ids.invoiceOf tenant periodStart))
      (s.lines.filter fun l => l.invoiceId ≠ ids.invoiceOf tenant periodStart, ⟨0, 0, 0⟩) = .ok (lines, sums)

def Sums.total (sums : Sums) : ℚ := roundHalfAway 2 (sums.subtotal + sums.tax - sums.credit)

/-- The amounts due for a period, before credit. -/
def periodDue (c : Catalog) (tenant : Uuid) (plan : Plan) (overage : ℚ) : ℚ :=
  roundHalfAway 2 (plan.monthlyFee + overage + periodTax c tenant plan overage)

section

variable {usage : Usage c} {plan : Plan} {overage : ℚ} {invoices : List Invoice} {lines : List InvoiceLine} {sums : Sums}

theorem overage_digits {scan : Scan Subscription} {u : Usage c} {rating : UsageRating}
    (h : fnUsageRating scan u tenant periodStart periodEnd = .ok (some rating)) : HasDigits 2 rating.overageAmount := by
  obtain ⟨s, p, rated⟩ := fnUsageRating_fields h
  rw [rated.amount]
  cases suspendedPart s periodStart periodEnd with
  | none => exact hasDigits_round 2 _
  | some part => exact hasDigits_round 2 _

theorem periodTax_nonneg (fee : 0 ≤ plan.monthlyFee) (nonneg : 0 ≤ overage) : 0 ≤ periodTax c tenant plan overage := by
  unfold periodTax
  split
  · exact le_refl 0
  · positivity

/-- The lines of a period, down to the credit. -/
def periodLines (c : Catalog) (tenant : Uuid) (plan : Plan) (overage credit : ℚ) : List PreviewLine :=
  chargeLines plan overage (periodTax c tenant plan overage) ++ [creditLine credit]

/-- The lines a call stores, and their sums. -/
theorem Totalling.stored (h : Totalling ids reads tenant periodStart periodEnd s usage plan overage invoices lines sums) :
    0 ≤ overage ∧ HasDigits 2 overage ∧
    sums = ⟨roundHalfAway 2 plan.monthlyFee + roundHalfAway 2 overage,
      2 * roundHalfAway 2 (periodTax c tenant plan overage / 2),
      min (openCredit s.creditNotes tenant) (periodDue c tenant plan overage)⟩ ∧
    lines = (s.lines.filter fun l => l.invoiceId ≠ ids.invoiceOf tenant periodStart) ++
      (periodLines c tenant plan overage sums.credit).map (PreviewLine.row ids (ids.invoiceOf tenant periodStart)) := by
  obtain ⟨rating, rated, rfl⟩ := h.rated
  obtain ⟨subscription, planned⟩ := h.planned
  obtain ⟨preview, previewed, stored⟩ := h.previewed
  have shown : preview = periodLines c tenant plan rating.overageAmount
      (min (openCredit s.creditNotes tenant) (periodDue c tenant plan rating.overageAmount)) := by
    unfold fnInvoicePreview at previewed
    rw [rated, planned] at previewed
    exact (Option.some.inj (Except.ok.inj previewed)).symm
  obtain ⟨rfl, rfl⟩ := Prod.mk.inj (issueLines_rows stored)
  have twice : ∀ x, roundHalfAway 2 (roundHalfAway 2 x) = roundHalfAway 2 x := fun x => hasDigits_round 2 x
  have added : preview.foldl Sums.add ⟨0, 0, 0⟩ = ⟨roundHalfAway 2 plan.monthlyFee + roundHalfAway 2 rating.overageAmount,
      2 * roundHalfAway 2 (periodTax c tenant plan rating.overageAmount / 2),
      min (openCredit s.creditNotes tenant) (periodDue c tenant plan rating.overageAmount)⟩ := by
    rw [shown]
    simp only [periodLines, chargeLines, creditLine, List.cons_append, List.nil_append, List.foldl_cons, List.foldl_nil,
      Sums.add, zero_add, two_mul, twice]
  refine ⟨overage_nonneg rated, overage_digits rated, added, ?_⟩
  rw [added, shown]

/-- The lines of the invoice among those a call leaves. -/
theorem Totalling.own (h : Totalling ids reads tenant periodStart periodEnd s usage plan overage invoices lines sums) :
    (lines.filter fun l => l.invoiceId = ids.invoiceOf tenant periodStart) =
      (periodLines c tenant plan overage sums.credit).map (PreviewLine.row ids (ids.invoiceOf tenant periodStart)) := by
  obtain ⟨_, _, _, same⟩ := h.stored
  have others : (s.lines.filter fun l => l.invoiceId ≠ ids.invoiceOf tenant periodStart).filter
      (fun l => l.invoiceId = ids.invoiceOf tenant periodStart) = [] := by
    rw [List.filter_eq_nil_iff]
    intro l hl
    have other := (List.mem_filter.mp hl).2
    simpa using other
  have own : ((periodLines c tenant plan overage sums.credit).map
      (PreviewLine.row ids (ids.invoiceOf tenant periodStart))).filter
        (fun l => l.invoiceId = ids.invoiceOf tenant periodStart) =
      (periodLines c tenant plan overage sums.credit).map (PreviewLine.row ids (ids.invoiceOf tenant periodStart)) := by
    rw [List.filter_eq_self]
    intro l hl
    obtain ⟨line, _, rfl⟩ := List.mem_map.mp hl
    simp [PreviewLine.row]
  rw [same, List.filter_append, others, own, List.nil_append]

/-- The total is negative exactly if the credit covers a due that its two tax lines do not add up to. -/
theorem Totalling.total (h : Totalling ids reads tenant periodStart periodEnd s usage plan overage invoices lines sums)
    (fee : HasDigits 2 plan.monthlyFee) :
    sums.total = roundHalfAway 2 sums.subtotal + roundHalfAway 2 sums.tax - sums.credit ∧
      ((lines.filter fun l => l.invoiceId = ids.invoiceOf tenant periodStart).map InvoiceLine.amount).sum = sums.total ∧
      (0 ≤ sums.total ↔ ¬ (HalvesShort 2 (periodTax c tenant plan overage) ∧
        periodDue c tenant plan overage ≤ openCredit s.creditNotes tenant)) := by
  have own := h.own
  obtain ⟨nonneg, digits, rfl, _⟩ := h.stored
  have tax : 0 ≤ periodTax c tenant plan overage := periodTax_nonneg plan.monthlyFee_nonneg nonneg
  have charged : HasDigits 2 (plan.monthlyFee + overage) := fee.add digits
  have due : periodDue c tenant plan overage = plan.monthlyFee + overage + roundHalfAway 2 (periodTax c tenant plan overage) :=
    roundHalfAway_add charged (add_nonneg plan.monthlyFee_nonneg nonneg) tax
  have openDigits := openCredit_digits s.creditNotes tenant
  have dueDigits : HasDigits 2 (periodDue c tenant plan overage) := hasDigits_round 2 _
  have creditDigits := openDigits.min dueDigits
  have taxDigits : HasDigits 2 (2 * roundHalfAway 2 (periodTax c tenant plan overage / 2)) := by
    rw [two_mul]
    exact (hasDigits_round 2 _).add (hasDigits_round 2 _)
  have subtotal : roundHalfAway 2 plan.monthlyFee + roundHalfAway 2 overage = plan.monthlyFee + overage := by
    rw [fee, digits]
  have total : Sums.total ⟨roundHalfAway 2 plan.monthlyFee + roundHalfAway 2 overage,
      2 * roundHalfAway 2 (periodTax c tenant plan overage / 2),
      min (openCredit s.creditNotes tenant) (periodDue c tenant plan overage)⟩ = plan.monthlyFee + overage +
        2 * roundHalfAway 2 (periodTax c tenant plan overage / 2) -
        min (openCredit s.creditNotes tenant) (periodDue c tenant plan overage) := by
    unfold Sums.total
    rw [subtotal]
    exact (charged.add taxDigits).sub creditDigits
  refine ⟨?_, ?_, ?_⟩
  · rw [total, subtotal, charged, taxDigits]
  · have negated : roundHalfAway 2 (-min (openCredit s.creditNotes tenant) (periodDue c tenant plan overage)) =
        -min (openCredit s.creditNotes tenant) (periodDue c tenant plan overage) := creditDigits.neg
    have twice : ∀ x, roundHalfAway 2 (roundHalfAway 2 x) = roundHalfAway 2 x := fun x => hasDigits_round 2 x
    rw [own, total, ← subtotal]
    simp [periodLines, chargeLines, creditLine, PreviewLine.row, PreviewLine.stored, twice, negated]
    ring
  · rw [total, sub_nonneg]
    constructor
    · rintro covered ⟨short, enough⟩
      rw [min_eq_right enough, due, short.round tax] at covered
      have unit : (0 : ℚ) < 1 / 10 ^ 2 := by norm_num
      linarith
    · intro fine
      by_cases short : HalvesShort 2 (periodTax c tenant plan overage)
      · -- the notes do not reach the due, which is one cent above the lines
        have less : openCredit s.creditNotes tenant < periodDue c tenant plan overage := by
          by_contra enough
          exact fine ⟨short, not_lt.mp enough⟩
        rw [due, short.round tax, ← add_assoc, openDigits.lt_iff (charged.add taxDigits)] at less
        exact (min_le_left _ _).trans less
      · have halves := round_le_halves short tax
        refine (min_le_right _ _).trans ?_
        rw [due]
        linarith

theorem numeric12_failed {x : ℚ} {e : SqlError} (h : numeric12 x = .error e) : e = .numericOutOfRange := by
  unfold numeric12 at h
  split at h
  next => cases h
  next => exact (Except.error.inj h).symm

/-- Amounts that are not negative may overflow their columns, but pass the table's checks. -/
theorem setAmounts_unchecked {subtotal tax total : ℚ} {i : Invoice} (hs : 0 ≤ subtotal) (ht : 0 ≤ tax)
    (hn : 0 ≤ total) : i.setAmounts subtotal tax total ≠ .error .checkViolation := by
  intro h
  unfold Invoice.setAmounts at h
  cases storedS : numeric12 subtotal with
  | error e =>
    rw [storedS] at h
    have same := numeric12_failed storedS
    subst same
    cases h
  | ok s =>
    cases storedT : numeric12 tax with
    | error e =>
      rw [storedS, storedT] at h
      have same := numeric12_failed storedT
      subst same
      cases h
    | ok t =>
      cases storedN : numeric12 total with
      | error e =>
        rw [storedS, storedT, storedN] at h
        have same := numeric12_failed storedN
        subst same
        cases h
      | ok n =>
        rw [storedS, storedT, storedN] at h
        have nonneg : 0 ≤ s ∧ 0 ≤ t ∧ 0 ≤ n := by
          rw [(numeric12_ok storedS).1, (numeric12_ok storedT).1, (numeric12_ok storedN).1]
          exact ⟨roundHalfAway_nonneg 2 hs, roundHalfAway_nonneg 2 ht, roundHalfAway_nonneg 2 hn⟩
        simp only [bind, Except.bind, dif_pos nonneg] at h
        cases h

theorem Totalling.unchecked
    (h : Totalling ids reads tenant periodStart periodEnd s usage plan overage invoices lines sums)
    (total : 0 ≤ sums.total) : spIssueInvoice ids reads tenant periodStart periodEnd s ≠ .error .checkViolation := by
  obtain ⟨nonneg, _, amounts, _⟩ := h.stored
  obtain ⟨preview, previewed, stored⟩ := h.previewed
  have opened := h.opened
  unfold Md5Ids.invoiceOf at stored opened
  have tax : 0 ≤ periodTax c tenant plan overage := periodTax_nonneg plan.monthlyFee_nonneg nonneg
  have subtotalNonneg : 0 ≤ roundHalfAway 2 sums.subtotal := by
    apply roundHalfAway_nonneg
    rw [amounts]
    exact add_nonneg (roundHalfAway_nonneg 2 plan.monthlyFee_nonneg) (roundHalfAway_nonneg 2 nonneg)
  have taxNonneg : 0 ≤ roundHalfAway 2 sums.tax := by
    have half : 0 ≤ roundHalfAway 2 (periodTax c tenant plan overage / 2) := roundHalfAway_nonneg 2 (by linarith)
    apply roundHalfAway_nonneg
    rw [amounts]
    simp only
    linarith
  have dueNonneg : 0 ≤ periodDue c tenant plan overage :=
    roundHalfAway_nonneg 2 (add_nonneg (add_nonneg plan.monthlyFee_nonneg nonneg) tax)
  have dueDigits : HasDigits 2 (periodDue c tenant plan overage) := hasDigits_round 2 _
  obtain ⟨notes, consumed, creditIds, _⟩ := consume_open s.creditIds
    ((openCredit_digits s.creditNotes tenant).min dueDigits) (le_min (openCredit_nonneg _ _) dueNonneg) (min_le_left _ _)
  have credit : sums.credit = min (openCredit s.creditNotes tenant) (periodDue c tenant plan overage) := by rw [amounts]
  rw [← credit] at consumed
  intro failed
  unfold spIssueInvoice at failed
  simp only [h.finalized, opened, previewed, stored, bind, Except.bind] at failed
  split at failed
  next e wrong =>
    cases failed
    obtain ⟨i, _, refused⟩ := mapM_failed wrong
    split at refused
    next => exact setAmounts_unchecked subtotalNonneg taxNonneg total refused
    next => cases refused
  next =>
    rw [consumed] at failed
    simp only [dif_pos creditIds] at failed
    cases failed

/-- The amounts of an invoice close, and the check of its total lets it through, except where the open notes cover the
whole due of a period whose tax rounds up while its halves round down. -/
theorem invoice_closes_iff
    (h : Totalling ids reads tenant periodStart periodEnd s usage plan overage invoices lines sums)
    (fee : HasDigits 2 plan.monthlyFee) :
    (sums.total = roundHalfAway 2 sums.subtotal + roundHalfAway 2 sums.tax - sums.credit ∧
        0 ≤ sums.total ∧
        sums.total = ((lines.filter fun l => l.invoiceId = ids.invoiceOf tenant periodStart).map InvoiceLine.amount).sum ∧
        spIssueInvoice ids reads tenant periodStart periodEnd s ≠ .error .checkViolation) ↔
      ¬ (HalvesShort 2 (periodTax c tenant plan overage) ∧
        periodDue c tenant plan overage ≤ openCredit s.creditNotes tenant) := by
  obtain ⟨closes, added, nonneg⟩ := h.total fee
  constructor
  · rintro ⟨_, total, _⟩
    exact nonneg.mp total
  · intro fine
    have total := nonneg.mpr fine
    exact ⟨closes, total, added.symm, h.unchecked total⟩

/-- Every call that succeeds has come to its totals, with a plan of the catalog. -/
theorem issued_totalling {s' : Books c} (h : spIssueInvoice ids reads tenant periodStart periodEnd s = .ok s') :
    ∃ plan ∈ c.plans, ∃ overage invoices sums,
      Totalling ids reads tenant periodStart periodEnd s s'.usage plan overage invoices s'.lines sums := by
  obtain ⟨usage, finalized, h⟩ := bind_ok h
  obtain ⟨invoices, opened, h⟩ := bind_ok h
  obtain ⟨preview?, previewed, h⟩ := bind_ok h
  cases preview? with
  | none => cases h
  | some preview =>
    obtain ⟨⟨lines, sums⟩, stored, h⟩ := bind_ok h
    obtain ⟨totalled, _, h⟩ := bind_ok h
    obtain ⟨notes, _, h⟩ := bind_ok h
    split at h
    next =>
      cases Except.ok.inj h
      have made := previewed
      obtain ⟨rating?, rated, previewed⟩ := bind_ok previewed
      split at previewed
      next subscription plan rating planned =>
        refine ⟨plan, ?_, rating.overageAmount, invoices, sums, finalized, opened, ⟨subscription, planned⟩,
          ⟨rating, rated, rfl⟩, ⟨preview, made, stored⟩⟩
        obtain ⟨found, _, same⟩ := Option.bind_eq_some_iff.mp planned
        obtain ⟨own, hown, same⟩ := Option.map_eq_some_iff.mp same
        cases same
        exact (Catalog.plan?_some hown).1
      next => cases previewed
    next => cases h

end

section

/-- The plan SCALE of the seed, for a tenant that is taxed. -/
def scaleCatalog : Catalog where
  tenants := [⟨1, false, .active⟩]
  plans := [⟨3, "SCALE", .scale, 499, 2000, 2 / 100, true, by decide +kernel, by decide +kernel⟩]
  tenantIds := oneTenant_ids
  planIds := by decide
  planCodes := by decide

def scaleBooks (amount : ℚ) (pos : 0 < amount) (lt : amount < 10 ^ 10) (cents : HasDigits 2 amount) :
    Books scaleCatalog :=
  ⟨⟨⟨[⟨1, 1, 3, 0, none, .active, none, no_end, no_end⟩], by decide, by decide⟩, [], [], []⟩, [], [],
    [⟨1, 1, 0, amount, amount, pos, pos.le, le_refl amount, lt, cents⟩], by simp⟩

/-- Half the tax of 41.1675 is stored twice as 20.58, but 540.17 is due: a note that covers it leaves a total of
-0.01, which the table refuses. With one cent less the invoice is issued. -/
theorem covered_due_refused :
    spIssueInvoice plainIds asStored 1 0 30
        (scaleBooks (54017 / 100) (by decide +kernel) (by decide +kernel) (by decide +kernel)) = .error .checkViolation ∧
      ((scaleBooks (54016 / 100) (by decide +kernel) (by decide +kernel) (by decide +kernel)).after plainIds asStored
        1 0 30).invoices.map Invoice.total = [0] := by
  refine ⟨?_, by decide +kernel⟩
  have refused : (match spIssueInvoice plainIds asStored 1 0 30
      (scaleBooks (54017 / 100) (by decide +kernel) (by decide +kernel) (by decide +kernel)) with
    | .error e => some e
    | .ok _ => none) = some SqlError.checkViolation := by decide +kernel
  split at refused
  next e failed => rw [failed, Option.some.inj refused]
  next => cases refused

/-- The amounts of a tenant without tax close. -/
theorem exempt_invoice_closes : ∃ (lines : List InvoiceLine) (sums : Sums),
    sums.total = roundHalfAway 2 sums.subtotal + roundHalfAway 2 sums.tax - sums.credit ∧ 0 ≤ sums.total ∧
      sums.total = ((lines.filter fun l => l.invoiceId = plainIds.invoiceOf 1 0).map InvoiceLine.amount).sum ∧
      spIssueInvoice plainIds asStored 1 0 30 (exemptBooks [creditOf30] (by decide)) ≠ .error .checkViolation := by
  have passes : (spIssueInvoice plainIds asStored 1 0 30 (exemptBooks [creditOf30] (by decide))).isOk = true := by
    decide +kernel
  obtain ⟨s', issued⟩ := exists_of_isOk passes
  obtain ⟨plan, member, overage, invoices, sums, h⟩ := issued_totalling issued
  have fee : HasDigits 2 plan.monthlyFee := by
    rw [List.mem_singleton.mp member]
    decide +kernel
  have exempt : periodTax exemptCatalog 1 plan overage = 0 := rfl
  refine ⟨s'.lines, sums, (invoice_closes_iff h fee).mpr ?_⟩
  rintro ⟨short, _⟩
  rw [exempt] at short
  exact absurd short (by decide +kernel)

end

end OtterWorks.Billing
