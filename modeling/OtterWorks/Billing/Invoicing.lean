import OtterWorks.Billing.Rating
import Mathlib.Data.List.Sort

namespace OtterWorks.Billing

inductive InvoiceStatus
  | draft
  | issued
  | paid
  | overdue
  deriving DecidableEq, Repr

structure Invoice where
  id : Uuid
  tenantId : Uuid
  periodId : Uuid
  issuedAt : Int
  subtotal : ℚ
  tax : ℚ
  total : ℚ
  status : InvoiceStatus
  nonneg : 0 ≤ subtotal ∧ 0 ≤ tax ∧ 0 ≤ total
  deriving DecidableEq

inductive LineType
  | plan
  | usage
  | tax
  | credit
  deriving DecidableEq, Repr

structure InvoiceLine where
  id : Uuid
  invoiceId : Uuid
  lineNo : Nat
  lineType : LineType
  description : String
  amount : ℚ
  deriving DecidableEq

/-- The tables of the invoicing procedures. -/
@[ext]
structure Books (c : Catalog) where
  usage : Usage c
  invoices : List Invoice
  lines : List InvoiceLine
  creditNotes : List CreditNote
  creditIds : (creditNotes.map CreditNote.id).Nodup

structure PreviewLine where
  lineNo : Nat
  lineType : LineType
  description : String
  amount : ℚ
  taxAmount : ℚ
  creditApplied : ℚ
  total : ℚ
  deriving DecidableEq

def isOpenNote (tenant : Uuid) (n : CreditNote) : Bool := n.tenantId = tenant ∧ 0 < n.remainingAmount

def openCredit (notes : List CreditNote) (tenant : Uuid) : ℚ :=
  ((notes.filter (isOpenNote tenant)).map CreditNote.remainingAmount).sum

/-- The tax of a period; its halves are exact at the scale PostgreSQL divides with. -/
def periodTax (c : Catalog) (tenant : Uuid) (plan : Plan) (overage : ℚ) : ℚ :=
  if ((c.tenant? tenant).map Tenant.taxExempt).getD false then 0
  else (plan.monthlyFee + overage) * (825 / 10000)

/-- The lines of a preview but the last. -/
def chargeLines (plan : Plan) (overage tax : ℚ) : List PreviewLine :=
  [⟨1, .plan, plan.code, roundHalfAway 2 plan.monthlyFee, 0, 0, roundHalfAway 2 plan.monthlyFee⟩,
    ⟨2, .usage, "usage overage", roundHalfAway 2 overage, 0, 0, roundHalfAway 2 overage⟩,
    ⟨3, .tax, "regional tax", tax / 2, 0, 0, tax / 2⟩,
    ⟨4, .tax, "local tax", tax / 2, 0, 0, tax / 2⟩]

def creditLine (credit : ℚ) : PreviewLine := ⟨5, .credit, "credit notes", 0, 0, credit, -credit⟩

/-- `fn_invoice_preview`; without a subscription the amounts are null, and there are no lines to store. -/
def fnInvoicePreview (reads : Reads) {c : Catalog} (u : Usage c) (notes : List CreditNote) (tenant : Uuid)
    (periodStart periodEnd : Int) : Except SqlError (Option (List PreviewLine)) := do
  let rating? ← fnUsageRating reads.rating u tenant periodStart periodEnd
  match u.planOf reads.preview tenant periodStart periodEnd, rating? with
  | some (_, plan), some rating =>
    let tax := periodTax c tenant plan rating.overageAmount
    let due := roundHalfAway 2 (plan.monthlyFee + rating.overageAmount + tax)
    .ok (some (chargeLines plan rating.overageAmount tax ++ [creditLine (min (openCredit notes tenant) due)]))
  | _, _ => .ok none

def Invoice.issue (i : Invoice) : Invoice := { i with status := .issued }

theorem no_amounts : (0 : ℚ) ≤ 0 ∧ (0 : ℚ) ≤ 0 ∧ (0 : ℚ) ≤ 0 := ⟨le_rfl, le_rfl, le_rfl⟩

/-- `INSERT INTO invoices .. ON CONFLICT (id) DO UPDATE SET status = 'issued'`. -/
def upsertInvoice {c : Catalog} (u : Usage c) (invoices : List Invoice) (id tenant periodId : Uuid)
    (periodEnd : Int) : Except SqlError (List Invoice) :=
  if ¬ (invoices.any fun i => i.id = id) ∧
      ¬ ((c.tenant? tenant).isSome ∧ u.periods.any fun p => p.id = periodId) then .error .foreignKeyViolation
  else .ok (upsert (fun i => i.id = id) Invoice.issue ⟨id, tenant, periodId, periodEnd, 0, 0, 0, .issued, no_amounts⟩ invoices)

/-- The running sums of the loop over the preview. -/
structure Sums where
  subtotal : ℚ
  tax : ℚ
  credit : ℚ

def Sums.add (sums : Sums) (line : PreviewLine) : Sums :=
  match line.lineType with
  | .plan | .usage => { sums with subtotal := sums.subtotal + roundHalfAway 2 line.amount }
  | .tax => { sums with tax := sums.tax + roundHalfAway 2 line.amount }
  | .credit => { sums with credit := line.creditApplied }

/-- One turn of that loop. -/
def issueLine (ids : Md5Ids) (invoiceId : Uuid) (state : List InvoiceLine × Sums) (line : PreviewLine) :
    Except SqlError (List InvoiceLine × Sums) := do
  let amount ← numeric12 (if line.lineType = .credit then line.total else line.amount)
  if state.1.any fun l => l.id = ids.lineId invoiceId line.lineNo ∨ l.invoiceId = invoiceId ∧ l.lineNo = line.lineNo then
    .error .uniqueViolation
  else
    .ok (state.1 ++ [⟨ids.lineId invoiceId line.lineNo, invoiceId, line.lineNo, line.lineType, line.description, amount⟩],
      state.2.add line)

def Invoice.setAmounts (subtotal tax total : ℚ) (i : Invoice) : Except SqlError Invoice := do
  let subtotal ← numeric12 subtotal
  let tax ← numeric12 tax
  let total ← numeric12 total
  if nonneg : 0 ≤ subtotal ∧ 0 ≤ tax ∧ 0 ≤ total then
    .ok { i with subtotal := subtotal, tax := tax, total := total, nonneg := nonneg }
  else .error .checkViolation

theorem numeric12_ok {x y : ℚ} (h : numeric12 x = .ok y) : y = roundHalfAway 2 x ∧ |roundHalfAway 2 x| < 10 ^ 10 := by
  unfold numeric12 at h
  split at h
  next within => exact ⟨(Except.ok.inj h).symm, within⟩
  next => cases h

theorem numeric12_digits {x y : ℚ} (h : numeric12 x = .ok y) : HasDigits 2 y := by
  rw [(numeric12_ok h).1]
  exact hasDigits_round 2 x

/-- `UPDATE credit_notes SET remaining_amount = ..` of one row. -/
def CreditNote.setRemaining (n : CreditNote) (x : ℚ) : Except SqlError CreditNote :=
  match h : numeric12 x with
  | .error e => .error e
  | .ok y =>
    if within : 0 ≤ y ∧ y ≤ n.amount then
      .ok { n with
        remainingAmount := y
        remaining_nonneg := within.1
        remaining_le := within.2
        cents := numeric12_digits h }
    else .error .checkViolation

/-- The loop that consumes the notes a query has listed; a note is reduced by what is left of the credit. -/
def consumeNotes : List CreditNote → ℚ → List CreditNote → Except SqlError (List CreditNote)
  | [], _, notes => .ok notes
  | listed :: rest, credit, notes =>
    if credit ≤ 0 then .ok notes
    else do
      let notes ← notes.mapM fun n =>
        if n.id = listed.id then n.setRemaining (max (n.remainingAmount - credit) 0) else .ok n
      consumeNotes rest (max (credit - listed.remainingAmount) 0) notes

/-- `ORDER BY issued_on, id`. -/
def CreditNote.before (n m : CreditNote) : Bool :=
  n.issuedOn < m.issuedOn ∨ n.issuedOn = m.issuedOn ∧ n.id ≤ m.id

def openNotes (notes : List CreditNote) (tenant : Uuid) : List CreditNote :=
  (notes.filter (isOpenNote tenant)).mergeSort CreditNote.before

/-- `sp_issue_invoice`. -/
def spIssueInvoice (ids : Md5Ids) (reads : Reads) {c : Catalog} (tenant : Uuid) (periodStart periodEnd : Int)
    (s : Books c) : Except SqlError (Books c) := do
  let periodId := ids.periodId tenant periodStart
  let invoiceId := ids.invoiceId periodId
  let usage ← spFinalizeRating ids reads tenant periodStart periodEnd s.usage
  let invoices ← upsertInvoice usage s.invoices invoiceId tenant periodId periodEnd
  match ← fnInvoicePreview reads usage s.creditNotes tenant periodStart periodEnd with
  | none => .error .notNullViolation
  | some preview =>
    let kept := s.lines.filter fun l => l.invoiceId ≠ invoiceId
    let (lines, sums) ← preview.foldlM (issueLine ids invoiceId) (kept, ⟨0, 0, 0⟩)
    let total := roundHalfAway 2 (sums.subtotal + sums.tax - sums.credit)
    let invoices ← invoices.mapM fun i =>
      if i.id = invoiceId then i.setAmounts (roundHalfAway 2 sums.subtotal) (roundHalfAway 2 sums.tax) total
      else .ok i
    let notes ← consumeNotes (openNotes s.creditNotes tenant) sums.credit s.creditNotes
    if creditIds : (notes.map CreditNote.id).Nodup then .ok ⟨usage, invoices, lines, notes, creditIds⟩
    else .error .uniqueViolation

end OtterWorks.Billing
