import OtterWorks.Migration.ExtractMoves
import OtterWorks.Lib.Fallible
import OtterWorks.Lib.Upsert

namespace OtterWorks.Migration

/-- A record of a key in the unload file of a DONE range. -/
def Recorded (ts : TableSpec) (ranges : List KeyRange) (files : KeyMap Nat (List Raw)) (k : Key) (raw : Raw) : Prop :=
  ∃ rng ∈ ranges, rng.status = .done ∧ ∃ records, files[rng.rangeSeq]? = some records ∧ raw ∈ records ∧
    (ts.convert raw).key = some k

/-- Unless the application has changed it since, the source has the row as it was unloaded, or had when PURGE
deleted it. -/
structure Accounted (s : SourceTable) (row : SourceRow) : Prop where
  there : ∀ columns, s.rows[row.key]? = some columns → row.key ∈ s.edited ∨ columns = row.columns
  gone : ∀ columns, s.deleted[row.key]? = some (columns, false) → columns = row.columns

/-- The unload file of a range is made of these rows. -/
structure UnloadOf (ts : TableSpec) (files : KeyMap Nat (List Raw)) (s : SourceTable) (rng : KeyRange)
    (rows : List SourceRow) (records : List Raw) : Prop where
  file : files[rng.rangeSeq]? = some records
  each : List.Forall₂ (fun row raw => ts.unload row = .ok raw) rows records
  within : ∀ row ∈ rows, keyBetween rng.keyFrom rng.keyTo row.key = true
  selected : ∀ row ∈ rows, ts.selects row = true
  distinct : (rows.map SourceRow.key).Nodup
  counted : rng.rowCount = some rows.length
  accounted : ∀ row ∈ rows, Accounted s row

/-- The ranges follow each other in the key order, and each DONE one has its rows in its file. -/
structure Filed (ts : TableSpec) (ranges : List KeyRange) (files : KeyMap Nat (List Raw)) (s : SourceTable) : Prop where
  numbered : InOrder ranges
  apart : ranges.Pairwise fun a b => compare a.keyTo b.keyFrom = .lt
  unloaded : ∀ rng ∈ ranges, rng.status = .done → ∃ rows records, UnloadOf ts files s rng rows records

/-- What PURGE deleted is audited, and gone. -/
structure Deletions (s : SourceTable) : Prop where
  gone : ∀ k ∈ s.audit, k ∉ s.rows
  deleted : ∀ k, k ∈ s.deleted ↔ k ∈ s.audit

section

variable {D : Drift} {batch : BatchConfig} {ts : TableSpec} {ranges : List KeyRange}
  {files : KeyMap Nat (List Raw)} {s s' : SourceTable}

theorem keyBetween_iff {first last k : Key} :
    keyBetween first last k = true ↔ compare first k ≠ .gt ∧ compare k last ≠ .gt := by
  simp [keyBetween]

theorem InOrder.inj {ranges : List KeyRange} (order : InOrder ranges) {a b : KeyRange} (ha : a ∈ ranges)
    (hb : b ∈ ranges) (same : a.rangeSeq = b.rangeSeq) : a = b := by
  have distinct : (ranges.map KeyRange.rangeSeq).Nodup := order.imp fun h => Nat.ne_of_lt h
  exact List.inj_on_of_nodup_map distinct ha hb same

/-- A key lies in one range only. -/
theorem Filed.same_range (h : Filed ts ranges files s) {a b : KeyRange} (ha : a ∈ ranges) (hb : b ∈ ranges)
    {k : Key} (left : keyBetween a.keyFrom a.keyTo k = true) (right : keyBetween b.keyFrom b.keyTo k = true) : a = b := by
  have never : ∀ a b : KeyRange, keyBetween a.keyFrom a.keyTo k = true → keyBetween b.keyFrom b.keyTo k = true →
      compare a.keyTo b.keyFrom ≠ .lt := by
    intro a b left right below
    have upper := (keyBetween_iff.mp left).2
    have lower := (keyBetween_iff.mp right).1
    have first : compare k b.keyFrom = .lt :=
      Std.TransCmp.lt_of_isLE_of_lt (Ordering.isLE_iff_ne_gt.mpr upper) below
    exact lower (Std.OrientedCmp.gt_iff_lt.mpr first)
  obtain ⟨i, hi, rfl⟩ := List.mem_iff_getElem.mp ha
  obtain ⟨j, hj, rfl⟩ := List.mem_iff_getElem.mp hb
  have ordered := List.pairwise_iff_getElem.mp h.apart
  rcases Nat.lt_trichotomy i j with before | same | after
  · exact absurd (ordered i j hi hj before) (never _ _ left right)
  · subst same
    rfl
  · exact absurd (ordered j i hj hi after) (never _ _ right left)

theorem UnloadOf.key {rng : KeyRange} {rows : List SourceRow} {records : List Raw}
    (h : UnloadOf ts files s rng rows records) {raw : Raw} (hraw : raw ∈ records) :
    ∃ row ∈ rows, ts.unload row = .ok raw ∧ (ts.convert raw).key = some row.key := by
  obtain ⟨row, hrow, made⟩ := forall₂_right h.each hraw
  exact ⟨row, hrow, made, ts.unload_key row raw made⟩

/-- A key has one record. -/
theorem Recorded.unique (filed : Filed ts ranges files s) {k : Key} {raw raw' : Raw}
    (h : Recorded ts ranges files k raw) (h' : Recorded ts ranges files k raw') : raw = raw' := by
  obtain ⟨rng, hrng, done, records, file, hraw, key⟩ := h
  obtain ⟨rng', hrng', done', records', file', hraw', key'⟩ := h'
  obtain ⟨rows, made, unload⟩ := filed.unloaded rng hrng done
  cases Option.some.inj (file.symm.trans unload.file)
  obtain ⟨row, hrow, out, own⟩ := unload.key hraw
  have here : row.key = k := Option.some.inj (own.symm.trans key)
  have left := unload.within row hrow
  -- both records lie in one file
  have same : rng' = rng := by
    obtain ⟨rows', made', unload'⟩ := filed.unloaded rng' hrng' done'
    cases Option.some.inj (file'.symm.trans unload'.file)
    obtain ⟨row', hrow', _, own'⟩ := unload'.key hraw'
    have here' : row'.key = k := Option.some.inj (own'.symm.trans key')
    have right := unload'.within row' hrow'
    rw [here'] at right
    rw [here] at left
    exact filed.same_range hrng' hrng right left
  subst same
  cases Option.some.inj (file.symm.trans file')
  obtain ⟨row', hrow', out', own'⟩ := unload.key hraw'
  have here' : row'.key = k := Option.some.inj (own'.symm.trans key')
  have rowSame : row' = row := List.inj_on_of_nodup_map unload.distinct hrow' hrow (here'.trans here.symm)
  rw [rowSame, out] at out'
  exact Except.ok.inj out'

theorem Accounted.drift {row : SourceRow} (h : Accounted s row) (drift : D.rel s s') : Accounted s' row := by
  constructor
  · intro columns held
    rcases D.honest s s' drift row.key columns held with edited | same
    · exact Or.inl edited
    · exact (h.there columns same).imp_left (D.edited s s' drift row.key)
  · intro columns held
    rw [D.deleted s s' drift] at held
    exact h.gone columns held

theorem Deletions.drift (h : Deletions s) (drift : D.rel s s') : Deletions s' := by
  obtain ⟨gone, deleted⟩ := h
  constructor
  · intro k hk
    rw [D.audit s s' drift] at hk
    rw [D.keys s s' drift]
    exact gone k hk
  · intro k
    rw [D.audit s s' drift, D.deleted s s' drift]
    exact deleted k

/-- A source that accounts for the same rows of the same files. -/
theorem Filed.source (h : Filed ts ranges files s)
    (accounted : ∀ rng ∈ ranges, rng.status = .done → ∀ rows records, UnloadOf ts files s rng rows records →
      ∀ row ∈ rows, Accounted s' row) : Filed ts ranges files s' := by
  refine ⟨h.numbered, h.apart, ?_⟩
  intro rng hrng done
  obtain ⟨rows, records, unload⟩ := h.unloaded rng hrng done
  exact ⟨rows, records, unload.file, unload.each, unload.within, unload.selected, unload.distinct, unload.counted,
    accounted rng hrng done rows records unload⟩

theorem Filed.drift (h : Filed ts ranges files s) (drift : D.rel s s') : Filed ts ranges files s' :=
  h.source fun _ _ _ _ _ unload row hrow => (unload.accounted row hrow).drift drift

theorem onRange_seqs (ranges : List KeyRange) (seq : Nat) {f : KeyRange → KeyRange}
    (shape : ∀ r, (f r).rangeSeq = r.rangeSeq) :
    (ranges.map fun r => if r.rangeSeq = seq then f r else r).map KeyRange.rangeSeq =
      ranges.map KeyRange.rangeSeq := map_updated fun r _ _ => shape r

theorem Filed.onRange (h : Filed ts ranges files s) {seq : Nat} {f : KeyRange → KeyRange}
    (shape : ∀ r, (f r).rangeSeq = r.rangeSeq ∧ (f r).keyFrom = r.keyFrom ∧ (f r).keyTo = r.keyTo)
    (changed : ∀ r ∈ ranges, r.rangeSeq = seq → (f r).status = .done →
      ∃ rows records, UnloadOf ts files s (f r) rows records) :
    Filed ts (ranges.map fun r => if r.rangeSeq = seq then f r else r) files s := by
  have each : ∀ r : KeyRange, (if r.rangeSeq = seq then f r else r).rangeSeq = r.rangeSeq ∧
      (if r.rangeSeq = seq then f r else r).keyFrom = r.keyFrom ∧
      (if r.rangeSeq = seq then f r else r).keyTo = r.keyTo := by
    intro r
    split
    next => exact shape r
    next => exact ⟨rfl, rfl, rfl⟩
  refine ⟨?_, ?_, ?_⟩
  · unfold InOrder
    rw [onRange_seqs ranges seq fun r => (shape r).1]
    exact h.numbered
  · rw [List.pairwise_map]
    apply h.apart.imp
    intro a b below
    rw [(each a).2.2, (each b).2.1]
    exact below
  · intro rng hrng done
    obtain ⟨r, hr, rfl⟩ := List.mem_map.mp hrng
    split at done
    next here =>
      rw [if_pos here]
      exact changed r hr here done
    next other =>
      rw [if_neg other]
      exact h.unloaded r hr done

/-- A pending range is the one of its number. -/
theorem Pending.inj {rng : KeyRange} (pending : Pending rng ranges) (order : InOrder ranges) {r : KeyRange} (hr : r ∈ ranges)
    (same : r.rangeSeq = rng.rangeSeq) : r.keyFrom = rng.keyFrom ∧ r.keyTo = rng.keyTo ∧ r.status ≠ .done := by
  obtain ⟨r', hr', seq, first, last, open_⟩ := pending
  cases order.inj hr hr' (same.trans seq.symm)
  exact ⟨first, last, open_⟩

theorem planFrom_keys {rangeRows budget seq : Nat} {keys : List Key} :
    ∀ r ∈ planFrom rangeRows budget seq keys, r.status = .planned ∧ r.keyFrom ∈ keys := by
  induction budget generalizing seq keys with
  | zero =>
    intro r hr
    cases hr
  | succ budget ih =>
    intro r hr
    unfold planFrom at hr
    split at hr
    next => cases hr
    next first chunk taken =>
      rcases List.mem_cons.mp hr with here | later
      · rw [here]
        refine ⟨rfl, ?_⟩
        have member : first ∈ keys.take rangeRows := by rw [taken]; exact List.mem_cons_self ..
        exact List.mem_of_mem_take member
      · obtain ⟨planned, member⟩ := ih r later
        exact ⟨planned, List.mem_of_mem_drop member⟩

/-- Planned ranges of ascending keys follow each other. -/
theorem planFrom_apart {rangeRows budget seq : Nat} {keys : List Key}
    (ascending : keys.Pairwise fun a b => compare a b = .lt) :
    (planFrom rangeRows budget seq keys).Pairwise fun a b => compare a.keyTo b.keyFrom = .lt := by
  induction budget generalizing seq keys with
  | zero => exact .nil
  | succ budget ih =>
    unfold planFrom
    split
    next => exact .nil
    next first chunk taken =>
      rw [← List.take_append_drop rangeRows keys, List.pairwise_append] at ascending
      obtain ⟨_, below, across⟩ := ascending
      refine List.pairwise_cons.mpr ⟨?_, ih below⟩
      intro r hr
      apply across _ _ _ (planFrom_keys r hr).2
      rw [taken]
      exact List.getLast_mem _

theorem selectedKeys_ascending (ts : TableSpec) (rows : KeyMap Key Fields) :
    (selectedKeys ts rows).Pairwise fun a b => compare a b = .lt := Std.ExtTreeMap.ordered_keys

theorem mem_rangeRows {first last : Key} {rows : KeyMap Key Fields} {row : SourceRow} :
    row ∈ rangeRows ts first last rows ↔
      rows[row.key]? = some row.columns ∧ ts.selects row = true ∧ keyBetween first last row.key = true := by
  unfold rangeRows
  rw [List.mem_map]
  constructor
  · intro listed
    obtain ⟨entry, held, rfl⟩ := listed
    have found := KeyMap.mem_toList.mp (show (entry.1, entry.2) ∈ _ from held)
    rw [Std.ExtTreeMap.getElem?_filter'] at found
    obtain ⟨there, kept⟩ := Option.filter_eq_some_iff.mp found
    simp only [Bool.and_eq_true] at kept
    exact ⟨there, kept.1, kept.2⟩
  · intro listed
    obtain ⟨there, selected, between⟩ := listed
    refine ⟨(row.key, row.columns), ?_, rfl⟩
    apply KeyMap.mem_toList.mpr
    rw [Std.ExtTreeMap.getElem?_filter', there]
    simp [Option.filter, selected, between]

theorem rangeRows_distinct (first last : Key) (rows : KeyMap Key Fields) :
    ((rangeRows ts first last rows).map SourceRow.key).Nodup := by
  unfold rangeRows
  rw [List.map_map]
  change ((rows.filter _).toList.map Prod.fst).Nodup
  rw [Std.ExtTreeMap.map_fst_toList_eq_keys]
  exact Std.ExtTreeMap.nodup_keys

/-- A range that EXTRACT has finished holds the rows its cursor read. -/
theorem UnloadOf.finish {rng r : KeyRange} {rows : List SourceRow} {records : List Raw} {s₁ : SourceTable}
    (file : files[rng.rangeSeq]? = some records)
    (unloaded : List.Forall₂ (fun row raw => ts.unload row = .ok raw) rows records)
    (fetched : rows = rangeRows ts rng.keyFrom rng.keyTo s₁.rows) (drift : D.rel s₁ s) (deletions : Deletions s)
    (seq : r.rangeSeq = rng.rangeSeq) (first : r.keyFrom = rng.keyFrom) (last : r.keyTo = rng.keyTo)
    (count : r.rowCount = some rows.length) : UnloadOf ts files s r rows records := by
  have read : ∀ row ∈ rows, s₁.rows[row.key]? = some row.columns ∧ ts.selects row = true ∧
      keyBetween rng.keyFrom rng.keyTo row.key = true := by
    intro row hrow
    rw [fetched] at hrow
    exact mem_rangeRows.mp hrow
  refine ⟨?_, unloaded, ?_, fun row hrow => (read row hrow).2.1, ?_, count, ?_⟩
  · rw [seq]
    exact file
  · intro row hrow
    rw [first, last]
    exact (read row hrow).2.2
  · rw [fetched]
    exact rangeRows_distinct ..
  · intro row hrow
    obtain ⟨here, _, _⟩ := read row hrow
    constructor
    · intro columns held
      rcases D.honest s₁ s drift row.key columns held with edited | same
      · exact Or.inl edited
      · rw [here] at same
        exact Or.inr (Option.some.inj same).symm
    · intro columns held
      have deleted : row.key ∈ s.deleted := Std.ExtTreeMap.isSome_getElem?_iff_mem.mp (by rw [held]; rfl)
      have present : row.key ∈ s₁.rows := Std.ExtTreeMap.isSome_getElem?_iff_mem.mp (by rw [here]; rfl)
      have gone := deletions.gone row.key ((deletions.deleted row.key).mp deleted)
      exact absurd ((D.keys s₁ s drift row.key).mpr present) gone

variable {w v : World}

theorem ExtractMove.filed (move : ExtractMove D batch ts w v) (deletions : Deletions (w.source ts.name))
    (h : Filed ts (w.target ts.name).ranges (w.target ts.name).files (w.source ts.name)) :
    Filed ts (v.target ts.name).ranges (v.target ts.name).files (v.source ts.name) := by
  cases move with
  | plan keys s₀ blank drift selected =>
    rw [World.onTarget_self]
    simp only [blank, List.nil_append]
    subst selected
    refine ⟨planRanges_inOrder _ _, planFrom_apart (selectedKeys_ascending ..), ?_⟩
    intro rng hrng done
    have planned := (planFrom_keys rng hrng).1
    rw [planned] at done
    cases done
  | status rng st pending open_ =>
    rw [World.onTarget_self]
    apply h.onRange
    · exact fun _ => ⟨rfl, rfl, rfl⟩
    · exact fun _ _ _ done => absurd done open_
  | file rng write pending =>
    rw [World.onTarget_self]
    refine ⟨h.numbered, h.apart, ?_⟩
    intro r hr done
    obtain ⟨rows, records, unload⟩ := h.unloaded r hr done
    have other : rng.rangeSeq ≠ r.rangeSeq := by
      intro same
      exact (pending.inj h.numbered hr same.symm).2.2 done
    refine ⟨rows, records, ?_, unload.each, unload.within, unload.selected, unload.distinct, unload.counted,
      unload.accounted⟩
    rw [Std.ExtTreeMap.getElem?_insert, if_neg (by simpa using other)]
    exact unload.file
  | fetch rng pending =>
    rw [World.onSource_self]
    apply h.source
    intro r hr done rows records unload row hrow
    have outside : row.key ∉ (rangeRows ts rng.keyFrom rng.keyTo (w.source ts.name).rows).map SourceRow.key := by
      intro listed
      obtain ⟨row', hrow', same⟩ := List.mem_map.mp listed
      have between := (mem_rangeRows.mp hrow').2.2
      obtain ⟨r', hr', _, first, last, open_⟩ := pending
      rw [same, ← first, ← last] at between
      cases h.same_range hr hr' (unload.within row hrow) between
      exact open_ done
    obtain ⟨there, gone⟩ := unload.accounted row hrow
    refine ⟨?_, gone⟩
    intro columns held
    apply (there columns held).imp_left
    intro edited
    exact KeyMap.mem_dropKeys.mpr ⟨edited, outside⟩
  | finish rng rows records s₁ pending file unloaded fetched drift clean =>
    rw [World.onTarget_self]
    apply h.onRange
    · exact fun _ => ⟨rfl, rfl, rfl⟩
    · intro r hr same _
      obtain ⟨first, last, _⟩ := pending.inj h.numbered hr same
      exact ⟨rows, records, .finish file unloaded fetched drift deletions same first last rfl⟩
  | ledger n files all count =>
    rw [World.onTarget_self]
    exact h

/-- EXTRACT leaves the records of DONE ranges alone. -/
theorem ExtractMove.recorded (move : ExtractMove D batch ts w v) (order : InOrder (w.target ts.name).ranges) {k : Key}
    {raw : Raw} (h : Recorded ts (w.target ts.name).ranges (w.target ts.name).files k raw) :
    Recorded ts (v.target ts.name).ranges (v.target ts.name).files k raw := by
  obtain ⟨r, hr, done, records, file, hraw, key⟩ := h
  have onRange : ∀ (rng : KeyRange) (f : KeyRange → KeyRange), Pending rng (w.target ts.name).ranges →
      r ∈ (w.target ts.name).ranges.map fun r => if r.rangeSeq = rng.rangeSeq then f r else r := by
    intro rng f pending
    refine List.mem_map.mpr ⟨r, hr, if_neg ?_⟩
    intro same
    exact (pending.inj order hr same).2.2 done
  cases move with
  | plan keys s₀ blank drift selected =>
    rw [blank] at hr
    cases hr
  | status rng st pending open_ =>
    rw [World.onTarget_self]
    exact ⟨r, onRange rng _ pending, done, records, file, hraw, key⟩
  | file rng write pending =>
    rw [World.onTarget_self]
    refine ⟨r, hr, done, records, ?_, hraw, key⟩
    have other : rng.rangeSeq ≠ r.rangeSeq := by
      intro same
      exact (pending.inj order hr same.symm).2.2 done
    rw [Std.ExtTreeMap.getElem?_insert, if_neg (by simpa using other)]
    exact file
  | fetch rng pending => exact ⟨r, hr, done, records, file, hraw, key⟩
  | finish rng rows records' s₁ pending =>
    rw [World.onTarget_self]
    exact ⟨r, onRange rng _ pending, done, records, file, hraw, key⟩
  | ledger n files all count =>
    rw [World.onTarget_self]
    exact ⟨r, hr, done, records, file, hraw, key⟩

end

end OtterWorks.Migration
