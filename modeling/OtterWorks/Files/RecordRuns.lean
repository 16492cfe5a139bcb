import OtterWorks.Files.Records
import OtterWorks.Lib.Transition
import Mathlib.Tactic.Common

namespace OtterWorks.Files

/-- Every row has its object and, with the same key and size, a version of its current number. -/
def Complete (s : Service) : Prop :=
  ∀ id file, s.store.files id = some file → s.store.objects file.s3Key = true ∧
    ∃ v, s.store.versions id file.version = some v ∧ v.s3Key = file.s3Key ∧ v.sizeBytes = file.sizeBytes

/-- Every row has its object, and a version of its number has its key and size. -/
def Matched (s : Service) : Prop :=
  ∀ id file, s.store.files id = some file → s.store.objects file.s3Key = true ∧
    ∀ v, s.store.versions id file.version = some v → v.s3Key = file.s3Key ∧ v.sizeBytes = file.sizeBytes

/-- No file that a deletion has removed is there again. -/
def NeverRecreated (s : Service) : Prop := ∀ id ∈ s.deleted, s.store.files id = none

/-- A row stands for an upload that has not stored its version, be it still to come or given up. -/
def HalfUpload (s : Service) (id : Uuid) : Prop :=
  ∃ u, s.uploads id = some u ∧ (u.stage = .version ∨ u.stage = .half) ∧ s.store.files id ≠ none

/-- The event is the `put_file` of an upload, and the call takes effect. -/
def StoresRow (s : Service) (id : Uuid) : Event → Prop
  | .uploadCall id' outcome => id' = id ∧ outcome ≠ .failed ∧ ∃ u, s.uploads id = some u ∧ u.stage = .row
  | _ => False

/-- The event is the `put_version` of an upload or the call with which a `delete_file` removes its row, and the call
takes effect. -/
def SettlesRow (s : Service) (id : Uuid) : Event → Prop
  | .uploadCall id' outcome => id' = id ∧ outcome ≠ .failed ∧ ∃ u, s.uploads id = some u ∧ u.stage = .version
  | .deleteCall i outcome => outcome ≠ .failed ∧ ∃ file, s.deletes[i]? = some (.row file) ∧ file.id = id
  | _ => False

/-- The upload has stored its row. -/
def UploadStage.stored : UploadStage → Bool
  | .object | .row => false
  | .version | .half | .finished => true

/-- What no update of a row touches. -/
structure SameRecord (f g : FileMetadata) : Prop where
  id : g.id = f.id
  s3Key : g.s3Key = f.s3Key
  sizeBytes : g.sizeBytes = f.sizeBytes
  version : g.version = f.version

/-- A row that was read once, and the upload it came from. -/
def CameFrom (uploads : Uuid → Option Upload) (file : FileMetadata) : Prop :=
  ∃ u, uploads file.id = some u ∧ u.stage.stored = true ∧ SameRecord u.file file

def DeleteInv (s : Service) : DeleteStage → Prop
  | .row file => CameFrom s.uploads file
  | .object file => CameFrom s.uploads file ∧ s.store.files file.id = none
  | .finished => True

/-- What holds of an upload and of the rows under its id. -/
structure UploadInv (s : Store) (id : Uuid) (u : Upload) : Prop where
  fileId : u.file.id = id
  key : u.file.s3Key.fileId = id
  version : u.file.version = 1
  early : u.stage.stored = false → s.files id = none
  object : u.stage = .row ∨ s.files id ≠ none → s.objects u.file.s3Key = true
  unversioned : u.stage ≠ .finished → s.versions id 1 = none
  versioned : u.stage = .finished → s.files id ≠ none → s.versions id 1 = some u.file.firstVersion

structure Inv (s : Service) : Prop where
  row : ∀ id file, s.store.files id = some file → file.id = id ∧ CameFrom s.uploads file
  unused : ∀ id, s.uploads id = none → s.store.versions id 1 = none
  upload : ∀ id u, s.uploads id = some u → UploadInv s.store id u
  deletes : ∀ d ∈ s.deletes, DeleteInv s d
  deleted : ∀ id ∈ s.deleted, s.store.files id = none ∧ ∃ u, s.uploads id = some u ∧ u.stage.stored = true

/-- The upload that a row comes from. -/
theorem Inv.uploaded {s : Service} (inv : Inv s) {id : Uuid} {file : FileMetadata}
    (hf : s.store.files id = some file) :
    ∃ u, s.uploads id = some u ∧ u.stage.stored = true ∧ SameRecord u.file file ∧ file.version = 1 ∧
      UploadInv s.store id u := by
  obtain ⟨fileId, u, hu, stored, same⟩ := inv.row id file hf
  rw [fileId] at hu
  have up := inv.upload id u hu
  exact ⟨u, hu, stored, same, same.version.trans up.version, up⟩

/-- The object of a row is there, and what is stored as its version has its key and size. -/
theorem Inv.matched {s : Service} (inv : Inv s) : Matched s := by
  intro id file hf
  obtain ⟨u, hu, _, same, version, up⟩ := inv.uploaded hf
  have there : s.store.files id ≠ none := by
    rw [hf]
    exact Option.some_ne_none _
  refine ⟨by rw [same.s3Key]; exact up.object (Or.inr there), ?_⟩
  intro v hv
  rw [version] at hv
  by_cases finished : u.stage = .finished
  · cases Option.some.inj (hv.symm.trans (up.versioned finished there))
    exact ⟨same.s3Key.symm, same.sizeBytes.symm⟩
  · rw [up.unversioned finished] at hv
    cases hv

/-- In a state that keeps the invariant the rows are complete exactly if no upload is half done. -/
theorem complete_iff {s : Service} (inv : Inv s) :
    (Complete s ∧ NeverRecreated s) ↔ ∀ id, ¬ HalfUpload s id := by
  constructor
  · intro h id half
    obtain ⟨u, hu, half, there⟩ := half
    obtain ⟨file, hf⟩ := Option.ne_none_iff_exists'.mp there
    obtain ⟨u', hu', _, _, version, up⟩ := inv.uploaded hf
    cases Option.some.inj (hu.symm.trans hu')
    obtain ⟨_, v, hv, _⟩ := h.1 id file hf
    have unfinished : u.stage ≠ .finished := by
      rcases half with h | h
      · rw [h]
        decide
      · rw [h]
        decide
    rw [version, up.unversioned unfinished] at hv
    cases hv
  · intro noHalf
    refine ⟨?_, fun id hid => (inv.deleted id hid).1⟩
    intro id file hf
    obtain ⟨u, hu, stored, _, version, up⟩ := inv.uploaded hf
    obtain ⟨object, same⟩ := inv.matched id file hf
    have there : s.store.files id ≠ none := by
      rw [hf]
      exact Option.some_ne_none _
    have finished : u.stage = .finished := by
      cases hs : u.stage with
      | object =>
        rw [hs] at stored
        cases stored
      | row =>
        rw [hs] at stored
        cases stored
      | version => exact absurd ⟨u, hu, Or.inl hs, there⟩ (noHalf id)
      | half => exact absurd ⟨u, hu, Or.inr hs, there⟩ (noHalf id)
      | finished => rfl
    have hv : s.store.versions id file.version = some u.file.firstVersion := by
      rw [version]
      exact up.versioned finished there
    exact ⟨object, u.file.firstVersion, hv, same _ hv⟩

section Calls

variable {u : Upload}

theorem call_file (s : Store) (u : Upload) (outcome : Outcome) : (u.call s outcome).2.file = u.file := by
  unfold Upload.call
  split <;> rfl

theorem call_stored (s : Store) (u : Upload) (outcome : Outcome) (h : u.stage.stored = true) :
    (u.call s outcome).2.stage.stored = true := by
  unfold Upload.call
  split <;> simp_all [UploadStage.stored]

/-- A call touches nothing under another id. -/
theorem call_other (s : Store) (u : Upload) (outcome : Outcome) {id : Uuid} (other : u.file.id ≠ id) :
    (u.call s outcome).1.files id = s.files id ∧ (u.call s outcome).1.versions id = s.versions id := by
  unfold Upload.call
  split <;> simp [Store.uploadObject, Store.putFile, Store.putVersion, FileMetadata.firstVersion,
    Function.update_of_ne other.symm]

theorem call_objects (s : Store) (u : Upload) (outcome : Outcome) {key : ObjectKey} (h : s.objects key = true) :
    (u.call s outcome).1.objects key = true := by
  unfold Upload.call
  split <;> simp [Store.uploadObject, Store.putFile, Store.putVersion, Function.update_apply, h]

/-- A call leaves a row without its version where it puts the row, and where it does not store the version of a row
that has none. -/
theorem call_half {s : Store} {id : Uuid} (outcome : Outcome) (up : UploadInv s id u) :
    (((u.call s outcome).2.stage = .version ∨ (u.call s outcome).2.stage = .half) ∧
        (u.call s outcome).1.files id ≠ none) ↔
      (outcome ≠ .failed ∧ u.stage = .row) ∨
        (((u.stage = .version ∨ u.stage = .half) ∧ s.files id ≠ none) ∧ ¬ (outcome ≠ .failed ∧ u.stage = .version)) := by
  obtain ⟨fileId, _, _, early, _, _, _⟩ := up
  obtain ⟨file, stage⟩ := u
  subst fileId
  cases stage <;> cases outcome <;>
    simp_all [Upload.call, UploadStage.stored, Store.uploadObject, Store.putFile, Store.putVersion]

/-- What a call leaves of its own upload. -/
theorem call_inv {s : Store} {id : Uuid} (outcome : Outcome) (up : UploadInv s id u) :
    UploadInv (u.call s outcome).1 id (u.call s outcome).2 := by
  obtain ⟨fileId, key, version, early, object, unversioned, versioned⟩ := up
  obtain ⟨file, stage⟩ := u
  subst fileId
  cases stage <;> cases outcome <;> constructor <;>
    simp_all [Upload.call, UploadStage.stored, Store.uploadObject, Store.putFile, Store.putVersion,
      FileMetadata.firstVersion]

end Calls

section Frames

variable {s : Store} {id : Uuid} {u : Upload}

/-- What is said of an upload stays true where rows only disappear. -/
theorem UploadInv.fewer {s' : Store} (h : UploadInv s id u) (files : s.files id = none → s'.files id = none)
    (objects : u.stage = .row ∨ s'.files id ≠ none → s.objects u.file.s3Key = true → s'.objects u.file.s3Key = true)
    (versions : s'.versions id = s.versions id) : UploadInv s' id u := by
  refine ⟨h.fileId, h.key, h.version, fun early => files (h.early early), ?_, ?_, ?_⟩
  · intro there
    apply objects there
    apply h.object
    rcases there with row | there
    · exact Or.inl row
    · exact Or.inr fun none => there (files none)
  · rw [versions]
    exact h.unversioned
  · intro finished there
    rw [versions]
    exact h.versioned finished fun none => there (files none)

/-- Uploads only go on, with the file they started with. -/
def Further (uploads uploads' : Uuid → Option Upload) : Prop :=
  ∀ id u, uploads id = some u →
    ∃ u', uploads' id = some u' ∧ u'.file = u.file ∧ (u.stage.stored = true → u'.stage.stored = true)

theorem Further.refl (uploads : Uuid → Option Upload) : Further uploads uploads :=
  fun _ u hu => ⟨u, hu, rfl, fun h => h⟩

theorem CameFrom.further {uploads uploads' : Uuid → Option Upload} {file : FileMetadata} (h : CameFrom uploads file)
    (further : Further uploads uploads') : CameFrom uploads' file := by
  obtain ⟨u, hu, stored, same⟩ := h
  obtain ⟨u', hu', sameFile, stored'⟩ := further file.id u hu
  exact ⟨u', hu', stored' stored, by rw [sameFile]; exact same⟩

theorem DeleteInv.frame {s s' : Service} {d : DeleteStage} (h : DeleteInv s d) (further : Further s.uploads s'.uploads)
    (files : ∀ file, CameFrom s.uploads file → s.store.files file.id = none → s'.store.files file.id = none) :
    DeleteInv s' d := by
  cases d with
  | row file => exact CameFrom.further h further
  | object file => exact ⟨h.1.further further, files file h.1 h.2⟩
  | finished => trivial

theorem change_same (now : Nat) (file : FileMetadata) (change : Change) : SameRecord file (change.apply now file) := by
  cases change <;> exact ⟨rfl, rfl, rfl, rfl⟩

theorem SameRecord.trans {f g k : FileMetadata} (h : SameRecord f g) (h' : SameRecord g k) : SameRecord f k :=
  ⟨h'.id.trans h.id, h'.s3Key.trans h.s3Key, h'.sizeBytes.trans h.sizeBytes, h'.version.trans h.version⟩

theorem form_file {form : UploadForm} {maxUploadBytes now : Nat} {file : FileMetadata}
    (h : form.file maxUploadBytes id now = .ok file) : file.id = id ∧ file.s3Key.fileId = id ∧ file.version = 1 := by
  unfold UploadForm.file at h
  split at h
  next => cases h
  next =>
    split at h
    next => cases h
    next =>
      split at h
      next => cases h
      next =>
        cases Except.ok.inj h
        exact ⟨rfl, rfl, rfl⟩

end Frames

section Steps

variable {s : Service} {id : Uuid}

/-- No row stands under an id that no upload has drawn. -/
theorem files_unused (inv : Inv s) (unused : s.uploads id = none) : s.store.files id = none := by
  cases hf : s.store.files id with
  | none => rfl
  | some file =>
    obtain ⟨fileId, u, hu, _⟩ := inv.row id file hf
    rw [fileId, unused] at hu
    cases hu

theorem upload_inv (inv : Inv s) {form : UploadForm} {maxUploadBytes now : Nat} {file : FileMetadata}
    (unused : s.uploads id = none) (h : form.file maxUploadBytes id now = .ok file) :
    Inv { s with uploads := Function.update s.uploads id (some ⟨file, .object⟩) } := by
  have further : Further s.uploads (Function.update s.uploads id (some ⟨file, .object⟩)) := by
    intro x u hu
    have other : x ≠ id := by
      intro here
      rw [here, unused] at hu
      cases hu
    exact ⟨u, by rw [Function.update_of_ne other]; exact hu, rfl, fun h => h⟩
  obtain ⟨fileId, key, version⟩ := form_file h
  refine ⟨?_, ?_, ?_, ?_, ?_⟩
  · intro x f hf
    obtain ⟨same, came⟩ := inv.row x f hf
    exact ⟨same, came.further further⟩
  · intro x hx
    dsimp only at hx ⊢
    apply inv.unused
    by_cases here : x = id
    · rw [here]
      exact unused
    · rwa [Function.update_of_ne here] at hx
  · intro x u hu
    dsimp only at hu ⊢
    by_cases here : x = id
    · subst here
      rw [Function.update_self] at hu
      cases Option.some.inj hu
      have none := files_unused inv unused
      refine ⟨fileId, key, version, fun _ => none, ?_, fun _ => inv.unused x unused, fun h => by cases h⟩
      intro there
      rcases there with row | there
      · cases row
      · exact absurd none there
    · rw [Function.update_of_ne here] at hu
      exact inv.upload x u hu
  · intro d hd
    exact (inv.deletes d hd).frame further fun _ _ none => none
  · intro x hx
    obtain ⟨none, u, hu, stored⟩ := inv.deleted x hx
    obtain ⟨u', hu', _, stored'⟩ := further x u hu
    exact ⟨none, u', hu', stored' stored⟩

/-- The row under the id of a call is the one before it, or the one the call has just put. -/
theorem call_row {s : Store} {u : Upload} {outcome : Outcome} {file : FileMetadata}
    (h : (u.call s outcome).1.files u.file.id = some file) :
    s.files u.file.id = some file ∨ (file = u.file ∧ (u.call s outcome).2.stage.stored = true) := by
  unfold Upload.call at h ⊢
  split at h
  case h_4 | h_5 =>
    right
    simp only [Store.putFile, Function.update_self, Option.some.injEq] at h
    exact ⟨h.symm, rfl⟩
  all_goals exact Or.inl h

theorem call_gone {s : Store} {u : Upload} (outcome : Outcome) (stored : u.stage.stored = true)
    (gone : s.files u.file.id = none) : (u.call s outcome).1.files u.file.id = none := by
  cases hf : (u.call s outcome).1.files u.file.id with
  | none => rfl
  | some file =>
    exfalso
    unfold Upload.call at hf
    split at hf
    case h_4 hs | h_5 hs =>
      rw [hs] at stored
      cases stored
    all_goals
      have there : s.files u.file.id = some file := hf
      rw [gone] at there
      cases there

theorem uploadCall_inv (inv : Inv s) {u : Upload} (outcome : Outcome) (hu : s.uploads id = some u) :
    Inv { s with
      store := (u.call s.store outcome).1
      uploads := Function.update s.uploads id (some (u.call s.store outcome).2) } := by
  have up := inv.upload id u hu
  have file := call_file s.store u outcome
  have further : Further s.uploads (Function.update s.uploads id (some (u.call s.store outcome).2)) := by
    intro x v hv
    by_cases here : x = id
    · subst here
      rw [hu] at hv
      cases Option.some.inj hv
      exact ⟨_, Function.update_self .., file, call_stored s.store u outcome⟩
    · exact ⟨v, by rw [Function.update_of_ne here]; exact hv, rfl, fun h => h⟩
  have elsewhere : ∀ x, x ≠ id → (u.call s.store outcome).1.files x = s.store.files x ∧
      (u.call s.store outcome).1.versions x = s.store.versions x := by
    intro x here
    exact call_other s.store u outcome (by rw [up.fileId]; exact here.symm)
  -- a row that is gone under an upload past its own row stays gone
  have gone : ∀ x v, s.uploads x = some v → v.stage.stored = true → s.store.files x = none →
      (u.call s.store outcome).1.files x = none := by
    intro x v hv stored none
    by_cases here : x = id
    · subst here
      rw [hu] at hv
      cases Option.some.inj hv
      have same := up.fileId
      subst same
      exact call_gone outcome stored none
    · rw [(elsewhere x here).1]
      exact none
  refine ⟨?_, ?_, ?_, ?_, ?_⟩
  · intro x f hf
    dsimp only at hf ⊢
    by_cases here : x = id
    · subst here
      have same := up.fileId
      subst same
      rcases call_row hf with before | ⟨new, stored⟩
      · obtain ⟨fileId, came⟩ := inv.row _ f before
        exact ⟨fileId, came.further further⟩
      · subst new
        refine ⟨rfl, (u.call s.store outcome).2, Function.update_self .., stored, ?_⟩
        rw [file]
        exact ⟨rfl, rfl, rfl, rfl⟩
    · rw [(elsewhere x here).1] at hf
      obtain ⟨fileId, came⟩ := inv.row x f hf
      exact ⟨fileId, came.further further⟩
  · intro x hx
    dsimp only at hx ⊢
    by_cases here : x = id
    · rw [here, Function.update_self] at hx
      cases hx
    · rw [Function.update_of_ne here] at hx
      rw [(elsewhere x here).2]
      exact inv.unused x hx
  · intro x v hv
    dsimp only at hv ⊢
    by_cases here : x = id
    · subst here
      rw [Function.update_self] at hv
      cases Option.some.inj hv
      exact call_inv outcome up
    · rw [Function.update_of_ne here] at hv
      refine (inv.upload x v hv).fewer ?_ ?_ (elsewhere x here).2
      · rw [(elsewhere x here).1]
        exact fun none => none
      · intro _ there
        exact call_objects s.store u outcome there
  · intro d hd
    refine (inv.deletes d hd).frame further ?_
    intro f came none
    obtain ⟨v, hv, stored, _⟩ := came
    exact gone f.id v hv stored none
  · intro x hx
    obtain ⟨none, v, hv, stored⟩ := inv.deleted x hx
    obtain ⟨v', hv', _, stored'⟩ := further x v hv
    exact ⟨gone x v hv stored none, v', hv', stored' stored⟩

theorem delete_inv (inv : Inv s) {file : FileMetadata} (hf : s.store.files id = some file) :
    Inv { s with deletes := s.deletes ++ [.row file] } := by
  refine ⟨inv.row, inv.unused, inv.upload, ?_, inv.deleted⟩
  intro d hd
  rcases List.mem_append.mp hd with hd | hd
  · exact (inv.deletes d hd).frame (.refl _) fun _ _ none => none
  · have here := List.mem_singleton.mp hd
    subst here
    exact (inv.row id file hf).2

theorem giveUp_inv (inv : Inv s) (i : Nat) : Inv { s with deletes := s.deletes.set i .finished } := by
  refine ⟨inv.row, inv.unused, inv.upload, ?_, inv.deleted⟩
  intro d hd
  rcases List.mem_or_eq_of_mem_set hd with hd | here
  · exact (inv.deletes d hd).frame (.refl _) fun _ _ none => none
  · rw [here]
    trivial

/-- The row goes; the next call of the deletion, if there is one, knows that it is gone. -/
theorem deleteRow_inv (inv : Inv s) {file : FileMetadata} (came : CameFrom s.uploads file) (i : Nat)
    {next : DeleteStage} (hnext : next = .object file ∨ next = .finished) :
    Inv { s with
      store := s.store.deleteFile file.id
      deletes := s.deletes.set i next
      deleted := file.id :: s.deleted } := by
  have gone : (s.store.deleteFile file.id).files file.id = none := Function.update_self ..
  have fewer : ∀ x, s.store.files x = none → (s.store.deleteFile file.id).files x = none := by
    intro x none
    by_cases here : x = file.id
    · rw [here]
      exact gone
    · have kept : (s.store.deleteFile file.id).files x = s.store.files x := Function.update_of_ne here ..
      rw [kept]
      exact none
  refine ⟨?_, inv.unused, ?_, ?_, ?_⟩
  · intro x f hf
    have other : x ≠ file.id := by
      intro here
      rw [here, gone] at hf
      cases hf
    have kept : (s.store.deleteFile file.id).files x = s.store.files x := Function.update_of_ne other ..
    dsimp only at hf
    rw [kept] at hf
    exact inv.row x f hf
  · intro x u hu
    exact (inv.upload x u hu).fewer (fewer x) (fun _ there => there) rfl
  · intro d hd
    rcases List.mem_or_eq_of_mem_set hd with hd | here
    · exact (inv.deletes d hd).frame (.refl _) fun f _ none => fewer f.id none
    · rcases hnext with object | finished
      · rw [here, object]
        exact ⟨came, gone⟩
      · rw [here, finished]
        trivial
  · intro x hx
    obtain ⟨u, hu, stored, _⟩ := came
    rcases List.mem_cons.mp hx with here | hx
    · rw [here]
      exact ⟨gone, u, hu, stored⟩
    · obtain ⟨none, had⟩ := inv.deleted x hx
      exact ⟨fewer x none, had⟩

theorem deleteObject_inv (inv : Inv s) {file : FileMetadata} (came : CameFrom s.uploads file)
    (gone : s.store.files file.id = none) (i : Nat) :
    Inv { s with store := s.store.deleteObject file.s3Key, deletes := s.deletes.set i .finished } := by
  refine ⟨inv.row, inv.unused, ?_, ?_, inv.deleted⟩
  · intro x u hu
    refine (inv.upload x u hu).fewer (fun none => none) ?_ rfl
    intro needed there
    have other : u.file.s3Key ≠ file.s3Key := by
      -- the key names the file, whose row is gone and whose upload is past its row
      intro same
      obtain ⟨v, hv, stored, record⟩ := came
      have here : x = file.id := by
        rw [← (inv.upload x u hu).key, same, record.s3Key, (inv.upload file.id v hv).key]
      subst here
      rw [hv] at hu
      cases Option.some.inj hu
      rcases needed with row | there
      · rw [row] at stored
        cases stored
      · exact there gone
    have kept : (s.store.deleteObject file.s3Key).objects u.file.s3Key = s.store.objects u.file.s3Key :=
      Function.update_of_ne other ..
    rw [kept]
    exact there
  · intro d hd
    rcases List.mem_or_eq_of_mem_set hd with hd | here
    · exact (inv.deletes d hd).frame (.refl _) fun _ _ none => none
    · rw [here]
      trivial

theorem deleteCall_inv (inv : Inv s) {d : DeleteStage} (hd : d ∈ s.deletes) (i : Nat) (outcome : Outcome) :
    Inv (s.deleteCall i outcome d) := by
  have known := inv.deletes d hd
  cases d with
  | row file =>
    cases outcome with
    | ok => exact deleteRow_inv inv known i (Or.inl rfl)
    | failed => exact giveUp_inv inv i
    | lost => exact deleteRow_inv inv known i (Or.inr rfl)
  | object file =>
    simp only [Service.deleteCall]
    split
    next => exact giveUp_inv inv i
    next => exact deleteObject_inv inv known.1 known.2 i
  | finished => exact inv

theorem update_inv (inv : Inv s) (now : Nat) (change : Change) :
    Inv { s with store := s.store.updateFile id now change } := by
  cases hf : s.store.files id with
  | none =>
    have same : s.store.updateFile id now change = s.store := by
      unfold Store.updateFile
      rw [hf]
    rw [same]
    exact inv
  | some file =>
    have store : s.store.updateFile id now change =
        { s.store with files := Function.update s.store.files id (some (change.apply now file)) } := by
      unfold Store.updateFile
      rw [hf]
    have none_iff : ∀ x, s.store.files x = none → (s.store.updateFile id now change).files x = none := by
      intro x none
      have other : x ≠ id := by
        intro here
        rw [here, hf] at none
        cases none
      rw [store]
      exact (Function.update_of_ne other ..).trans none
    have versions : (s.store.updateFile id now change).versions = s.store.versions := by rw [store]
    refine ⟨?_, ?_, ?_, ?_, ?_⟩
    · intro x f hx
      rw [store] at hx
      dsimp only at hx ⊢
      by_cases here : x = id
      · subst here
        rw [Function.update_self] at hx
        cases Option.some.inj hx
        obtain ⟨fileId, u, hu, stored, record⟩ := inv.row x file hf
        have same := change_same now file change
        refine ⟨same.id.trans fileId, u, ?_, stored, record.trans same⟩
        rw [same.id]
        exact hu
      · rw [Function.update_of_ne here] at hx
        exact inv.row x f hx
    · intro x hx
      dsimp only
      rw [versions]
      exact inv.unused x hx
    · intro x u hu
      refine (inv.upload x u hu).fewer (none_iff x) ?_ (by rw [versions])
      intro _ there
      rw [store]
      exact there
    · intro d hd
      exact (inv.deletes d hd).frame (.refl _) fun f _ none => none_iff f.id none
    · intro x hx
      obtain ⟨none, had⟩ := inv.deleted x hx
      exact ⟨none_iff x none, had⟩

theorem step_inv (inv : Inv s) (event : Event) : Inv (s.step event) := by
  cases event with
  | upload id form maxUploadBytes now =>
    simp only [Service.step]
    split
    next _ _ file unused accepted => exact upload_inv inv unused accepted
    next => exact inv
  | uploadCall id outcome =>
    simp only [Service.step]
    split
    next => exact inv
    next u hu => exact uploadCall_inv inv outcome hu
  | delete id =>
    simp only [Service.step]
    split
    next => exact inv
    next file hf => exact delete_inv inv hf
  | deleteCall i outcome =>
    simp only [Service.step]
    split
    next => exact inv
    next d hd => exact deleteCall_inv inv (List.mem_of_getElem? hd) i outcome
  | update id now change outcome =>
    simp only [Service.step]
    split
    next => exact inv
    next => exact update_inv inv now change

end Steps

theorem start_inv : Inv .start := by
  refine ⟨?_, fun _ _ => rfl, ?_, ?_, ?_⟩
  · intro id file h
    cases h
  · intro id u h
    cases h
  · intro d hd
    cases hd
  · intro id h
    cases h

theorem run_inv (events : List Event) : Inv (.run events) := by
  have from_ : ∀ s, Inv s → Inv (events.foldl Service.step s) := by
    induction events with
    | nil => exact fun s inv => inv
    | cons event events ih => exact fun s inv => ih _ (step_inv inv event)
  exact from_ _ start_inv

section Half

variable {s s' : Service} {id : Uuid}

theorem halfUpload_of {u : Upload} (hu : s.uploads id = some u) :
    HalfUpload s id ↔ (u.stage = .version ∨ u.stage = .half) ∧ s.store.files id ≠ none := by
  constructor
  · intro h
    obtain ⟨u', hu', half⟩ := h
    cases Option.some.inj (hu.symm.trans hu')
    exact half
  · exact fun h => ⟨u, hu, h⟩

theorem halfUpload_congr (uploads : s'.uploads id = s.uploads id)
    (files : s'.store.files id = none ↔ s.store.files id = none) : HalfUpload s' id ↔ HalfUpload s id := by
  unfold HalfUpload
  rw [uploads, ne_eq, files]

/-- Where an event neither stores the row nor settles it, it must leave it as it is. -/
theorem halfUpload_idle {event : Event} (same : HalfUpload s' id ↔ HalfUpload s id) (stores : ¬ StoresRow s id event)
    (settles : ¬ SettlesRow s id event) :
    HalfUpload s' id ↔ StoresRow s id event ∨ (HalfUpload s id ∧ ¬ SettlesRow s id event) := by
  rw [same]
  tauto

theorem uploadCall_half (inv : Inv s) (id' : Uuid) (outcome : Outcome) :
    HalfUpload (s.step (.uploadCall id' outcome)) id ↔
      StoresRow s id (.uploadCall id' outcome) ∨ (HalfUpload s id ∧ ¬ SettlesRow s id (.uploadCall id' outcome)) := by
  cases hu : s.uploads id' with
  | none =>
    have same : s.step (.uploadCall id' outcome) = s := by simp only [Service.step, hu]
    rw [same]
    apply halfUpload_idle Iff.rfl
    · rintro ⟨rfl, _, u, hu', _⟩
      rw [hu] at hu'
      cases hu'
    · rintro ⟨rfl, _, u, hu', _⟩
      rw [hu] at hu'
      cases hu'
  | some u =>
    have up := inv.upload id' u hu
    have next : s.step (.uploadCall id' outcome) = { s with
        store := (u.call s.store outcome).1
        uploads := Function.update s.uploads id' (some (u.call s.store outcome).2) } := by
      simp only [Service.step, hu]
    rw [next]
    by_cases here : id' = id
    · subst here
      rw [halfUpload_of (Function.update_self ..), call_half outcome up, halfUpload_of hu]
      simp only [StoresRow, SettlesRow, hu, true_and, Option.some.injEq, exists_eq_left']
    · have other := call_other s.store u outcome (by rw [up.fileId]; exact here)
      apply halfUpload_idle
      · apply halfUpload_congr
        · exact Function.update_of_ne (Ne.symm here) ..
        · rw [other.1]
      · exact fun h => here h.1
      · exact fun h => here h.1

theorem deleteCall_half (i : Nat) (outcome : Outcome) :
    HalfUpload (s.step (.deleteCall i outcome)) id ↔
      StoresRow s id (.deleteCall i outcome) ∨ (HalfUpload s id ∧ ¬ SettlesRow s id (.deleteCall i outcome)) := by
  cases hd : s.deletes[i]? with
  | none =>
    have same : s.step (.deleteCall i outcome) = s := by simp only [Service.step, hd]
    rw [same]
    refine halfUpload_idle Iff.rfl (by simp [StoresRow]) ?_
    rintro ⟨_, file, there, _⟩
    rw [hd] at there
    cases there
  | some d =>
    have next : s.step (.deleteCall i outcome) = s.deleteCall i outcome d := by simp only [Service.step, hd]
    rw [next]
    cases d with
    | row file =>
      by_cases failed : outcome = .failed
      · subst failed
        exact halfUpload_idle (halfUpload_congr rfl Iff.rfl) (by simp [StoresRow]) fun h => h.1 rfl
      · have uploads : (s.deleteCall i outcome (.row file)).uploads = s.uploads := by cases outcome <;> rfl
        have files : (s.deleteCall i outcome (.row file)).store.files = Function.update s.store.files file.id none := by
          cases outcome with
          | ok => rfl
          | failed => exact absurd rfl failed
          | lost => rfl
        by_cases here : file.id = id
        · have gone : (s.deleteCall i outcome (.row file)).store.files id = none := by
            rw [files, here, Function.update_self]
          constructor
          · intro h
            obtain ⟨_, _, _, there⟩ := h
            exact absurd gone there
          · intro h
            rcases h with h | ⟨_, h⟩
            · cases h
            · exact absurd ⟨failed, file, hd, here⟩ h
        · apply halfUpload_idle
          · apply halfUpload_congr (by rw [uploads])
            rw [files, Function.update_of_ne (Ne.symm here)]
          · simp [StoresRow]
          · rintro ⟨_, file', there, named⟩
            cases Option.some.inj (hd.symm.trans there)
            exact here named
    | object file =>
      refine halfUpload_idle ?_ (by simp [StoresRow]) ?_
      · simp only [Service.deleteCall]
        split
        next => exact halfUpload_congr rfl Iff.rfl
        next => exact halfUpload_congr rfl Iff.rfl
      · rintro ⟨_, _, there, _⟩
        cases Option.some.inj (hd.symm.trans there)
    | finished =>
      refine halfUpload_idle Iff.rfl (by simp [StoresRow]) ?_
      rintro ⟨_, _, there, _⟩
      cases Option.some.inj (hd.symm.trans there)

theorem updateFile_none (s : Store) (id id' : Uuid) (now : Nat) (change : Change) :
    (s.updateFile id' now change).files id = none ↔ s.files id = none := by
  unfold Store.updateFile
  split
  next => rfl
  next file hf =>
    by_cases here : id = id'
    · subst here
      simp [hf]
    · simp [Function.update_of_ne here]

/-- What one event makes of a row without its version. -/
theorem halfUpload_step (inv : Inv s) (event : Event) :
    HalfUpload (s.step event) id ↔ StoresRow s id event ∨ (HalfUpload s id ∧ ¬ SettlesRow s id event) := by
  cases event with
  | upload id' form maxUploadBytes now =>
    refine halfUpload_idle ?_ (by simp [StoresRow]) (by simp [SettlesRow])
    simp only [Service.step]
    split
    next _ _ file unused accepted =>
      by_cases here : id = id'
      · subst here
        rw [halfUpload_of (Function.update_self ..)]
        constructor
        · intro h
          rcases h.1 with h | h
          · cases h
          · cases h
        · intro h
          obtain ⟨u, hu, _⟩ := h
          rw [unused] at hu
          cases hu
      · exact halfUpload_congr (Function.update_of_ne here ..) Iff.rfl
    next => rfl
  | uploadCall id' outcome => exact uploadCall_half inv id' outcome
  | delete id' =>
    refine halfUpload_idle ?_ (by simp [StoresRow]) (by simp [SettlesRow])
    simp only [Service.step]
    split
    next => rfl
    next => exact halfUpload_congr rfl Iff.rfl
  | deleteCall i outcome => exact deleteCall_half i outcome
  | update id' now change outcome =>
    refine halfUpload_idle ?_ (by simp [StoresRow]) (by simp [SettlesRow])
    simp only [Service.step]
    split
    next => rfl
    next =>
      apply halfUpload_congr
      · rfl
      · exact updateFile_none s.store id id' now change

theorem noHalf_step (inv : Inv s) (none : ∀ id, ¬ HalfUpload s id) (event : Event) :
    (∀ id, ¬ HalfUpload (s.step event) id) ↔ ∀ id, ¬ StoresRow s id event := by
  apply forall_congr'
  intro id
  rw [halfUpload_step inv event, not_or, and_iff_left]
  exact fun h => none id h.1

theorem start_noHalf (id : Uuid) : ¬ HalfUpload .start id := by
  intro h
  obtain ⟨_, hu, _⟩ := h
  cases hu

end Half

/-- Over a whole run, whatever calls fail or stop: the rows are complete and no deleted file is back in all its states
exactly if no `put_file` of an upload takes effect in it, and at its end exactly if each one that did is followed by its
`put_version` or by the deletion of the row. Object, key and size match and no deleted file is back at any time. -/
theorem records_complete_iff (events : List Event) :
    ((∀ n, Complete (.run (events.take n)) ∧ NeverRecreated (.run (events.take n))) ↔
      ∀ n event, events[n]? = some event → ∀ id, ¬ StoresRow (.run (events.take n)) id event) ∧
    ((Complete (.run events) ∧ NeverRecreated (.run events)) ↔
      ∀ id n event, events[n]? = some event → StoresRow (.run (events.take n)) id event →
        ∃ m later, n < m ∧ events[m]? = some later ∧ SettlesRow (.run (events.take m)) id later) ∧
    Matched (.run events) ∧ NeverRecreated (.run events) := by
  refine ⟨?_, ?_, (run_inv events).matched, fun id hid => ((run_inv events).deleted id hid).1⟩
  · have always := @foldl_always_iff_with Service Event Service.step (fun s => ∀ id, ¬ HalfUpload s id)
      (fun s event => ∀ id, ¬ StoresRow s id event) Inv (fun s event inv _ => step_inv inv event)
      (fun s event inv none => noHalf_step inv none event) .start start_inv events
    constructor
    · intro h
      exact (always.mp fun n => (complete_iff (run_inv _)).mp (h n)).2
    · intro h n
      exact (complete_iff (run_inv _)).mpr (always.mpr ⟨start_noHalf, h⟩ n)
  · rw [complete_iff (run_inv events)]
    apply forall_congr'
    intro id
    have latch : HalfUpload (.run events) id ↔ ∃ n event, events[n]? = some event ∧
        StoresRow (.run (events.take n)) id event ∧
        ∀ m later, n < m → events[m]? = some later → ¬ SettlesRow (.run (events.take m)) id later := by
      apply @foldl_latch_iff Service Event Service.step Inv (HalfUpload · id) (StoresRow · id) (SettlesRow · id)
      · exact fun s event inv => step_inv inv event
      · exact fun s event inv => halfUpload_step inv event
      · exact start_inv
      · exact start_noHalf id
    constructor
    · intro none n event he stores
      by_contra unsettled
      push Not at unsettled
      exact none (latch.mpr ⟨n, event, he, stores, unsettled⟩)
    · intro settled half
      obtain ⟨n, event, he, stores, unsettled⟩ := latch.mp half
      obtain ⟨m, later, past, hm, settles⟩ := settled n event he stores
      exact unsettled m later past hm settles

/-- The call that would store the version fails. -/
def halfUploaded : List Event :=
  [.upload 7 ⟨some 1, none, some "report.pdf", none, 4096, none⟩ 100000 0, .uploadCall 7 .ok, .uploadCall 7 .ok,
    .uploadCall 7 .failed]

/-- The row is listed, but the version it names is not there. -/
theorem failed_version_leaves_row :
    ((Service.run halfUploaded).store.files 7).map FileMetadata.version = some 1 ∧
      (Service.run halfUploaded).store.versions 7 1 = none ∧ ¬ Complete (Service.run halfUploaded) := by
  refine ⟨by decide, by decide, ?_⟩
  intro complete
  obtain ⟨_, v, hv, _⟩ := complete 7 _ rfl
  cases hv

end OtterWorks.Files
