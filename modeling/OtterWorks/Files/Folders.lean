import OtterWorks.Files.Records
import OtterWorks.Lib.Forest
import OtterWorks.Lib.Transition

namespace OtterWorks.Files

structure Folder where
  id : Uuid
  name : String
  parentId : Option Uuid
  ownerId : Uuid
  createdAt : Nat
  updatedAt : Nat
  deriving DecidableEq, Repr

/-- The file tables and the table of the folders. -/
structure Drive where
  store : Store
  folders : Uuid → Option Folder

/-- A request, with the id and the time that the handler draws. -/
inductive FolderRequest
  | createFolder (id : Uuid) (name : String) (parentId : Option Uuid) (ownerId : Uuid) (now : Nat)
  | updateFolder (id : Uuid) (name : Option String) (parentId : Option Uuid) (now : Nat)
  | deleteFolder (id : Uuid)
  | upload (form : UploadForm) (maxUploadBytes : Nat) (id : Uuid) (now : Nat)
  | moveFile (id : Uuid) (folderId : Option Uuid) (now : Nat)
  deriving DecidableEq, Repr

namespace Drive

def putFolder (d : Drive) (folder : Folder) : Drive :=
  { d with folders := Function.update d.folders folder.id (some folder) }

def createFolder (d : Drive) (id : Uuid) (name : String) (parentId : Option Uuid) (ownerId : Uuid) (now : Nat) : Drive :=
  d.putFolder ⟨id, name, parentId, ownerId, now, now⟩

/-- `SET ..` of what is given, under the condition `attribute_exists(id)`. -/
def updateFolder (d : Drive) (id : Uuid) (name : Option String) (parentId : Option Uuid) (now : Nat) : Drive :=
  match d.folders id with
  | none => d
  | some folder =>
    { d with
      folders := Function.update d.folders id
        (some { folder with name := name.getD folder.name, parentId := parentId.or folder.parentId, updatedAt := now }) }

def deleteFolder (d : Drive) (id : Uuid) : Drive := { d with folders := Function.update d.folders id none }

def upload (d : Drive) (form : UploadForm) (maxUploadBytes : Nat) (id : Uuid) (now : Nat) : Drive :=
  match form.file maxUploadBytes id now with
  | .error _ => d
  | .ok file => { d with store := ((d.store.uploadObject file.s3Key).putFile file).putVersion file.firstVersion }

def moveFile (d : Drive) (id : Uuid) (folderId : Option Uuid) (now : Nat) : Drive :=
  { d with store := d.store.updateFile id now (.move folderId) }

def handle (d : Drive) : FolderRequest → Drive
  | .createFolder id name parentId ownerId now => d.createFolder id name parentId ownerId now
  | .updateFolder id name parentId now => d.updateFolder id name parentId now
  | .deleteFolder id => d.deleteFolder id
  | .upload form maxUploadBytes id now => d.upload form maxUploadBytes id now
  | .moveFile id folderId now => d.moveFile id folderId now

def empty : Drive := ⟨⟨fun _ => false, fun _ => none, fun _ _ => none⟩, fun _ => none⟩

/-- `parent_id` of the folders that are there. -/
def parents (d : Drive) : Parents Uuid := fun id => (d.folders id).map Folder.parentId

/-- The folder is among those that `list_folders` answers for a parent or none, of any owner or of one. -/
def Lists (d : Drive) (parentId ownerId : Option Uuid) (id : Uuid) : Prop :=
  ∃ folder, d.folders id = some folder ∧ folder.parentId = parentId ∧ ∀ owner ∈ ownerId, folder.ownerId = owner

/-- Found by listing the root, and then the folders found. -/
inductive Listed (d : Drive) : Uuid → Prop
  | top {id : Uuid} (here : d.Lists none none id) : Listed d id
  | inside {id parentId : Uuid} (found : Listed d parentId) (here : d.Lists (some parentId) none id) : Listed d id

/-- The listings reach every folder, and every file at the root or in a folder they reach. -/
def AllListed (d : Drive) : Prop :=
  (∀ id, (d.folders id).isSome → d.Listed id) ∧
    ∀ id file, d.store.files id = some file → ∀ folder ∈ file.folderId, d.Listed folder

end Drive

/-- From each folder `parent_id` leads to a root through folders that are there, and the folder of each file is there. -/
structure FolderTree (d : Drive) : Prop where
  folders : d.parents.Forest
  files : ∀ id file, d.store.files id = some file → ∀ folder ∈ file.folderId, (d.folders folder).isSome

/-- A folder may be put there: at the top, or in a folder that is there and not inside it. -/
def MayHang (d : Drive) (id : Uuid) (parentId : Option Uuid) : Prop :=
  ∀ parent ∈ parentId, (d.folders parent).isSome ∧ ¬d.parents.Under parent id

/-- A request that keeps the tree. -/
def KeepsTree (d : Drive) : FolderRequest → Prop
  | .createFolder id _ parentId _ _ => MayHang d id parentId
  | .updateFolder id _ parentId _ => (d.folders id).isSome → MayHang d id parentId
  | .deleteFolder id => (∀ child folder, d.folders child = some folder → folder.parentId ≠ some id) ∧
      ∀ file row, d.store.files file = some row → row.folderId ≠ some id
  | .upload form maxUploadBytes id now => (form.file maxUploadBytes id now).toOption.isSome →
      ∀ folder ∈ form.folderId, (d.folders folder).isSome
  | .moveFile id folderId _ => (d.store.files id).isSome → ∀ folder ∈ folderId, (d.folders folder).isSome

section

variable {d : Drive} {id : Uuid} {folder : Folder} {parentId : Option Uuid}

theorem parents_isSome : (d.parents id).isSome = (d.folders id).isSome := by
  unfold Drive.parents
  exact Option.isSome_map

theorem parents_update (value : Option Folder) : ({ d with folders := Function.update d.folders id value } : Drive).parents =
    Function.update d.parents id (value.map Folder.parentId) := by
  funext other
  show (Function.update d.folders id value other).map Folder.parentId = _
  by_cases same : other = id
  · subst same
    rw [Function.update_self, Function.update_self]
  · rw [Function.update_of_ne same, Function.update_of_ne same]
    rfl

/-- A folder written under an id hangs the id below its parent; no folder goes away. -/
theorem tree_put_iff (tree : FolderTree d) : FolderTree { d with folders := Function.update d.folders id (some folder) } ↔
    MayHang d id folder.parentId := by
  have files : ∀ file row, d.store.files file = some row → ∀ f ∈ row.folderId,
      (Function.update d.folders id (some folder) f).isSome := by
    intro file row held f inside
    by_cases same : f = id
    · subst same
      rw [Function.update_self]
      rfl
    · rw [Function.update_of_ne same]
      exact tree.files file row held f inside
  have forest := @Parents.forest_hang_iff _ d.parents id folder.parentId _ tree.folders
  simp only [parents_isSome] at forest
  constructor
  · intro kept
    have folders := kept.folders
    rw [parents_update] at folders
    exact forest.mp folders
  · intro fits
    refine ⟨?_, files⟩
    rw [parents_update]
    exact forest.mpr fits

/-- A folder that keeps its parent stays where it was. -/
theorem mayHang_same (tree : FolderTree d) (held : d.folders id = some folder) : MayHang d id folder.parentId := by
  intro parent up
  have here : d.parents id = some (some parent) := by
    unfold Drive.parents
    rw [held, Option.map_some, Option.mem_def.mp up]
  have rooted : d.parents.Rooted id := tree.folders id (by rw [here]; rfl)
  refine ⟨?_, rooted.no_cycle here⟩
  rw [← parents_isSome]
  exact (rooted.onward here).isSome

theorem tree_update_iff (tree : FolderTree d) (name : Option String) (now : Nat) :
    FolderTree (d.updateFolder id name parentId now) ↔ ((d.folders id).isSome → MayHang d id parentId) := by
  unfold Drive.updateFolder
  cases held : d.folders id with
  | none => simp [tree]
  | some folder =>
    dsimp only
    rw [tree_put_iff tree]
    simp only [Option.isSome_some, forall_const]
    cases parentId with
    | some parent => rfl
    | none =>
      have same := mayHang_same tree held
      constructor
      · intro _ parent none_
        cases none_
      · intro _
        exact same

theorem tree_delete_iff (tree : FolderTree d) : FolderTree (d.deleteFolder id) ↔ KeepsTree d (.deleteFolder id) := by
  have forest := @Parents.forest_remove_iff _ d.parents id _ tree.folders
  have children : (∀ child, d.parents child ≠ some (some id)) ↔
      ∀ child folder, d.folders child = some folder → folder.parentId ≠ some id := by
    constructor
    · intro bare child folder held up
      apply bare child
      unfold Drive.parents
      rw [held, Option.map_some, up]
    · intro bare child up
      unfold Drive.parents at up
      obtain ⟨folder, held, parent⟩ := Option.map_eq_some_iff.mp up
      exact bare child folder held parent
  rw [children] at forest
  unfold Drive.deleteFolder KeepsTree
  constructor
  · intro kept
    have folders := kept.folders
    rw [parents_update] at folders
    refine ⟨forest.mp folders, ?_⟩
    intro file row held inside
    have there := kept.files file row held id inside
    dsimp only at there
    rw [Function.update_self] at there
    cases there
  · rintro ⟨bare, unused⟩
    refine ⟨?_, ?_⟩
    · rw [parents_update]
      exact forest.mpr bare
    · intro file row held f inside
      have other : f ≠ id := fun same => unused file row held (same ▸ inside)
      dsimp only
      rw [Function.update_of_ne other]
      exact tree.files file row held f inside

/-- A file row written keeps the tree if its folder is there. -/
theorem tree_file_iff (tree : FolderTree d) {file : FileMetadata} {store : Store}
    (written : store.files = Function.update d.store.files id (some file)) :
    FolderTree { d with store := store } ↔ ∀ folder ∈ file.folderId, (d.folders folder).isSome := by
  constructor
  · intro kept
    exact kept.files id file (by rw [written]; exact Function.update_self ..)
  · intro there
    refine ⟨tree.folders, ?_⟩
    intro other row held
    dsimp only at held
    rw [written] at held
    by_cases same : other = id
    · subst same
      rw [Function.update_self] at held
      cases held
      exact there
    · rw [Function.update_of_ne same] at held
      exact tree.files other row held

theorem file_folder {form : UploadForm} {maxUploadBytes now : Nat} {file : FileMetadata}
    (h : form.file maxUploadBytes id now = .ok file) : file.folderId = form.folderId ∧ file.id = id := by
  unfold UploadForm.file at h
  split at h
  next => cases h
  next =>
    split at h
    next => cases h
    next =>
      split at h
      next => cases h
      next =>
        cases Except.ok.inj h
        exact ⟨rfl, rfl⟩

theorem tree_upload_iff (tree : FolderTree d) {form : UploadForm} {maxUploadBytes now : Nat} :
    FolderTree (d.upload form maxUploadBytes id now) ↔ KeepsTree d (.upload form maxUploadBytes id now) := by
  have folder : ∀ file, form.file maxUploadBytes id now = .ok file →
      (FolderTree (d.upload form maxUploadBytes id now) ↔ ∀ folder ∈ form.folderId, (d.folders folder).isSome) := by
    intro file made
    obtain ⟨folderId, _⟩ := file_folder made
    rw [← folderId, Drive.upload, made]
    exact @tree_file_iff d file.id tree file _ rfl
  have keeps : KeepsTree d (.upload form maxUploadBytes id now) ↔ ((form.file maxUploadBytes id now).toOption.isSome →
      ∀ folder ∈ form.folderId, (d.folders folder).isSome) := Iff.rfl
  cases made : form.file maxUploadBytes id now with
  | error e =>
    have refused : d.upload form maxUploadBytes id now = d := by
      rw [Drive.upload, made]
    rw [keeps, refused, made]
    exact ⟨fun _ accepted => (nomatch accepted), fun _ => tree⟩
  | ok file =>
    rw [keeps, folder file made, made]
    exact ⟨fun there _ => there, fun there => there rfl⟩

theorem tree_move_iff (tree : FolderTree d) {folderId : Option Uuid} {now : Nat} :
    FolderTree (d.moveFile id folderId now) ↔ KeepsTree d (.moveFile id folderId now) := by
  have keeps : KeepsTree d (.moveFile id folderId now) ↔ ((d.store.files id).isSome →
      ∀ folder ∈ folderId, (d.folders folder).isSome) := Iff.rfl
  cases held : d.store.files id with
  | none =>
    have refused : d.moveFile id folderId now = d := by
      rw [Drive.moveFile, Store.updateFile, held]
    rw [keeps, refused, held]
    exact ⟨fun _ there => (nomatch there), fun _ => tree⟩
  | some file =>
    rw [keeps, Drive.moveFile, Store.updateFile, held]
    have moved := @tree_file_iff d id tree (Change.apply now file (.move folderId))
      { d.store with files := Function.update d.store.files id (some (Change.apply now file (.move folderId))) } rfl
    rw [moved]
    exact ⟨fun there _ => there, fun there => there rfl⟩

theorem handle_tree_iff (d : Drive) (request : FolderRequest) (tree : FolderTree d) :
    FolderTree (d.handle request) ↔ KeepsTree d request := by
  cases request with
  | createFolder id name parentId ownerId now => exact tree_put_iff tree
  | updateFolder id name parentId now => exact tree_update_iff tree name now
  | deleteFolder id => exact tree_delete_iff tree
  | upload form maxUploadBytes id now => exact tree_upload_iff tree
  | moveFile id folderId now => exact tree_move_iff tree

theorem listed_of_rooted (rooted : d.parents.Rooted id) : d.Listed id := by
  have stored : ∀ id parent, d.parents id = some parent → d.Lists parent none id := by
    intro id parent up
    obtain ⟨folder, held, same⟩ := Option.map_eq_some_iff.mp up
    refine ⟨folder, held, same, ?_⟩
    intro owner none_
    cases none_
  induction rooted with
  | root top => exact .top (stored _ _ top)
  | child up _ ih => exact .inside ih (stored _ _ up)

theorem FolderTree.listed (tree : FolderTree d) : d.AllListed := by
  have folders : ∀ id, (d.folders id).isSome → d.Listed id := by
    intro id there
    rw [← parents_isSome] at there
    exact listed_of_rooted (tree.folders id there)
  refine ⟨folders, ?_⟩
  intro id file held folder inside
  exact folders folder (tree.files id file held folder inside)

theorem empty_tree : FolderTree .empty where
  folders := fun _ there => nomatch there
  files := fun _ _ held => nomatch held

/-- Over any requests the folders stay a tree that holds every file, with all of it reached by listing, exactly if they
are one at the start, as those of an empty service are, and no request hangs a folder below itself, puts a folder or a file
into a folder that is not there or deletes a folder with something in it. -/
theorem folders_stay_tree_iff (d : Drive) (requests : List FolderRequest) :
    ((∀ n, FolderTree ((requests.take n).foldl Drive.handle d) ∧ ((requests.take n).foldl Drive.handle d).AllListed) ↔
      FolderTree d ∧ ∀ n request, requests[n]? = some request →
        KeepsTree ((requests.take n).foldl Drive.handle d) request) ∧
    FolderTree .empty := by
  refine ⟨?_, empty_tree⟩
  rw [← foldl_always_iff handle_tree_iff d requests]
  constructor
  · exact fun h n => (h n).1
  · exact fun h n => ⟨h n, (h n).listed⟩

/-- Two folders, and the outer one moved into the inner one. -/
def outerIntoInner : List FolderRequest :=
  [.createFolder 1 "outer" none 7 0, .createFolder 2 "inner" (some 1) 7 0, .updateFolder 1 none (some 2) 1]

theorem outer_into_inner_lost : ¬∀ n, FolderTree ((outerIntoInner.take n).foldl Drive.handle .empty) := by
  intro kept
  have rooted := (kept 3).folders 1 rfl
  have up : ((outerIntoInner.take 3).foldl Drive.handle .empty).parents 1 = some (some 2) := rfl
  have up' : ((outerIntoInner.take 3).foldl Drive.handle .empty).parents 2 = some (some 1) := rfl
  exact rooted.no_cycle up (.single up')

end

end OtterWorks.Files
