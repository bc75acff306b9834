import QuartzFire.Foundation.Text

/-!
# Staged images

An image is uploaded by the browser or downloaded by the device before it is
installed.  Both go to files of fixed names.  Whoever has a file open goes on
with it after its name was removed or given to another file.
-/

namespace QuartzFire.Image

abbrev Text := List Char

abbrev Bytes := List UInt8

/-! ## Files -/

/-- Where a path leads. -/
inductive Place where
  /-- `upload.iso` -/
  | staged
  /-- `image-download.iso` -/
  | downloaded
  | outside (path : Text)
  deriving DecidableEq

/-- A file that is open. -/
inductive Handle where
  | upload (inode : Nat)
  | download (inode : Nat)
  | outside (path : Text)
  deriving DecidableEq

structure Files where
  /-- The files that uploads made, with or without a name. -/
  uploads : List Bytes
  downloads : List Bytes
  staged : Option Nat
  downloaded : Option Nat
  /-- Files no handler writes to. -/
  others : Text → Option Bytes

namespace Files

def openAt (files : Files) : Place → Option Handle
  | .staged => files.staged.map .upload
  | .downloaded => files.downloaded.map .download
  | .outside path => (files.others path).map fun _ => .outside path

def contents (files : Files) : Handle → Option Bytes
  | .upload inode => files.uploads[inode]?
  | .download inode => files.downloads[inode]?
  | .outside path => files.others path

/-- A chunk written at an offset. -/
def writeAt (content : Bytes) (offset : Nat) (chunk : Bytes) : Bytes :=
  content.take offset ++ List.replicate (offset - content.length) 0 ++
    chunk ++ content.drop (offset + chunk.length)

/-- `File::create` of `upload.iso` -/
def createStaged (files : Files) : Files × Nat :=
  match files.staged with
  | some inode => ({ files with uploads := files.uploads.set inode [] }, inode)
  | none =>
      ({ files with
        uploads := files.uploads ++ [[]]
        staged := some files.uploads.length }, files.uploads.length)

/-- `File::create` of `image-download.iso` -/
def createDownload (files : Files) : Files × Nat :=
  match files.downloaded with
  | some inode =>
      ({ files with downloads := files.downloads.set inode [] }, inode)
  | none =>
      ({ files with
        downloads := files.downloads ++ [[]]
        downloaded := some files.downloads.length }, files.downloads.length)

def writeUpload (files : Files) (inode offset : Nat) (chunk : Bytes) : Files :=
  { files with
    uploads := files.uploads.modify inode (writeAt · offset chunk) }

def writeDownload (files : Files) (inode offset : Nat) (chunk : Bytes) :
    Files :=
  { files with
    downloads := files.downloads.modify inode (writeAt · offset chunk) }

def removeStaged (files : Files) : Files := { files with staged := none }

def removeDownload (files : Files) : Files := { files with downloaded := none }

end Files

/-! ## Uploads -/

/-- How an await ends. -/
inductive Event where
  | succeeds
  | fails
  /-- The length the server announces. -/
  | size (total : Option Nat)
  | chunk (bytes : Bytes)
  /-- A chunk whose write fails after these bytes. -/
  | torn (bytes : Bytes)
  | ended
  deriving DecidableEq

def maxIsoBytes : Nat := 4 * 1024 * 1024 * 1024

inductive UploadStep where
  | removing
  | creating
  | writing (inode written : Nat)
  /-- The file is removed and the request answered. -/
  | discarding
  | finished
  deriving DecidableEq

/-- `upload`; a removal may fail unnoticed. -/
def uploadStep (files : Files) :
    UploadStep → Event → Option (Files × UploadStep)
  | .removing, .succeeds => some (files.removeStaged, .creating)
  | .removing, .fails => some (files, .creating)
  | .creating, .succeeds =>
      let (files, inode) := files.createStaged
      some (files, .writing inode 0)
  | .creating, .fails => some (files, .finished)
  | .writing inode written, .chunk bytes =>
      if maxIsoBytes < written + bytes.length then some (files, .discarding)
      else some (files.writeUpload inode written bytes,
        .writing inode (written + bytes.length))
  | .writing inode written, .torn bytes =>
      some (files.writeUpload inode written bytes, .discarding)
  | .writing _ _, .fails => some (files, .discarding)
  | .writing _ written, .ended =>
      some (files, if written = 0 then .discarding else .finished)
  | .discarding, .succeeds => some (files.removeStaged, .finished)
  | .discarding, .fails => some (files, .finished)
  | _, _ => none

/-- An upload leaves the download alone. -/
theorem uploadStep_downloads {files after : Files} {step next : UploadStep}
    {event : Event} (stepped : uploadStep files step event = some (after, next)) :
    after.downloads = files.downloads ∧ after.downloaded = files.downloaded ∧
      after.others = files.others := by
  have created : files.createStaged.1.downloads = files.downloads ∧
      files.createStaged.1.downloaded = files.downloaded ∧
        files.createStaged.1.others = files.others := by
    unfold Files.createStaged
    split <;> exact ⟨rfl, rfl, rfl⟩
  rw [uploadStep.eq_def] at stepped
  split at stepped
  case h_3 =>
    cases stepped
    exact created
  case h_5 =>
    split_ifs at stepped <;> cases stepped <;> exact ⟨rfl, rfl, rfl⟩
  all_goals cases stepped
  all_goals exact ⟨rfl, rfl, rfl⟩

end QuartzFire.Image
