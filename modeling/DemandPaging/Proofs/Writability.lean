import DemandPaging.Proofs.FileContents
import DemandPaging.Proofs.SlotsOwned

/-!
Which pages of files can be written back.

Owns:
- `Inode.manner`, how a file takes writes, which no write and no change of its handles affects;
- that two files that take writes alike answer a write alike, whatever bytes they hold;
- that no step of the machine changes how a file takes writes.

Does not own: what a file holds after a write (`FileStore.laid`).

Main statements: `FileRegion.answer?_writeBack` and `Path.manner?`.
-/

namespace DemandPaging

/-! ## Files -/

namespace FileStorage

/-- Whether bytes that are written are kept. -/
def keeps : FileStorage → Bool
  | contents _ => true
  | blank _ => false

end FileStorage

namespace Inode

variable {left right : Inode} {position : Nat}

/-- How a file takes writes: how much of one it carries out, and whether it keeps the bytes. -/
def manner (inode : Inode) : TransferModes × Bool := (inode.writeMode, inode.storage.keeps)

theorem manner_laid (inode : Inode) (position : Nat) (data : Array UInt8) :
    (inode.laid position data).manner = inode.manner := by
  obtain ⟨storage, _, _, _, _⟩ := inode
  cases storage <;> rfl

theorem outgrowsMemory_congr (same : left.manner = right.manner) (length : Nat) :
    left.outgrowsMemory position length = right.outgrowsMemory position length := by
  obtain ⟨sameMode, sameKeeps⟩ := Prod.mk.inj same
  unfold outgrowsMemory
  rw [sameMode]
  match storedLeft : left.storage, storedRight : right.storage with
  | .contents _, .contents _ => cases right.writeMode.admit position length <;> rfl
  | .blank _, .blank _ => rfl
  | .contents _, .blank _ | .blank _, .contents _ =>
      rw [storedLeft, storedRight] at sameKeeps
      cases sameKeeps

/-- How many bytes are written does not depend on the bytes that a file holds. -/
theorem write_congr (same : left.manner = right.manner) (data : Array UInt8) :
    (left.write position data).map Prod.fst = (right.write position data).map Prod.fst := by
  obtain ⟨sameMode, sameKeeps⟩ := Prod.mk.inj same
  unfold write
  rw [sameMode]
  cases right.writeMode.admit position data.size with
  | error _ => rfl
  | ok admitted =>
      dsimp only [bind, Except.bind]
      match storedLeft : left.storage, storedRight : right.storage with
      | .contents _, .contents _ =>
          dsimp only
          split <;> rfl
      | .blank _, .blank _ => rfl
      | .contents _, .blank _ | .blank _, .contents _ =>
          rw [storedLeft, storedRight] at sameKeeps
          cases sameKeeps

end Inode

namespace FileStore

variable {store other : FileStore} {file : FileId}

/-- How a file takes writes. -/
def manner? (store : FileStore) (file : FileId) : Option (TransferModes × Bool) :=
  store.inodes[file]?.map Inode.manner

theorem manner?_laid (position : Nat) (data : Array UInt8) (place : FileId) :
    (store.laid file position data).manner? place = store.manner? place := by
  unfold manner?
  rw [getElem?_laid]
  split
  · rw [Option.map_map]
    exact Option.map_congr fun inode _ => inode.manner_laid position data
  · rfl

/-- The manner of a file is part of its content. -/
theorem manner?_congr (same : other.content? file = store.content? file) :
    other.manner? file = store.manner? file := by
  have ofContent (files : FileStore) :
      files.manner? file = (files.content? file).map Inode.manner := by
    unfold manner? content?
    rw [Option.map_map]
    rfl
  rw [ofContent, same, ofContent]

theorem answer?_write_of_found {inode : Inode} (found : store.inodes[file]? = some inode)
    (position : Nat) (data : Array UInt8) :
    (write file position data store).answer? =
      if inode.outgrowsMemory position data.size then none
      else ((inode.write position data).map Prod.fst).toOption := by
  simp only [write, FileStore.inode, Action.bind_apply, found, Action.require, Action.pure_apply]
  split
  · rfl
  · cases inode.write position data <;> rfl

/-- Two files that take writes alike answer a write alike. -/
theorem answer?_write (same : other.manner? file = store.manner? file) (position : Nat)
    (data : Array UInt8) :
    (write file position data other).answer? = (write file position data store).answer? := by
  unfold manner? at same
  cases found : store.inodes[file]? with
  | none =>
      rw [found, Option.map_none, Option.map_eq_none_iff] at same
      simp [write, inode, Action.bind_apply, Action.require, Action.fail, found, same,
        Outcome.answer?]
  | some inode =>
      rw [found, Option.map_some, Option.map_eq_some_iff] at same
      obtain ⟨twin, foundTwin, sameManner⟩ := same
      rw [answer?_write_of_found foundTwin, answer?_write_of_found found,
        Inode.outgrowsMemory_congr sameManner, Inode.write_congr sameManner]

end FileStore

theorem OpenFile.answer?_write {handle : OpenFile} {store other : FileStore}
    (same : other.manner? handle.file = store.manner? handle.file) (data : Array UInt8) :
    (handle.write data other).answer? = (handle.write data store).answer? := by
  refine Action.answer?_bind (FileStore.answer?_write same handle.position data) ?_
  intro written left right
  refine Action.answer?_bind ?_ fun _ _ _ => rfl
  cases Word.add handle.position written <;> rfl

/-- Whether a page can be written back depends on the file only by how it takes writes. -/
theorem FileRegion.answer?_writeBack {region : FileRegion} {store other : BackingStore}
    (same : other.files.manner? region.mapping.file = store.files.manner? region.mapping.file)
    (page : VirtAddr) (bytes : PageData) (dirty : Bool) :
    (region.writeBack page bytes dirty other).answer? =
      (region.writeBack page bytes dirty store).answer? := by
  unfold writeBack
  cases dirty with
  | false => rfl
  | true =>
      refine Action.answer?_bind ?_ ?_
      · simp only [BackingStore.onFiles, Action.answer?_onPart]
        exact OpenFile.answer?_write same _
      · rintro ⟨written, handle⟩ left right
        dsimp only
        split <;> rfl

/-! ## Steps -/

section Steps

variable {before after : Machine} {move : Move} {allowed : Move → Prop}

/-- The machine does not change how a file takes writes. -/
theorem Step.manner? (step : Step move before after) (inside : move ≠ .outside) (file : FileId) :
    after.store.files.manner? file = before.store.files.manner? file := by
  rcases step.content?_cases inside with same | ⟨_, page, region, _, bytes, -, changed⟩
  · exact FileStore.manner?_congr (same file)
  · rw [FileStore.manner?_congr (changed file), FileRegion.departed]
    split
    · exact FileStore.manner?_laid ..
    · rfl

end Steps

end DemandPaging
