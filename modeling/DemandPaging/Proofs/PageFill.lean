import DemandPaging.Proofs.Residency
import DemandPaging.Proofs.FileBytes
import DemandPaging.Proofs.SwapSectors

/-!
The bytes with which a page comes in.

Owns:
- `Backing.incoming`, the bytes that a backing stands for, given the swap area, the files and the
  world, and `Backing.part?`, the part of a file that they are read from;
- that a page is brought in with these bytes, whatever its frame held before, and that what the
  frame held does not decide whether it can be brought in.

Does not own: the frame that a page is brought into (`Machine.Holding`).

Main statements: `Backing.endAlike_bringIn`, `Step.incoming_of_pageIn` and
`Machine.Sound.incoming_of_makeResident`.
-/

namespace DemandPaging

open Outcome (EndAlike)

/-- What a read of a file finds from a position on. -/
def FileStore.bytesAt (files : FileStore) (file : FileId) (position length : Nat) : Array UInt8 :=
  match files.inodes[file]? with
  | none => #[]
  | some inode =>
    match inode.read position length with
    | .error _ => #[]
    | .ok bytes => bytes

/-- A read of a file answers what is found there. -/
theorem FileStore.bytesAt_of_read {files after : FileStore} {file : FileId}
    {position length : Nat} {bytes : Array UInt8}
    (found : FileStore.read file position length files = .done bytes after) :
    files.bytesAt file position length = bytes := by
  have ends : (FileStore.read file position length files).Ends
      (fun bytes _ => files.bytesAt file position length = bytes) (fun _ _ => True)
      (fun _ => True) := by
    simp only [read, inode, Action.ends_bind, Action.ends_require, Action.ends_orFail]
    refine ⟨fun inode atFile => ⟨fun bytes read => ?_, fun _ _ => trivial⟩, fun _ => trivial⟩
    rw [bytesAt, atFile]
    dsimp only
    rw [read]
  rw [found] at ends
  exact ends

/-- The part of a file from which the first bytes of a page are read. -/
structure FilePart where
  file : FileId
  offset : Nat
  length : Nat
deriving DecidableEq, Repr

/-- What a read of a part of a file finds. -/
def FilePart.find (part : FilePart) (files : FileStore) : Array UInt8 :=
  files.bytesAt part.file part.offset part.length

def FileRegion.part (region : FileRegion) : FilePart where
  file := region.mapping.file
  offset := region.offset
  length := region.readBytes

/-- The part of a file that a page is read from when it is brought in. -/
def Backing.part? : Backing → Option FilePart
  | untouched (.anonymous (some (.segment origin offset length))) => some ⟨origin, offset, length⟩
  | untouched (.anonymous (some (.routine _))) | untouched (.anonymous none) | anonymous _ => none
  | untouched (.file region) | file region => some region.part

/-- The part of a file behind a page, followed by zero bytes. -/
def FileRegion.incoming (region : FileRegion) (files : FileStore) : PageData :=
  Block.ofBytes (files.bytesAt region.mapping.file region.offset region.readBytes)

/-- The page that a loader makes of one that is zero-filled. -/
def Loader.incoming (loader : Loader) (page : VirtAddr) (files : FileStore) (world : World) :
    PageData :=
  match loader with
  | segment file offset readBytes => Block.zero.overlay 0 (files.bytesAt file offset readBytes)
  | routine run => (run world page Block.zero).1

/-- The bytes that a backing stands for. There are none of an anonymous page without an image. -/
def Backing.incoming (backing : Backing) (page : VirtAddr) (swap : SwapArea) (files : FileStore)
    (world : World) : PageData :=
  match backing with
  | untouched (.anonymous none) | anonymous none => Block.zero
  | untouched (.anonymous (some loader)) => loader.incoming page files world
  | anonymous (some slot) => swap.image slot
  | untouched (.file region) | file region => region.incoming files

namespace FileRegion

/-- A part of a file is read into a page with the same result, whatever the page held. -/
theorem endAlike_bringIn (region : FileRegion) (page : VirtAddr) (store : BackingStore)
    (bytes other : PageData) :
    EndAlike (fun _ state twin => twin = state) (fun _ state twin => twin.store = state.store)
      (region.bringIn page ⟨store, bytes⟩) (region.bringIn page ⟨store, other⟩) := by
  unfold bringIn
  refine Action.endAlike_bind (fun _ state twin => twin.store = state.store) ?_ ?_
  · exact Action.endAlike_onPart (.of_same _ (fun _ _ => rfl) fun _ _ => rfl)
  rintro ⟨found, handle⟩ ⟨left, bytes⟩ ⟨right, other⟩ rfl
  dsimp only
  split
  · exact .done rfl
  · exact .halted _

/-- A page of a file comes in as the file has it, and the file has all of its part. -/
theorem incoming_of_bringIn (region : FileRegion) {page : VirtAddr} {store : BackingStore}
    {bytes : PageData} {after : Transfer BackingStore}
    (brought : region.bringIn page ⟨store, bytes⟩ = .done () after) :
    (region.part.find store.files).size = region.readBytes ∧
      after.bytes = region.incoming store.files := by
  have ends : (region.bringIn page ⟨store, bytes⟩).Ends
      (fun _ after => (region.part.find store.files).size = region.readBytes ∧
        after.bytes = region.incoming store.files) (fun _ _ => True) (fun _ => True) := by
    simp only [bringIn, BackingStore.transferFiles, OpenFile.read, Action.ends_bind,
      Action.ends_onPart]
    refine Outcome.ends_self.imp ?_ (fun _ _ _ => trivial) (fun _ _ => trivial)
    intro found files read
    simp only [Action.ends_checked, Action.ends_pure]
    refine ⟨fun _ _ => ?_, fun _ _ => trivial⟩
    have same := FileStore.bytesAt_of_read read
    split
    case isTrue whole =>
      exact ⟨(congrArg Array.size same).trans whole, congrArg Block.ofBytes same.symm⟩
    case isFalse => trivial
  rw [brought] at ends
  exact ends

end FileRegion

/-- A loader that succeeds made its page of the one it was given, and a file that it reads from had
all that it was to read. -/
theorem Loader.incoming_of_load {loader : Loader} {page : VirtAddr} {store : BackingStore}
    {after : Transfer BackingStore}
    (loaded : loader.load page ⟨store, Block.zero⟩ = .done () after) :
    (∀ part, (Backing.untouched (.anonymous (some loader))).part? = some part →
        (part.find store.files).size = part.length) ∧
      after.bytes = loader.incoming page store.files store.world := by
  have ends : (loader.load page ⟨store, Block.zero⟩).Ends
      (fun _ after => (∀ part, (Backing.untouched (.anonymous (some loader))).part? = some part →
          (part.find store.files).size = part.length) ∧
        after.bytes = loader.incoming page store.files store.world) (fun _ _ => True)
      (fun _ => True) := by
    cases loader with
    | segment file offset readBytes =>
        simp only [load, BackingStore.transferFiles, BackingStore.fill, Action.ends_bind,
          Action.ends_onPart, Action.ends_modify]
        refine Outcome.ends_self.imp ?_ (fun _ _ _ => trivial) (fun _ _ => trivial)
        intro found files read
        have same := FileStore.bytesAt_of_read read
        split
        case isTrue => trivial
        case isFalse whole =>
          refine ⟨fun part reads => ?_, congrArg (Block.zero.overlay 0) same.symm⟩
          cases reads
          exact (congrArg Array.size same).trans (Decidable.not_not.1 whole)
    | routine run =>
        simp only [load, Action.ends_bind, Action.ends_get]
        simp only [Action.ends_set, Action.ends_orFail]
        exact ⟨fun _ _ => ⟨nofun, rfl⟩, fun _ _ => trivial⟩
  rw [loaded] at ends
  exact ends

namespace Backing

/-- A page is brought in with the same result, whatever its frame held. -/
theorem endAlike_bringIn (backing : Backing) (page : VirtAddr) (store : BackingStore)
    (bytes other : PageData) :
    EndAlike (fun _ state twin => twin = state) (fun _ state twin => twin.store = state.store)
      (backing.bringIn page ⟨store, bytes⟩) (backing.bringIn page ⟨store, other⟩) := by
  match backing with
  | untouched (.anonymous loader) =>
      -- After the page is zero-filled, both loaders work on the same page.
      exact Action.endAlike_bind (fun _ state twin => twin = state) (.done rfl)
        fun _ state _ same => same ▸ .of_same _ (fun _ _ => rfl) fun _ _ => rfl
  | anonymous none => exact .halted _
  | anonymous (some slot) =>
      unfold bringIn
      refine Action.endAlike_bind (fun _ state twin => twin = state) ?_ fun _ _ _ same => .done same
      have agree : store.swap.AgreeOn (fun _ => True) store.swap := ⟨rfl, rfl, .refl _⟩
      refine Action.endAlike_onPart ?_
      refine (agree.endAlike_swapIn (fun _ _ => trivial) bytes other).imp ?_ ?_
      · rintro _ ⟨left, bytes⟩ ⟨right, other⟩ ⟨-, rfl, released, releasedToo⟩
        rw [released] at releasedToo
        cases releasedToo
        rfl
      · rintro _ ⟨left, bytes⟩ ⟨right, other⟩ ⟨rfl, rfl⟩
        rfl
  | untouched (.file region) | file region =>
      exact Action.endAlike_bind _ (region.endAlike_bringIn page store bytes other)
        fun _ _ _ same => .done same

/-- A page that came in has the bytes that its backing stands for, and a file that it is read from
had all of its part. -/
theorem incoming_of_bringIn {backing answer : Backing} {page : VirtAddr} {store : BackingStore}
    {bytes : PageData} {after : Transfer BackingStore}
    (brought : backing.bringIn page ⟨store, bytes⟩ = .done answer after) :
    (∀ part, backing.part? = some part → (part.find store.files).size = part.length) ∧
      after.bytes = backing.incoming page store.swap store.files store.world := by
  match backing with
  | untouched (.anonymous none) =>
      cases brought
      exact ⟨nofun, rfl⟩
  | untouched (.anonymous (some loader)) =>
      obtain ⟨_, _, filled, brought⟩ := Action.bind_eq_done brought
      cases filled
      obtain ⟨_, _, loaded, rest⟩ := Action.bind_eq_done brought
      cases rest
      exact Loader.incoming_of_load loaded
  | anonymous none => cases brought
  | anonymous (some slot) =>
      rcases of_bringIn brought with ⟨found, same, -, -, image, -⟩ | ⟨notAnonymous, -⟩
      · cases same
        exact ⟨nofun, image⟩
      · exact absurd rfl (notAnonymous _)
  | untouched (.file region) | file region =>
      obtain ⟨whole, bytes⟩ := region.incoming_of_bringIn (bringIn_of_region rfl brought)
      refine ⟨fun part reads => ?_, bytes⟩
      cases reads
      exact whole

/-- Nothing was ever stored in the page, and nothing is to be loaded into it. -/
def isBlank : Backing → Bool
  | untouched (.anonymous none) => true
  | untouched (.anonymous (some _)) | untouched (.file _) | anonymous _ | file _ => false

/-- A page without contents comes in zero-filled. -/
theorem incoming_of_isBlank {backing : Backing} (blank : backing.isBlank = true) (page : VirtAddr)
    (swap : SwapArea) (files : FileStore) (world : World) :
    backing.incoming page swap files world = Block.zero := by
  rcases backing with (loader | region) | slot | region
  case untouched.anonymous =>
    cases loader with
    | none => rfl
    | some loader => cases blank
  case untouched.file | anonymous | file => cases blank

/-- Of the swap area only the image of the page counts. -/
theorem incoming_congr {backing : Backing} {swap other : SwapArea} (page : VirtAddr)
    (files : FileStore) (world : World)
    (same : ∀ slot, backing.slot? = some slot → other.image slot = swap.image slot) :
    backing.incoming page other files world = backing.incoming page swap files world := by
  match backing with
  | anonymous (some slot) => exact same slot rfl
  | untouched (.anonymous none) | untouched (.anonymous (some _)) | untouched (.file _)
  | anonymous none | file _ => rfl

end Backing

variable {before after : Machine} {pid : Pid} {address : VirtAddr} {page : Page}

/-- While room is made, a page that is not in memory stays as it was, and so does its image. -/
theorem Path.page?_of_makesRoom (path : Path Move.MakesRoom before after) (sound : before.Sound)
    (registered : before.page? pid address = some page) (absent : page.frame = none) :
    after.page? pid address = some page ∧
      ∀ slot, page.slot? = some slot →
        after.store.swap.image slot = before.store.swap.image slot := by
  refine path.keeps_of_sound (fun state => state.page? pid address = some page ∧
    ∀ slot, page.slot? = some slot → state.store.swap.image slot = before.store.swap.image slot)
    sound ⟨registered, fun _ _ => rfl⟩ ?_
  intro move middle next allow step soundMiddle reached
  obtain ⟨known, images⟩ := reached
  have notRemoved : ∀ kind, move ≠ .remove pid address kind := by
    rintro kind rfl
    exact allow
  refine ⟨?_, fun slot recorded => ?_⟩
  · by_contra changes
    rw [← known] at changes
    rcases step.move_of_page? soundMiddle known notRemoved changes with
      ⟨frame, -, held⟩ | ⟨frame, kind, first, rfl⟩
    · rw [Machine.frame?, known, Option.bind_some, absent] at held
      cases held
    · exact allow
  · rw [← images slot recorded]
    exact (step.keepsImages soundMiddle).image slot
      (soundMiddle.slots.isOccupied_of_recorded known recorded)

/-- A step that brings a page in fills its frame with the bytes that its backing stands for, and
leaves the files as they are. A file that the page is read from has all of its part. -/
theorem Step.incoming_of_pageIn {frame : PhysAddr} {kind : PageKind} {first : Bool}
    (step : Step (.pageIn pid address frame kind first) before after)
    (registered : before.page? pid address = some page) :
    after.resident.contents? frame =
        some (page.backing.incoming page.address before.store.swap before.store.files
          before.store.world) ∧
      after.store.files = before.store.files ∧
      ∀ part, page.backing.part? = some part →
        (part.find before.store.files).size = part.length := by
  cases step with
  | @pageIn _ _ space brought _ bytes backing transfer _ _ _ resident found atPlace _ _ _ _ _ fills
      written =>
      rw [Machine.page?_of_space found, atPlace, Option.some.injEq] at registered
      subst registered
      obtain ⟨-, -, -, contents⟩ := ResidentSet.of_write written
      have sameFiles : transfer.store.files = before.store.files := by
        rcases Backing.of_bringIn fills with ⟨-, -, -, -, -, store, -⟩ | ⟨-, -, store⟩
        · rw [store]
        · rw [store]
      obtain ⟨whole, filled⟩ := Backing.incoming_of_bringIn fills
      refine ⟨?_, sameFiles, whole⟩
      show resident.contents? frame = _
      rw [contents, if_pos rfl, filled]

namespace Machine

/-- A page that was not in memory and is brought in has the bytes that its backing stands for,
whichever frame was taken for it and whatever was in that frame. -/
theorem Sound.incoming_of_makeResident (sound : before.Sound)
    (registered : before.page? pid address.pageDown = some page) (absent : page.frame = none)
    (came : makeResident pid address before = .done () after) :
    ∃ frame, after.frame? pid address.pageDown = some frame ∧
      after.resident.contents? frame =
        some (page.backing.incoming page.address before.store.swap after.store.files
          before.store.world) := by
  have ends := ends_makeResident sound pid address
  rw [came, frame?, registered, Option.bind_some, absent] at ends
  obtain ⟨-, resident⟩ | ⟨-, frame, kind, first, settled, held, holding, step, atFrame⟩ := ends
  · cases resident
  refine ⟨frame, atFrame, ?_⟩
  obtain ⟨known, images⟩ := holding.path.page?_of_makesRoom sound registered absent
  obtain ⟨contents, sameFiles, -⟩ := step.incoming_of_pageIn known
  rw [contents, sameFiles, holding.path.world_eq sound fun _ room => room.ne_outside,
    Backing.incoming_congr _ _ _ images]

end Machine

end DemandPaging
