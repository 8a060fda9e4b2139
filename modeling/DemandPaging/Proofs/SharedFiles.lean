import DemandPaging.Proofs.WriteBack

/-!
Files with several mappings at once.

Owns:
- `Machine.stores`, the bytes of a file that a run stores, and the mappings through which it does;
- that updates are kept if the pages are apart that are written, and that they may be lost
  otherwise.

Does not own: files with one mapping at a time (`Reachable.file_written_back`).

Every mapping has pages of its own, and a dirty page is written back with all of its bytes that came
from the file, stored or not. So an update is lost where it is not in the page that is written back
last.

Main statement: `Reachable.no_update_lost`.
-/

namespace DemandPaging

open Machine

/-- The positions of a file at which an event stores bytes, each with the mapping through which it
does. -/
def Event.stores (event : Event) (machine : Machine) (file : FileId) : List (Mapping × Nat) :=
  match event with
  | writeUser pid address data =>
    (List.range (copied pid address data (Chunk.split address.offset data.size) machine)).filterMap
      fun index => do
        let place ← address.advance? index
        let mapping ← machine.mapping? pid place.pageDown
        let position ← machine.filePosition? file pid place
        pure (mapping, position)
  | _ => []

namespace Machine

variable {machine last : Machine} {events : List Event} {file : FileId} {contents : Array UInt8}

/-- The positions of a file at which a run of events stores bytes, each with the mapping through
which it does. -/
def stores (file : FileId) : List Event → Machine → List (Mapping × Nat)
  | [], _ => []
  | event :: rest, machine =>
    event.stores machine file ++
      match (event.perform machine).state? with
      | none => []
      | some next => stores file rest next

/-- No update of a file is lost that was stored through any of its mappings, if no two pages ever
overlap in the file that a run writes. Then the file holds every byte that was stored last at its
position, once it is not mapped any more. -/
theorem Reachable.no_update_lost (reachable : machine.Reachable) (unmapped : ¬machine.Maps file)
    (stored : machine.store.files.bytes? file = some contents)
    (run : machine.after? events = some last)
    (apart : ∀ past state, past <+: events → machine.after? past = some state →
      state.Apart file (· ∈ written events machine))
    (spares : ∀ event ∈ events, event.Spares file) (gone : ¬last.Maps file) :
    last.store.files.bytes? file = some (overlay file events machine contents) := by
  have represents := reachable.represents run apart spares (fun _ member => member)
    (represents_of_unmapped unmapped stored)
  exact represents.bytes?_of_unmapped gone

/-- A mapping of a file is written before and after a copy of it is read in another process, which
drives the dirty page out. -/
def reading : List Event :=
  [.createProcess, .mapFile ⟨1⟩ firstPage 3 true 0 0, .fork ⟨1⟩, .writeUser ⟨1⟩ firstPage #[1, 2],
    .readUser ⟨2⟩ firstPage 3, .writeUser ⟨1⟩ ⟨0x1001, by decide⟩ #[4], .exit ⟨2⟩, .exit ⟨1⟩]

theorem no_update_lost_reading :
    ∃ last, tinyWithFile.after? reading = some last ∧
      last.store.files.bytes? 0 = some #[1, 4, 9] := by
  have runs : ((tinyWithFile.after? reading).map fun last => last.spaces.isEmpty) = some true := by
    decide +kernel
  have single : ∀ left ∈ written reading tinyWithFile, ∀ right ∈ written reading tinyWithFile,
      left.mapping = right.mapping := by decide +kernel
  obtain ⟨last, run, empty⟩ := Option.map_eq_some_iff.1 runs
  refine ⟨last, run, ?_⟩
  rw [reachable_tinyWithFile.no_update_lost (not_maps_of_isEmpty (by decide +kernel) 0) rfl run
    (fun past state _ reached => (reachable_tinyWithFile.of_after? reached).apart_of_mapping_eq
      fun _ _ left _ _ right _ _ leftWrites rightWrites => single left leftWrites right rightWrites)
    (by simp [reading, Event.Spares]) (not_maps_of_isEmpty empty 0)]
  decide +kernel

/-- A machine with two frames and a file of two bytes. -/
def twoFrames : Machine :=
  create {} (FramePool.create 2) (Disk.create 16) ⟨#[{ storage := .contents #[7, 8] }]⟩

/-- A file is mapped twice, and each of its bytes is stored through another mapping. -/
def sharing : List Event :=
  [.createProcess, .mapFile ⟨1⟩ firstPage 2 true 0 0, .mapFile ⟨1⟩ secondPage 2 true 0 0,
    .writeUser ⟨1⟩ firstPage #[1], .writeUser ⟨1⟩ ⟨0x2001, by decide⟩ #[2], .exit ⟨1⟩]

/-- The page that is written back last was brought in before the first byte was stored in the other
one, and takes that byte back. -/
theorem update_lost_sharing :
    (∀ left ∈ stores 0 sharing twoFrames, ∀ right ∈ stores 0 sharing twoFrames,
      left.2 = right.2 → left.1 = right.1) ∧
    overlay 0 sharing twoFrames #[7, 8] = #[1, 2] ∧
    ∃ last, twoFrames.after? sharing = some last ∧ ¬last.Maps 0 ∧
      last.store.files.bytes? 0 = some #[7, 2] := by
  refine ⟨by decide +kernel, by decide +kernel, ?_⟩
  have runs : ((twoFrames.after? sharing).map fun last =>
      (last.spaces.isEmpty, last.store.files.bytes? 0)) = some (true, some #[7, 2]) := by
    decide +kernel
  obtain ⟨last, run, ends⟩ := Option.map_eq_some_iff.1 runs
  rw [Prod.mk.injEq] at ends
  exact ⟨last, run, not_maps_of_isEmpty ends.1 0, ends.2⟩

end Machine

end DemandPaging
