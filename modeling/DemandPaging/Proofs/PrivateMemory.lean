import DemandPaging.Proofs.FrameOwnership
import DemandPaging.Proofs.UserBytes

/-!
Anonymous memory is private to its process.

Owns:
- `Event.stored?`, the byte that an event stores at an address of a process;
- `Machine.remember`, what is remembered of a byte over a run, from what was stored there alone;
- that nothing but storing changes a byte, and that reading answers the bytes that are held.

Main statement: `Reachable.memory_is_private`.
-/

namespace DemandPaging

open Machine

/-- The byte that an event stores at an address of a process, if it stores one there. -/
def Event.stored? (event : Event) (machine : Machine) (pid : Pid) (place : VirtAddr) :
    Option UInt8 :=
  match event with
  | writeUser target address data =>
    let count := copied target address data (Chunk.split address.offset data.size) machine
    if target = pid ∧ address.toNat ≤ place.toNat ∧ place.toNat < address.toNat + count then
      data[place.toNat - address.toNat]?
    else
      none
  | _ => none

/-- What is remembered of a byte after some events: what was stored there last, or else what was
remembered before, or else the first value it had. Without a value nothing is remembered. -/
def Machine.remember (pid : Pid) (place : VirtAddr) :
    List Event → Machine → Option UInt8 → Option UInt8
  | [], _, byte? => byte?
  | event :: rest, machine, byte? =>
    match (event.perform machine).state? with
    | none => byte?
    | some next =>
      remember pid place rest next ((next.byte? pid place).map fun now =>
        (event.stored? machine pid place).getD (byte?.getD now))

namespace Event

variable {event : Event} {before after : Machine} {pid : Pid} {place : VirtAddr} {byte : UInt8}

/-- Apart from writing, no event overwrites a page of a process that exists. -/
theorem not_allows_overwrite {next : Nat} (exists' : pid.number < next)
    (notWrite : ∀ target address data, event ≠ .writeUser target address data)
    (address : VirtAddr) (kind : PageKind) : ¬event.Allows next (.overwrite pid address kind) := by
  cases event with
  | createProcess => exact nofun
  | fork _ =>
      rintro ⟨same, -⟩
      rw [same] at exists'
      exact Nat.lt_irrefl _ exists'
  | exit _ | makeResident _ _ => exact id
  | registerPage _ _ _ _ _ | handleFault _ _ | loadSegment _ _ _ =>
      exact Move.not_registers_overwrite address kind
  | setUpStack _ =>
      rintro (registers | same)
      · exact Move.not_registers_overwrite address kind registers
      · cases same
  | readUser _ _ _ => exact Move.not_accesses_overwrite address kind
  | writeUser target address data => exact absurd rfl (notWrite target address data)
  | mapFile _ _ _ _ _ _ | mmapCall _ _ _ _ _ _ =>
      rintro (same | ⟨_, same⟩)
      · cases same
      · cases same
  | unmapFile _ _ | munmapCall _ _ =>
      rintro ⟨_, same⟩
      cases same
  | setStackPointer _ _ | access _ _ _ | changeDisk _ _ | changeFiles _ | changeWorld _ =>
      exact nofun

/-- Apart from writing and from the end of the process, no event overwrites or removes an anonymous
page of a process that exists. -/
theorem not_allows {next : Nat} (exists' : pid.number < next) (notExit : event ≠ .exit pid)
    (notWrite : ∀ target address data, event ≠ .writeUser target address data)
    (address : VirtAddr) :
    ¬event.Allows next (.overwrite pid address .anonymous) ∧
      ¬event.Allows next (.remove pid address .anonymous) := by
  refine ⟨not_allows_overwrite exists' notWrite address .anonymous, ?_⟩
  have earlier : pid ≠ ⟨next⟩ := by
    intro same
    rw [same] at exists'
    exact Nat.lt_irrefl _ exists'
  cases event with
  | createProcess => exact nofun
  | fork _ => exact earlier
  | exit target => exact fun same => notExit (by rw [show pid = target from same])
  | registerPage _ _ _ _ _ | handleFault _ _ | loadSegment _ _ _ =>
      exact Move.not_registers_remove address .anonymous
  | setUpStack _ =>
      rintro (registers | same)
      · exact Move.not_registers_remove address .anonymous registers
      · cases same
  | readUser _ _ _ => exact Move.not_accesses_remove address .anonymous
  | writeUser target address data => exact absurd rfl (notWrite target address data)
  | mapFile _ _ _ _ _ _ | mmapCall _ _ _ _ _ _ =>
      rintro (same | ⟨_, same⟩)
      · cases same
      · cases same
  | unmapFile _ _ | munmapCall _ _ =>
      -- Only file pages are removed here.
      rintro ⟨_, same⟩
      cases same
  | makeResident _ _ => exact id
  | setStackPointer _ _ | access _ _ _ | changeDisk _ _ | changeFiles _ | changeWorld _ =>
      exact nofun

theorem lt_nextPid_of_byte? (sound : before.Sound) (known : before.byte? pid place = some byte) :
    pid.number < before.nextPid := by
  obtain ⟨bytes, holds, -⟩ := Option.map_eq_some_iff.1 known
  obtain ⟨page, registered, -⟩ := Option.bind_eq_some_iff.1 holds
  obtain ⟨space, found, -⟩ := space_of_page? registered
  exact (sound.frames.spaces pid space found).2

theorem space_of_exit (sound : before.Sound) (pid : Pid)
    (leaves : ((exit pid).perform before).state? = some after) : after.spaces[pid]? = none := by
  have ends := ends_exit sound pid
  exact ends.leaves (fun _ _ gone => gone.2) (fun _ _ no => no.elim) after leaves

/-- Whichever way writing ends, it changes no other bytes than those it copies, and these are held
afterwards. -/
theorem of_writeUser (sound : before.Sound) {address : VirtAddr} {data : Array UInt8}
    (leaves : ((writeUser pid address data).perform before).state? = some after) :
    before.KeepsOutside after pid address
        (copied pid address data (Chunk.split address.offset data.size) before) ∧
      after.HoldsRun pid address data
        (copied pid address data (Chunk.split address.offset data.size) before) := by
  have ends := ends_writeUser_bytes sound pid address data
  exact ends.leaves (fun _ _ written => written.2) (fun _ _ written => written) after leaves

/-- What was stored at an address of an anonymous page is the byte there. -/
theorem byte?_of_stored {now : UInt8} (sound : before.Sound)
    (leaves : (event.perform before).state? = some after)
    (stored : event.stored? before pid place = some byte)
    (known : after.byte? pid place = some now) : now = byte := by
  cases event with
  | writeUser target address data =>
      unfold stored? at stored
      dsimp only at stored
      split at stored
      case isTrue inside =>
        obtain ⟨rfl, lower, upper⟩ := inside
        obtain ⟨page, registered, holds⟩ := (of_writeUser sound leaves).2 place byte lower upper
          stored
        obtain ⟨bytes, contents, -⟩ := Option.map_eq_some_iff.1 known
        rw [contents?_of_page registered] at contents
        rw [holds (kind_of_contentsOf? contents), Option.some.injEq] at known
        exact known.symm
      case isFalse => cases stored
  | createProcess | fork _ | exit _ | registerPage _ _ _ _ _ | makeResident _ _ | handleFault _ _
  | mapFile _ _ _ _ _ _ | unmapFile _ _ | mmapCall _ _ _ _ _ _ | munmapCall _ _
  | loadSegment _ _ _ | setUpStack _ | readUser _ _ _ | setStackPointer _ _ | access _ _ _
  | changeDisk _ _ | changeFiles _ | changeWorld _ => cases stored

/-- Whichever way an event ends, a byte of a process that survives it is what was stored there, or
what it was before. -/
theorem byte?_of_perform (sound : before.Sound) (whole : ∀ pid, before.MappingsWhole pid)
    (leaves : (event.perform before).state? = some after)
    (known : before.byte? pid place = some byte)
    (survives : after.spaces[pid]?.isSome = true) :
    after.byte? pid place = some ((event.stored? before pid place).getD byte) := by
  have existed := lt_nextPid_of_byte? sound known
  have leads := leads_of_perform sound whole leaves
  have notExit : event ≠ .exit pid := by
    rintro rfl
    rw [space_of_exit sound pid leaves] at survives
    cases survives
  -- Writing changes bytes even if it fails. All other events keep every anonymous page.
  by_cases writes : ∃ target address data, event = .writeUser target address data
  · obtain ⟨target, address, data, rfl⟩ := writes
    obtain ⟨kept, held⟩ := of_writeUser sound leaves
    unfold stored?
    dsimp only
    split
    case isFalse outside =>
      refine kept pid place byte known fun inside => outside ?_
      exact ⟨inside.1.symm, inside.2⟩
    case isTrue inside =>
      obtain ⟨rfl, lower, upper⟩ := inside
      have count := copied_le (Chunk.tile_split address.offset_lt_pageSize data.size) target before
      have listed : (data[place.toNat - address.toNat]?).isSome = true := by
        rw [isSome_getElem?]
        omega
      obtain ⟨stored, atPlace⟩ := Option.isSome_iff_exists.1 listed
      rw [atPlace]
      obtain ⟨page, registered, holds⟩ := held place stored lower upper atPlace
      refine holds ?_
      obtain ⟨bytes, contents, -⟩ := Option.map_eq_some_iff.1 known
      obtain ⟨old, registered', contents⟩ := Option.bind_eq_some_iff.1 contents
      obtain ⟨changed, found, continues⟩ := leads.path.exists_page? sound registered'
        (Move.not_writes_remove place.pageDown)
      rw [registered] at found
      cases found
      exact continues.kind.trans (kind_of_contentsOf? contents)
  · have notWrite : ∀ target address data, event ≠ .writeUser target address data :=
      fun target address data same => writes ⟨target, address, data, same⟩
    obtain ⟨kept, stays⟩ := not_allows existed notExit notWrite place.pageDown
    have nothing : event.stored? before pid place = none := by
      cases event with
      | writeUser target address data => exact absurd rfl (notWrite target address data)
      | _ => rfl
    rw [nothing]
    exact leads.path.byte? sound known kept stays

end Event

namespace Machine

variable {machine last : Machine} {events : List Event} {pid : Pid} {place : VirtAddr}

theorem Reachable.byte?_eq_remember (reachable : machine.Reachable)
    (run : machine.after? events = some last) (pid : Pid) (place : VirtAddr) :
    last.byte? pid place = remember pid place events machine (machine.byte? pid place) := by
  -- The induction is on the events yet to come, since every event starts from its own state.
  induction events generalizing machine with
  | nil =>
      cases run
      rfl
  | cons event rest inductionHypothesis =>
      obtain ⟨next, leaves, run⟩ := Option.bind_eq_some_iff.1 run
      rw [remember, leaves, inductionHypothesis (reachable.next event leaves) run]
      dsimp only
      congr 1
      cases after : next.byte? pid place with
      | none => rfl
      | some now =>
          rw [Option.map_some]
          refine congrArg some ?_
          cases stored : event.stored? machine pid place with
          | some byte => exact Event.byte?_of_stored reachable.sound leaves stored after
          | none =>
              cases known : machine.byte? pid place with
              | none => rfl
              | some byte =>
                  have survives : next.spaces[pid]?.isSome = true := by
                    obtain ⟨bytes, contents, -⟩ := Option.map_eq_some_iff.1 after
                    obtain ⟨page, registered, -⟩ := Option.bind_eq_some_iff.1 contents
                    obtain ⟨space, found, -⟩ := space_of_page? registered
                    rw [found]
                    rfl
                  have kept := Event.byte?_of_perform reachable.sound reachable.mappingsWhole
                    leaves known survives
                  rw [after, stored] at kept
                  exact Option.some.inj kept

/-- Reading answers as many bytes as were asked for, and each of an anonymous page is the byte that
the page holds and held. -/
theorem Reachable.of_fetchUser {address : VirtAddr} {length : Nat} {bytes : Array UInt8}
    {after : Machine} (reachable : machine.Reachable)
    (fetched : fetchUser pid address length machine = .done bytes after) :
    bytes.size = length ∧ after.HoldsRun pid address bytes length := by
  have ends := ends_readUser_bytes reachable.sound pid address length
  unfold fetchUser at fetched
  cases outcome : readUser pid address length { machine } with
  | done _ read =>
      rw [outcome] at ends fetched
      cases fetched
      exact ends
  | failed error read | halted fault =>
      rw [outcome] at fetched
      cases fetched

/-- Anonymous memory is private memory. Whichever way an event ends, a byte of a process that
survives it is what the event stored there, or what it was. A read that succeeds answers the bytes
that are held. So a byte is at any time what was stored there last, or its first value. -/
theorem Reachable.memory_is_private (reachable : machine.Reachable) :
    (∀ event after, Outcome.state? (Event.perform event machine) = some after →
      ∀ pid place byte, machine.byte? pid place = some byte →
        after.spaces[pid]?.isSome = true →
        after.byte? pid place = some ((event.stored? machine pid place).getD byte)) ∧
    (∀ pid address length bytes after,
      fetchUser pid address length machine = .done bytes after →
      bytes.size = length ∧
      ∀ place byte, address.toNat ≤ place.toNat → place.toNat < address.toNat + length →
        bytes[place.toNat - address.toNat]? = some byte →
        ∃ page, after.page? pid place.pageDown = some page ∧
          (page.kind = .anonymous → after.byte? pid place = some byte) ∧
          ∀ held, machine.byte? pid place = some held → byte = held) ∧
    (∀ pid address data after, writeUser pid address data machine = .done () after →
      copied pid address data (Chunk.split address.offset data.size) machine = data.size) ∧
    ∀ events last, machine.after? events = some last → ∀ pid place,
      last.byte? pid place = remember pid place events machine (machine.byte? pid place) := by
  refine ⟨?_, ?_, ?_, ?_⟩
  · intro event after leaves pid place byte known survives
    exact Event.byte?_of_perform reachable.sound reachable.mappingsWhole leaves known survives
  · intro pid address length bytes after fetched
    obtain ⟨size, holds⟩ := reachable.of_fetchUser fetched
    refine ⟨size, fun place byte lower upper listed => ?_⟩
    obtain ⟨page, registered, anonymous⟩ := holds place byte lower upper listed
    refine ⟨page, registered, anonymous, fun held known => ?_⟩
    have existed : after.spaces[pid]?.isSome = true := by
      obtain ⟨space, found, -⟩ := space_of_page? registered
      rw [found]
      rfl
    have leaves : (Event.perform (.readUser pid address length) machine).state? = some after := by
      show ((fetchUser pid address length >>= fun _ => pure ()) machine).state? = some after
      rw [Action.bind_apply, fetched]
      rfl
    have kept : after.byte? pid place = some held :=
      Event.byte?_of_perform reachable.sound reachable.mappingsWhole leaves known existed
    obtain ⟨bytes, contents, -⟩ := Option.map_eq_some_iff.1 kept
    rw [contents?_of_page registered] at contents
    rw [anonymous (kind_of_contentsOf? contents), Option.some.injEq] at kept
    exact kept
  · intro pid address data after written
    have ends := ends_writeUser_bytes reachable.sound pid address data
    rw [written] at ends
    exact ends.1
  · intro events last run pid place
    exact reachable.byte?_eq_remember run pid place

/-- In the crowded machine a byte is what was stored there, although its page was driven out. -/
theorem memory_is_private_crowded :
    ∃ machine, tiny.after? crowding = some machine ∧
      machine.byte? ⟨1⟩ firstPage = some 1 := by
  have runs : (tiny.after? crowding).isSome = true := by decide +kernel
  obtain ⟨machine, run⟩ := Option.isSome_iff_exists.1 runs
  refine ⟨machine, run, ?_⟩
  rw [reachable_tiny.memory_is_private.2.2.2 crowding machine run]
  decide +kernel

end Machine

end DemandPaging
