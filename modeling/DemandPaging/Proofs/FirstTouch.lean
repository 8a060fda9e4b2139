import DemandPaging.Proofs.Claims
import DemandPaging.Proofs.PrivateMemory

/-!
The first touch of an anonymous page, and what the page holds from then on.

Owns:
- `Machine.Brings`, steps on the way of which an untouched page is brought in;
- `Machine.storedLast`, the byte that was stored at an address last;
- that a process that is gone stays gone.

Does not own: what a page comes in with (`Backing.incoming`), and whether it can be brought in
(`Machine.Claimable`).

An event that writes to an untouched page brings it in first and replaces part of it then. What it
does not replace is what the page came in with, which no state between two events shows.

Main statements: `Event.same_or_brings` and `Reachable.same_or_brings`.
-/

namespace DemandPaging

open Machine

/-! ## Processes that are gone -/

section Gone

variable {before after : Machine} {move : Move} {pid : Pid}

/-- A process is not there any more. -/
structure Machine.Gone (machine : Machine) (pid : Pid) : Prop where
  missing : machine.spaces[pid]? = none
  earlier : pid.number < machine.nextPid

theorem Machine.spaces_eq_none_iff (machine : Machine) (pid : Pid) :
    machine.spaces[pid]? = none ↔ machine.stackPointer? pid = none := by
  rw [stackPointer?, Option.map_eq_none_iff]

theorem Step.nextPid_le (step : Step move before after) : before.nextPid ≤ after.nextPid := by
  cases step with
  | upkeep upkeep => cases upkeep <;> exact Nat.le_refl _
  | arrive => exact Nat.le_succ _
  | createMapping | retain | outside | setStackPointer | access | pageOut | pageIn | overwrite
  | register | removeAbsent | removeResident | leave => exact Nat.le_refl _

/-- The number of a process is not given again. -/
theorem Step.gone (step : Step move before after) (gone : before.Gone pid) : after.Gone pid := by
  have missing := gone.missing
  refine ⟨?_, Nat.lt_of_lt_of_le gone.earlier step.nextPid_le⟩
  rw [spaces_eq_none_iff, step.stackPointer? ?_ ?_ ?_, ← spaces_eq_none_iff]
  · exact missing
  · rintro rfl
    cases step with
    | setStackPointer found =>
        rw [missing] at found
        cases found
  · intro arrives
    subst arrives
    cases step with
    | arrive => exact Nat.lt_irrefl _ gone.earlier
  · rintro rfl
    cases step with
    | leave found =>
        rw [missing] at found
        cases found

/-- A process that existed before an event and exists after the rest of a run existed in between. -/
theorem Machine.Reachable.isSome_of_after? {machine next last : Machine} {event : Event}
    {rest : List Event} (reachable : machine.Reachable)
    (leaves : (event.perform machine).state? = some next) (run : next.after? rest = some last)
    (earlier : pid.number < machine.nextPid) (present : last.spaces[pid]?.isSome = true) :
    next.spaces[pid]?.isSome = true := by
  have path := (Event.leads_of_perform reachable.sound reachable.mappingsWhole leaves).path
  have numbered : machine.nextPid ≤ next.nextPid :=
    path.keeps (Nat.le_refl _) fun _ _ _ _ step less => Nat.le_trans less step.nextPid_le
  rw [Option.isSome_iff_ne_none] at present ⊢
  intro missing
  have gone : next.Gone pid := ⟨missing, Nat.lt_of_lt_of_le earlier numbered⟩
  refine present ((reachable.next event leaves).keeps (fun state => state.Gone pid) run gone
    ?_).2.missing
  intro other _ before after reached perform gone
  have leads := Event.leads_of_perform reached.sound reached.mappingsWhole perform
  exact leads.path.keeps gone fun _ _ _ _ step gone => step.gone gone

end Gone

/-! ## Steps that bring a page in -/

section Paths

variable {allowed : Move → Prop} {first before middle brought after last : Machine} {pid : Pid}
  {place : VirtAddr} {page : Page}

/-- An untouched page is brought in on the way of some steps. -/
structure Machine.Brings (allowed : Move → Prop) (before : Machine) (pid : Pid) (place : VirtAddr)
    (page : Page) (middle brought after : Machine) : Prop where
  earlier : Path allowed before middle
  untouched : middle.page? pid place = some page
  step : ∃ frame, Step (.pageIn pid place frame page.kind true) middle brought
  later : Path allowed brought after

theorem Machine.Brings.extend (brings : before.Brings allowed pid place page middle brought after)
    (sooner : Path allowed first before) (more : Path allowed after last) :
    first.Brings allowed pid place page middle brought last :=
  ⟨sooner.trans brings.earlier, brings.untouched, brings.step, brings.later.trans more⟩

theorem Machine.Brings.mono {wider : Move → Prop}
    (brings : before.Brings allowed pid place page middle brought after)
    (more : ∀ move, allowed move → wider move) :
    before.Brings wider pid place page middle brought after :=
  ⟨brings.earlier.mono more, brings.untouched, brings.step, brings.later.mono more⟩

/-- A page that came in holds something from then on. -/
theorem Machine.Brings.exists_byte?
    (brings : before.Brings allowed pid place page middle brought after) (sound : before.Sound)
    (kind : page.kind = .anonymous) (stays : ¬allowed (.remove pid place .anonymous))
    {spot : VirtAddr} (inPage : spot.pageDown = place) :
    ∃ byte, after.byte? pid spot = some byte := by
  obtain ⟨frame, step⟩ := brings.step
  have soundBrought := step.sound (brings.earlier.sound sound)
  obtain ⟨-, now, found, claimed⟩ := step.claimedTo_of_pageIn brings.untouched
  have nowKind : now.kind = .anonymous := claimed.continues.kind.trans kind
  have touched : now.isUntouched = false := by
    rw [claimed.touched, decide_eq_false Nat.one_ne_zero, Bool.and_false]
  obtain ⟨changed, foundAfter, continues⟩ := brings.later.exists_page?_of_kind soundBrought found
    (by rw [nowKind]; exact stays)
  obtain ⟨bytes, holds⟩ := (brings.later.sound soundBrought).exists_contents? foundAfter
    (continues.kind.trans nowKind) (continues.touched touched)
  exact ⟨_, by rw [byte?, inPage, holds]; rfl⟩

/-- An untouched page that is not removed stays as it is until it is brought in. -/
theorem Path.same_or_brings (path : Path allowed before after) (sound : before.Sound)
    (registered : before.page? pid place = some page) (untouched : page.isUntouched = true)
    (stays : ¬allowed (.remove pid place page.kind)) :
    after.page? pid place = some page ∨
      ∃ middle brought, before.Brings allowed pid place page middle brought after := by
  -- The induction is on the last step: before it the page was untouched, or it was brought in.
  induction path with
  | refl => exact .inl registered
  | @tail earlier after path stepped inductionHypothesis =>
      obtain ⟨move, allow, step⟩ := stepped
      cases inductionHypothesis with
      | inr brings =>
          obtain ⟨middle, brought, brings⟩ := brings
          exact .inr ⟨middle, brought, brings.extend (.refl before) (.single step allow)⟩
      | inl known =>
          have soundHere := Path.sound path sound
          obtain ⟨changed, found, -⟩ := step.exists_page? soundHere.frames known fun same =>
            stays (same ▸ allow)
          by_cases same : after.page? pid place = earlier.page? pid place
          · exact .inl (same.trans known)
          · have stayed := step.ne_remove soundHere.frames found
            cases step.move_of_page? soundHere known stayed same with
            | inl saved =>
                -- An untouched page is in no frame, so it cannot be saved.
                obtain ⟨frame, -, held⟩ := saved
                rw [frame?, known, Option.bind_some,
                  (soundHere.slots.placed pid place page known).frame_eq_none untouched] at held
                cases held
            | inr comes =>
                obtain ⟨frame, kind, isFirst, rfl⟩ := comes
                obtain ⟨other, also, rfl, rfl⟩ := step.page_of_pageIn
                rw [known, Option.some.injEq] at also
                subst also
                rw [untouched] at step
                exact .inr ⟨earlier, after, path, known, ⟨frame, step⟩, .refl after⟩

end Paths

/-! ## Writing to an untouched page -/

namespace Machine

variable {before after middle : Machine} {pid : Pid} {address place : VirtAddr} {page : Page}
  {data : Array UInt8} {chunk : Chunk} {chunks : List Chunk} {fewer count done : Nat}

/-- A page is still untouched, or it was brought in on the way, and outside a number of bytes from
an address on it holds what it came in with. -/
def SameOrShows (before : Machine) (pid : Pid) (place : VirtAddr) (page : Page)
    (address : VirtAddr) (count : Nat) (after : Machine) : Prop :=
  after.page? pid place = some page ∨
    ∃ middle brought, before.Brings (Move.Writes pid) pid place page middle brought after ∧
      ∀ spot byte, spot.pageDown = place →
        ¬(address.toNat ≤ spot.toNat ∧ spot.toNat < address.toNat + count) →
        brought.byte? pid spot = some byte → after.byte? pid spot = some byte

/-- The first part of what is written to some pages, and the rest of it. -/
theorem SameOrShows.trans (shows : before.SameOrShows pid place page address fewer middle)
    (sooner : Path (Move.Writes pid) before middle) (more : Path (Move.Writes pid) middle after)
    (keeps : middle.KeepsOutside after pid address count) (less : fewer ≤ count)
    (later : middle.page? pid place = some page →
      middle.SameOrShows pid place page address count after) :
    before.SameOrShows pid place page address count after := by
  cases shows with
  | inl known =>
      cases later known with
      | inl same => exact .inl same
      | inr touched =>
          obtain ⟨settled, brought, brings, bytes⟩ := touched
          exact .inr ⟨settled, brought, brings.extend sooner (.refl after), bytes⟩
  | inr touched =>
      obtain ⟨settled, brought, brings, bytes⟩ := touched
      refine .inr ⟨settled, brought, brings.extend (.refl before) more, ?_⟩
      intro spot byte inPage outside comes
      have outsideFewer : ¬(address.toNat ≤ spot.toNat ∧ spot.toNat < address.toNat + fewer) := by
        omega
      exact keeps pid spot byte (bytes spot byte inPage outsideFewer comes) fun inside =>
        outside inside.2

/-- As long as nothing is written, a page that came in holds what it came in with. -/
theorem SameOrShows.of_path (sound : before.Sound)
    (registered : before.page? pid place = some page) (untouched : page.isUntouched = true)
    (path : Path (Move.Accesses pid true) before after) (address : VirtAddr) (count : Nat) :
    before.SameOrShows pid place page address count after := by
  cases path.same_or_brings sound registered untouched (Move.not_accesses_remove place _) with
  | inl same => exact .inl same
  | inr touched =>
      obtain ⟨middle, brought, brings⟩ := touched
      refine .inr ⟨middle, brought, brings.mono fun _ accesses => .inl accesses, ?_⟩
      intro spot byte _ _ comes
      obtain ⟨frame, step⟩ := brings.step
      exact brings.later.byte? (step.sound (brings.earlier.sound sound)) comes
        (Move.not_accesses_overwrite _ _) (Move.not_accesses_remove _ _)

theorem ends_writeChunk_shows (sound : before.Sound)
    (registered : before.page? pid place = some page) (untouched : page.isUntouched = true)
    (inPage : (address.offset + chunk.done) % pageSize + chunk.size ≤ pageSize)
    (inData : chunk.done + chunk.size ≤ data.size) :
    (writeChunk pid address data chunk before).Ends
      (fun _ after =>
        before.SameOrShows pid place page address (chunk.done + chunk.size) after)
      (fun _ after => before.SameOrShows pid place page address chunk.done after)
      (fun _ => True) := by
  refine (ends_writeChunk sound pid address data chunk).imp ?_ ?_ fun _ _ => trivial
  · intro _ after written
    obtain ⟨handled, middle, first, location, contents, path, accessed, stored⟩ := written
    have toMiddle : Path (Move.Accesses pid true) before middle :=
      (path.mono fun _ registers => .inl registers).snoc accessed (.inr ⟨first, rfl⟩)
    have soundMiddle := toMiddle.sound sound
    have start := (VirtAddr.ofNat?_eq_some_iff.1 stored.advanced).2
    have offset : first.offset = (address.offset + chunk.done) % pageSize := by
      simp only [Address.offset, start, pageSize]
      omega
    obtain ⟨keeps, -⟩ := stored.byte? soundMiddle (by rw [offset]; exact inPage) inData
    obtain ⟨other, -, step⟩ := stored.step
    have writes : Path (Move.Writes pid) middle after := Path.single step (.inr ⟨_, _, rfl⟩)
    refine (SameOrShows.of_path sound registered untouched toMiddle address chunk.done).trans
      (toMiddle.mono fun _ accesses => .inl accesses) writes ?_ (Nat.le_add_right _ _) ?_
    · intro owner spot byte known outside
      exact keeps owner spot byte known fun inside => outside ⟨inside.1, by omega, by omega⟩
    · intro known
      exact .inl ((stored.page? pid place).trans known)
  · intro error after path
    exact .of_path sound registered untouched (path.mono fun _ registers => .inl registers)
      address chunk.done

/-- Writing chunk by chunk, up to a chunk that fails. -/
theorem ends_writeChunks_shows (sound : before.Sound)
    (registered : before.page? pid place = some page) (untouched : page.isUntouched = true)
    (tile : Chunk.Tile address.offset data.size done chunks)
    (holds : before.HoldsRun pid address data done) :
    (chunks.forM (writeChunk pid address data) before).Ends
      (fun _ after => before.SameOrShows pid place page address
        (done + copied pid address data chunks before) after)
      (fun _ after => before.SameOrShows pid place page address
        (done + copied pid address data chunks before) after)
      (fun _ => True) := by
  -- The first chunk may bring the page in. What it leaves is either untouched, and the induction
  -- goes on from there, or the other chunks keep it outside of what they copy.
  induction chunks generalizing before done with
  | nil => exact .inl registered
  | cons chunk rest inductionHypothesis =>
      obtain ⟨rfl, inPage, tileRest⟩ := tile
      have inData := tileRest.le_length
      have shows := ends_writeChunk_shows sound registered untouched inPage inData
      have held := ends_writeChunk_bytes sound rfl inPage inData holds
      have takes := (takes_writeChunk pid address data chunk).ends before sound
      show ((writeChunk pid address data chunk >>= fun _ => rest.forM _) before).Ends _ _ _
      rw [Action.ends_bind, copied]
      cases outcome : writeChunk pid address data chunk before with
      | done _ next =>
          rw [outcome] at shows held takes
          have soundNext := takes.sound sound
          have keeps := ends_writeChunks_bytes soundNext tileRest held.2
          have more := (Action.Takes.forM (takes_writeChunk pid address data) rest).ends next
            soundNext
          have later (known : next.page? pid place = some page) :=
            inductionHypothesis soundNext known tileRest held.2
          rw [Outcome.ends_done]
          dsimp only
          rw [← Nat.add_assoc]
          cases left : rest.forM (writeChunk pid address data) next with
          | done _ after =>
              rw [left] at keeps more later
              exact shows.trans takes more keeps.2.1 (Nat.le_add_right _ _) later
          | failed error after =>
              rw [left] at keeps more later
              exact shows.trans takes more keeps.1 (Nat.le_add_right _ _) later
          | halted fault => trivial
      | failed error after =>
          rw [outcome] at shows
          exact shows
      | halted fault => trivial

end Machine

/-! ## Events -/

namespace Event

variable {event : Event} {before after : Machine} {pid : Pid} {place : VirtAddr} {page : Page}

/-- Where a write stores nothing, it copies nothing. -/
theorem outside_of_stored? {address spot : VirtAddr} {data : Array UInt8}
    (nothing : (writeUser pid address data).stored? before pid spot = none) :
    ¬(address.toNat ≤ spot.toNat ∧ spot.toNat < address.toNat +
      copied pid address data (Chunk.split address.offset data.size) before) := by
  intro inside
  have count := copied_le (Chunk.tile_split address.offset_lt_pageSize data.size) pid before
  unfold stored? at nothing
  dsimp only at nothing
  rw [if_pos ⟨rfl, inside⟩, Array.getElem?_eq_none_iff] at nothing
  omega

/-- Only writing to the memory of a process overwrites its anonymous pages, and only the end of the
process removes them. -/
theorem not_allows_of_foreign {next : Nat} (earlier : pid.number < next)
    (notExit : event ≠ .exit pid) (foreign : ∀ address data, event ≠ .writeUser pid address data)
    (place : VirtAddr) :
    ¬event.Allows next (.overwrite pid place .anonymous) ∧
      ¬event.Allows next (.remove pid place .anonymous) := by
  by_cases writes : ∃ target address data, event = .writeUser target address data
  · obtain ⟨target, address, data, rfl⟩ := writes
    refine ⟨fun overwrites => ?_, Move.not_writes_remove place .anonymous⟩
    cases overwrites with
    | inl accesses => exact Move.not_accesses_overwrite _ _ accesses
    | inr same =>
        obtain ⟨_, _, same⟩ := same
        cases same
        exact foreign address data rfl
  · exact not_allows earlier notExit (fun target address data same =>
      writes ⟨target, address, data, same⟩) place

theorem stored?_of_foreign (foreign : ∀ address data, event ≠ .writeUser pid address data)
    (machine : Machine) (spot : VirtAddr) : event.stored? machine pid spot = none := by
  cases event with
  | writeUser target address data =>
      unfold stored?
      refine if_neg fun inside => ?_
      obtain ⟨rfl, -⟩ := inside
      exact foreign address data rfl
  | createProcess | fork _ | exit _ | registerPage _ _ _ _ _ | makeResident _ _ | handleFault _ _
  | mapFile _ _ _ _ _ _ | unmapFile _ _ | mmapCall _ _ _ _ _ _ | munmapCall _ _
  | loadSegment _ _ _ | setUpStack _ | readUser _ _ _ | setStackPointer _ _ | access _ _ _
  | changeDisk _ _ | changeFiles _ | changeWorld _ => rfl

/-- Whichever way an event ends, an untouched anonymous page of a process that survives it is as it
was, or the event brought it in. Then the page holds what the event stored in it, and apart from
that what it came in with. -/
theorem same_or_brings (sound : before.Sound) (whole : ∀ pid, before.MappingsWhole pid)
    (registered : before.page? pid place = some page) (untouched : page.isUntouched = true)
    (kind : page.kind = .anonymous) (leaves : (event.perform before).state? = some after)
    (survives : after.spaces[pid]?.isSome = true) :
    after.page? pid place = some page ∨
      ∃ middle brought,
        before.Brings (event.Allows before.nextPid) pid place page middle brought after ∧
        ∀ spot byte, spot.pageDown = place → brought.byte? pid spot = some byte →
          after.byte? pid spot = some ((event.stored? before pid spot).getD byte) := by
  have earlier := lt_nextPid_of_page? sound registered
  have notExit : event ≠ .exit pid := by
    rintro rfl
    rw [space_of_exit sound pid leaves] at survives
    cases survives
  by_cases writes : ∃ address data, event = .writeUser pid address data
  · obtain ⟨address, data, rfl⟩ := writes
    have nothing : before.HoldsRun pid address data 0 := by
      intro spot byte lower upper
      omega
    have ends := ends_writeChunks_shows sound registered untouched
      (Chunk.tile_split address.offset_lt_pageSize data.size) nothing
    rw [Nat.zero_add] at ends
    have shows := ends.leaves (fun _ _ shows => shows) (fun _ _ shows => shows) after leaves
    refine shows.imp_right fun touched => ?_
    obtain ⟨middle, brought, brings, bytes⟩ := touched
    refine ⟨middle, brought, brings, fun spot byte inPage comes => ?_⟩
    cases stored : (writeUser pid address data).stored? before pid spot with
    | none => exact bytes spot byte inPage (outside_of_stored? stored) comes
    | some written =>
        obtain ⟨now, known⟩ := brings.exists_byte? sound kind
          (Move.not_writes_remove place .anonymous) inPage
        rw [known, byte?_of_stored sound leaves stored known]
        rfl
  · have foreign : ∀ address data, event ≠ .writeUser pid address data :=
      fun address data same => writes ⟨address, data, same⟩
    obtain ⟨kept, stays⟩ := not_allows_of_foreign earlier notExit foreign place
    have path := (leads_of_perform sound whole leaves).path
    refine (path.same_or_brings sound registered untouched (by rw [kind]; exact stays)).imp_right
      fun touched => ?_
    obtain ⟨middle, brought, brings⟩ := touched
    refine ⟨middle, brought, brings, fun spot byte inPage comes => ?_⟩
    obtain ⟨frame, step⟩ := brings.step
    rw [stored?_of_foreign foreign]
    subst inPage
    exact brings.later.byte? (step.sound (brings.earlier.sound sound)) comes kept stays

end Event

/-! ## Runs -/

namespace Machine

variable {machine last : Machine} {events : List Event} {pid : Pid} {place spot : VirtAddr}
  {page : Page} {byte : UInt8}

/-- The byte that some events stored at an address of a process last, or else the byte that was
there before. -/
def storedLast (pid : Pid) (spot : VirtAddr) : List Event → Machine → UInt8 → UInt8
  | [], _, byte => byte
  | event :: rest, machine, byte =>
    match (event.perform machine).state? with
    | none => byte
    | some next => storedLast pid spot rest next ((event.stored? machine pid spot).getD byte)

/-- A byte of a process that exists is what was stored there last. -/
theorem Reachable.byte?_eq_storedLast (reachable : machine.Reachable)
    (run : machine.after? events = some last) (known : machine.byte? pid spot = some byte)
    (present : last.spaces[pid]?.isSome = true) :
    last.byte? pid spot = some (storedLast pid spot events machine byte) := by
  induction events generalizing machine byte with
  | nil =>
      cases run
      exact known
  | cons event rest inductionHypothesis =>
      obtain ⟨next, leaves, run⟩ := Option.bind_eq_some_iff.1 run
      have reachableNext := reachable.next event leaves
      have survives := reachable.isSome_of_after? leaves run
        (Event.lt_nextPid_of_byte? reachable.sound known) present
      have kept := Event.byte?_of_perform reachable.sound reachable.mappingsWhole leaves known
        survives
      rw [storedLast, leaves]
      exact inductionHypothesis reachableNext run kept

/-- An untouched anonymous page of a process that exists after a run is as it was, or one event of
the run brought it in. Then every byte of the page is what was stored there last, from that event
on, and apart from that what it came in with. -/
theorem Reachable.same_or_brings (reachable : machine.Reachable)
    (registered : machine.page? pid place = some page) (untouched : page.isUntouched = true)
    (kind : page.kind = .anonymous) (run : machine.after? events = some last)
    (present : last.spaces[pid]?.isSome = true) :
    last.page? pid place = some page ∨
      ∃ past event rest state next middle brought, events = past ++ event :: rest ∧
        machine.after? past = some state ∧ (event.perform state).state? = some next ∧
        state.Brings (event.Allows state.nextPid) pid place page middle brought next ∧
        ∀ spot byte, spot.pageDown = place → brought.byte? pid spot = some byte →
          last.byte? pid spot = some (storedLast pid spot (event :: rest) state byte) := by
  -- The induction is on the events yet to come, up to the one that brings the page in.
  induction events generalizing machine with
  | nil =>
      cases run
      exact .inl registered
  | cons event rest inductionHypothesis =>
      obtain ⟨next, leaves, run⟩ := Option.bind_eq_some_iff.1 run
      have reachableNext := reachable.next event leaves
      have survives := reachable.isSome_of_after? leaves run
        (Event.lt_nextPid_of_page? reachable.sound registered) present
      cases Event.same_or_brings reachable.sound reachable.mappingsWhole registered untouched kind
          leaves survives with
      | inl same =>
          refine (inductionHypothesis reachableNext same run).imp_right fun touched => ?_
          obtain ⟨past, other, later, state, reached, middle, brought, rfl, earlierRun, rest⟩ :=
            touched
          refine ⟨event :: past, other, later, state, reached, middle, brought, rfl, ?_, rest⟩
          rw [after?, leaves]
          exact earlierRun
      | inr touched =>
          obtain ⟨middle, brought, brings, bytes⟩ := touched
          refine .inr ⟨[], event, rest, machine, next, middle, brought, rfl, rfl, leaves, brings,
            ?_⟩
          intro spot byte inPage comes
          rw [storedLast, leaves]
          exact reachableNext.byte?_eq_storedLast run (bytes spot byte inPage comes) present

end Machine

end DemandPaging
