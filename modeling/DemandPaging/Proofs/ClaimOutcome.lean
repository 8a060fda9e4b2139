import DemandPaging.Proofs.Claimable
import DemandPaging.Proofs.CleanFailures
import DemandPaging.Proofs.Eviction
import DemandPaging.Proofs.FilePages
import DemandPaging.Proofs.Grace
import DemandPaging.Proofs.PageStore

/-!
How bringing a page in ends.

Owns:
- `Machine.Leaves`, which pages lost their frames: none, or the one that the clock chose;
- `Machine.ComesIn` and `Machine.StaysAbsent`, the two states in which an attempt to bring a page in
  ends where devices, files and loaders only fail cleanly.

Does not own: the contents of the page (`Backing.incoming`), and how often pages come in
(`Claims`).

Main statement: `claim_outcome`.
-/

namespace DemandPaging

namespace Machine

variable {before settled held after machine : Machine} {pid : Pid} {address : VirtAddr}
  {page : Page} {frame : PhysAddr} {error : Errno} {bound : Nat}

/-! ## Who leaves memory -/

/-- Apart from the page at an address, all pages are in the frames in which they were, except one
that may have left. It was in the frame that the clock chose, and no frame was free. -/
structure Leaves (before : Machine) (pid : Pid) (address : VirtAddr) (after : Machine)
    (gone : Option FrameOwner) : Prop where
  needed : ∀ owner, gone = some owner → before.freeFrames = 0 ∧
    ∃ victim, before.victim? = some victim ∧ before.frame? owner.pid owner.address = some victim
  others : ∀ other place, ¬(other = pid ∧ place = address) →
    after.frame? other place =
      if gone = some ⟨other, place⟩ then none else before.frame? other place

/-- A frame in hand belonged to no page, or to the one that the clock chose. -/
structure Holding.Origin (before : Machine) (frame : PhysAddr) (settled : Machine)
    (gone : Option FrameOwner) : Prop where
  owner : before.resident.owner? frame = gone
  chosen : ∀ owner, gone = some owner → before.freeFrames = 0 ∧ before.victim? = some frame
  owners : ∀ other, settled.resident.owner? other =
    if frame = other then none else before.resident.owner? other
  queue : settled.resident.queue = before.resident.queue.filter fun queued => queued ≠ frame

theorem Holding.exists_origin (holding : before.Holding frame settled held)
    (sound : before.Sound) : ∃ gone, Holding.Origin before frame settled gone := by
  cases holding with
  | loaned acquired same =>
      have inHand := sound.frames.resident.taken acquired
      refine ⟨none, inHand.vacant, nofun, fun other => ?_, ?_⟩
      · rw [same]
        split
        case isTrue here => rw [← here, inHand.vacant]
        case isFalse => rfl
      · rw [same, List.filter_eq_self.2]
        intro queued listed
        exact decide_eq_true fun here => inHand.unqueued (here ▸ listed)
  | @evicted asked owner exhausted chosen step acquired =>
      have soundAsked := chosen.path.sound sound
      have vacated := vacated_of_pageOut soundAsked.frames step
      refine ⟨some owner, chosen.owns, fun _ _ => ⟨?_, chosen.victim?_eq sound⟩, ?_, ?_⟩
      · exact sound.frames.resident.freeCount_of_exhausted exhausted
      · rw [← chosen.resident_eq]
        exact vacated.owners
      · rw [← chosen.resident_eq]
        exact vacated.queue

/-- Where a frame passes from its owner to a page or to nobody, at most its owner leaves. -/
theorem Holding.Origin.leaves {gone : Option FrameOwner} {next : Option FrameOwner}
    (origin : Holding.Origin before frame settled gone) (sound : before.Sound)
    (soundAfter : after.Sound) (passed : next = none ∨ next = some ⟨pid, address⟩)
    (owners : ∀ other, after.resident.owner? other =
      if frame = other then next else before.resident.owner? other) :
    before.Leaves pid address after gone := by
  refine ⟨fun owner left => ?_, fun other place elsewhere => ?_⟩
  · obtain ⟨noFrame, victim⟩ := origin.chosen owner left
    exact ⟨noFrame, frame, victim,
      (sound.frames.owner_iff _ _ _).1 (origin.owner.trans left)⟩
  · apply Option.ext
    intro held
    rw [← soundAfter.frames.owner_iff, owners]
    have notNext : next ≠ some ⟨other, place⟩ := by
      rcases passed with rfl | rfl
      · nofun
      · intro same
        cases same
        exact elsewhere ⟨rfl, rfl⟩
    split
    case isTrue here =>
      subst here
      split
      case isTrue => simp [notNext]
      case isFalse stays =>
        rw [← sound.frames.owner_iff, origin.owner]
        simp [notNext, stays]
    case isFalse different =>
      split
      case isTrue left =>
        have atVictim := (sound.frames.owner_iff _ _ _).1 (origin.owner.trans left)
        rw [sound.frames.owner_iff, atVictim]
        simp [different]
      case isFalse => rw [sound.frames.owner_iff]

/-! ## Taking a frame -/

/-- Why no frame could be taken. -/
inductive Frameless (before : Machine) (error : Errno) (after : Machine) : Prop where
  /-- The machine has no frame at all. -/
  | noFrames (capacity : before.resident.pool.capacity = 0) (noMemory : error = .noMemory)
      (room : Path Move.MakesRoom before after)
  /-- Every frame is occupied, and the page that the clock chose could not be saved. -/
  | kept {victim : PhysAddr} {owner : FrameOwner} {page : Page} {bytes : PageData}
      (exhausted : before.freeFrames = 0) (chooses : before.Chooses victim owner page bytes)
      (fails : before.EvictionFails victim after)
      (cause : error = .ioError ∨ error = .noSpace ∧ page.kind = .anonymous ∧
        before.store.swap.slots.lowestFree? = none)

theorem Served.ends_takeFrame (served : before.Served) (sound : before.Sound)
    (whole : ∀ pid, before.MappingsWhole pid) (fits : before.store.swap.Fits bound) :
    (takeFrame before).Ends (fun _ _ => True) (fun error after => before.Frameless error after)
      (fun _ => False) := by
  simp only [takeFrame, Action.ends_bind, Action.ends_get]
  cases acquired : before.resident.acquire with
  | some loan => trivial
  | none =>
      have exhausted : before.freeFrames = 0 :=
        sound.frames.resident.freeCount_of_exhausted acquired
      rcases Nat.eq_zero_or_pos before.residentPages with empty | resident
      · have counted := sound.frames.freeFrames_add_residentPages
        have noPage : before.resident.queue = [] := by
          have size := sound.frames.perm_queue.length_eq
          rw [Std.ExtTreeMap.length_keys] at size
          exact List.length_eq_zero_iff.1 (size.trans empty)
        have unchosen {victim : PhysAddr × FrameOwner} {asked : Machine}
            (chosen : before.Chosen victim asked) : False := by
          have queued := chosen.queued
          rw [noPage] at queued
          cases queued
        refine (ends_evict_saving sound).imp ?_ ?_ ?_
        · exact fun _ _ _ => trivial
        · rintro error after (⟨noMemory, -, room⟩ | ⟨_, _, _, _, _, _, chosen, -⟩)
          · exact .noFrames (by omega) noMemory room
          · exact (unchosen chosen).elim
        · rintro fault ⟨-, _, _, _, _, _, _, chosen, -⟩
          exact unchosen chosen
      · obtain ⟨victim, owner, page, bytes, chooses⟩ := sound.exists_chooses resident
        have touched : page.isUntouched = false := by
          rw [← Bool.not_eq_true]
          intro untouched
          have absent := (sound.slots.placed _ _ _ chooses.registered).frame_eq_none untouched
          rw [chooses.held] at absent
          cases absent
        have saves := (served.page chooses.registered).ends_save fits touched
          fun region ofFile => (whole owner.pid).readBytes_le (by
            rw [region?, chooses.registered]
            exact ofFile)
        refine (sound.ends_evict_cases chooses).imp (fun _ _ _ => trivial) ?_ ?_
        · rintro error after ⟨fails, refused⟩
          have cause := saves bytes (before.isDirty owner.pid owner.address)
          rw [refused] at cause
          exact .kept exhausted chooses fails cause
        · rintro fault ⟨-, stopped⟩
          have impossible := saves bytes (before.isDirty owner.pid owner.address)
          rw [stopped] at impossible
          exact impossible

theorem Sound.frame?_of_noFrames (sound : machine.Sound)
    (capacity : machine.resident.pool.capacity = 0) (pid : Pid) (address : VirtAddr) :
    machine.frame? pid address = none := by
  rw [Option.eq_none_iff_forall_ne_some]
  intro frame held
  have owns := (sound.frames.owner_iff _ _ _).2 held
  have queued := (sound.frames.resident.queued frame).2 (by rw [owns]; rfl)
  have counted := sound.frames.freeFrames_add_residentPages
  have size := sound.frames.perm_queue.length_eq
  rw [Std.ExtTreeMap.length_keys] at size
  have resident : machine.residentPages = machine.resident.queue.length := size.symm
  have nonempty := List.length_pos_of_mem queued
  omega

/-- Without a frame, no page leaves memory. -/
theorem Frameless.leaves (frameless : before.Frameless error after) (sound : before.Sound)
    (soundAfter : after.Sound) : before.Leaves pid address after none := by
  refine ⟨nofun, fun other place _ => ?_⟩
  rw [if_neg (by nofun)]
  cases frameless with
  | kept _ _ fails => rw [frame?, fails.pages, frame?]
  | noFrames capacity _ room =>
      rw [sound.frame?_of_noFrames capacity, soundAfter.frame?_of_noFrames]
      rw [capacity_of_path room sound, capacity]

/-! ## The two ends -/

/-- What holds whichever way an attempt to bring a page in ends: no frame and no slot is lost, and
at most one other page left memory. -/
structure Settles (before : Machine) (pid : Pid) (address : VirtAddr) (after : Machine) :
    Prop where
  leaves : ∃ gone, before.Leaves pid address after gone
  frames : after.freeFrames + after.residentPages = before.resident.pool.capacity
  slots : after.usedSwapSlots = after.swappedOut.length

/-- A page came in. It is mapped with clear marks, and its frame is the last of the queue. -/
structure ComesIn (before : Machine) (pid : Pid) (address : VirtAddr) (page : Page)
    (after : Machine) : Prop extends before.Settles pid address after where
  capacity : before.resident.pool.capacity ≠ 0
  resident : ∃ frame, after.frame? pid address = some frame ∧
    after.view? pid address = some ⟨some frame, page.writable, false, false⟩ ∧
    after.resident.queue =
      (before.resident.queue.filter fun queued => queued ≠ frame) ++ [frame]

/-- A page stays out of memory as it was, and can be brought in as soon as there is a frame for it
and its contents can be made. -/
structure StaysAbsent (before : Machine) (pid : Pid) (address : VirtAddr) (page : Page)
    (error : Errno) (after : Machine) : Prop extends before.Settles pid address after where
  same : after.page? pid address = some page
  unmapped : after.view? pid address = none
  image : ∀ slot, page.slot? = some slot →
    after.store.swap.image slot = before.store.swap.image slot
  again : (∃ last, makeResident pid address after = .done () last) ↔ after.Claimable page
  cause : error = .noMemory ∨ error = .noSpace ∨ error = .ioError
  noMemory : error = .noMemory ↔ before.resident.pool.capacity = 0
  noSpace : error = .noSpace → before.freeFrames = 0 ∧
    (∃ victim owner other bytes, before.Chooses victim owner other bytes ∧
      other.kind = .anonymous) ∧
    ∀ slot < before.store.swap.slotCount, before.store.swap.isOccupied slot = true

theorem Sound.settles {allowed : Move → Prop} {gone : Option FrameOwner} (sound : before.Sound)
    (path : Path allowed before after) (leaves : before.Leaves pid address after gone) :
    before.Settles pid address after := by
  have soundAfter := path.sound sound
  refine ⟨⟨gone, leaves⟩, ?_, soundAfter.slots.usedSwapSlots_eq⟩
  rw [soundAfter.frames.freeFrames_add_residentPages, capacity_of_path path sound]

theorem Holding.capacity_ne_zero (holding : before.Holding frame settled held)
    (sound : before.Sound) : before.resident.pool.capacity ≠ 0 := by
  intro capacity
  cases holding with
  | loaned acquired =>
      have counted := sound.frames.freeFrames_add_residentPages
      have taken := sound.frames.resident.freeCount_of_acquire acquired
      have free : before.freeFrames = before.resident.pool.freeCount := rfl
      omega
  | evicted _ chosen =>
      have atOwner := (sound.frames.owner_iff _ _ _).1 chosen.owns
      rw [sound.frame?_of_noFrames capacity] at atOwner
      cases atOwner

theorem BroughtIn.comesIn (broughtIn : before.BroughtIn pid address after) (sound : before.Sound)
    (registered : before.page? pid address = some page) (absent : page.frame = none) :
    before.ComesIn pid address page after := by
  have path := broughtIn.path
  obtain ⟨frame, kind, first, settled, held, holding, step, atFrame⟩ := broughtIn
  have soundSettled := holding.path.sound sound
  obtain ⟨gone, origin⟩ := holding.exists_origin sound
  have occupied := occupied_of_pageIn soundSettled.frames step
  obtain ⟨known, -⟩ := holding.path.page?_of_makesRoom sound registered absent
  obtain ⟨found, atPage, views⟩ := step.view?_of_pageIn soundSettled.frames
  obtain rfl := Option.some.inj (known.symm.trans atPage)
  have leaves := origin.leaves sound (step.sound soundSettled) (.inr rfl) fun other => by
    rw [occupied.owners, origin.owners]
    split <;> rfl
  refine ⟨sound.settles path leaves, holding.capacity_ne_zero sound, frame, atFrame, ?_, ?_⟩
  · rw [views, if_pos ⟨rfl, rfl⟩]
  · rw [occupied.queue, origin.queue]

/-- A page whose frame went back left at most one other page without a frame. -/
theorem GaveBack.leaves {gone : Option FrameOwner} (gaveBack : settled.GaveBack frame after)
    (origin : Holding.Origin before frame settled gone) (sound : before.Sound)
    (soundAfter : after.Sound) : before.Leaves pid address after gone := by
  refine origin.leaves sound soundAfter (.inl rfl) fun other => ?_
  rw [← origin.owners]
  cases gaveBack with
  | unused same => rw [same]
  | spoiled _ written result =>
      rw [result]
      exact ResidentSet.owner?_of_write written other

/-! ## An attempt -/

/-- The layout of the swap area is the same all along a path. -/
theorem fits_of_path {allowed : Move → Prop} (path : Path allowed before after)
    (sound : before.Sound) (fits : before.store.swap.Fits bound) : after.store.swap.Fits bound := by
  refine path.keeps_of_sound (fun state => state.store.swap.Fits bound) sound fits ?_
  intro move middle next _ step soundMiddle fitsMiddle
  have keeps := step.keepsImages soundMiddle
  exact fitsMiddle.congr keeps.firstSector keeps.slotCount

/-- With a frame in hand, the contents of a page can be made, or what they are made of fails. -/
theorem Served.ends_fill (served : before.Served) (sound : before.Sound)
    (whole : ∀ pid, before.MappingsWhole pid) (fits : before.store.swap.Fits bound)
    (registered : before.page? pid address = some page) (absent : page.frame = none)
    (holding : before.Holding frame settled held) :
    (page.fill held.store).Ends (fun _ _ => True) (fun error _ => error = .ioError)
      (fun _ => False) := by
  have soundSettled := holding.path.sound sound
  obtain ⟨known, -⟩ := holding.path.page?_of_makesRoom sound registered absent
  have available := holding.path.served sound whole served registered
  rw [Page.fill, holding.inHand]
  exact available.ends_bringIn (fits_of_path holding.path sound fits)
    (soundSettled.slots.placed _ _ _ known) absent
    fun slot recorded => soundSettled.slots.isOccupied_of_recorded known recorded

/-- What a page that stays out of memory shows, whatever the reason. -/
theorem StaysOut.staysAbsent (staysOut : before.StaysOut pid address.pageDown error after)
    (sound : before.Sound) (userAfter : after.UserPages)
    (registered : before.page? pid address.pageDown = some page) (absent : page.frame = none)
    (leaves : ∃ gone, before.Leaves pid address.pageDown after gone)
    (cause : error = .noMemory ∨ error = .noSpace ∨ error = .ioError)
    (noMemory : error = .noMemory ↔ before.resident.pool.capacity = 0)
    (noSpace : error = .noSpace → before.freeFrames = 0 ∧
      (∃ victim owner other bytes, before.Chooses victim owner other bytes ∧
        other.kind = .anonymous) ∧
      ∀ slot < before.store.swap.slotCount, before.store.swap.isOccupied slot = true) :
    before.StaysAbsent pid address.pageDown page error after := by
  obtain ⟨gone, leaves⟩ := leaves
  have path := staysOut.path sound
  have soundAfter := path.sound sound
  obtain ⟨same, image⟩ := path.page?_of_makesRoom sound registered absent
  have noFrame : after.frame? pid address.pageDown = none := by
    rw [frame?, same]
    exact absent
  exact {
    toSettles := sound.settles path leaves
    same, image, cause, noMemory, noSpace
    unmapped := soundAfter.frames.view?_of_absent noFrame
    again := soundAfter.exists_makeResident_iff userAfter
      (by rwa [Address.pageDown_pageDown]) absent }

/-- An attempt to bring a page in. -/
theorem Served.ends_makeResident (served : before.Served) (sound : before.Sound)
    (user : before.UserPages) (whole : ∀ pid, before.MappingsWhole pid)
    (fits : before.store.swap.Fits bound)
    (registered : before.page? pid address.pageDown = some page) (absent : page.frame = none) :
    (makeResident pid address before).Ends
      (fun _ after => before.ComesIn pid address.pageDown page after)
      (fun error after => before.StaysAbsent pid address.pageDown page error after)
      (fun _ => False) := by
  have takes := served.ends_takeFrame sound whole fits
  refine (((ends_makeResident_staying sound pid address).and
    (sound.ends_makeResident_fill user registered absent)).and
      ((keepsUserPages_makeResident pid address).ends before sound user)).imp ?_ ?_ ?_
  · rintro - after ⟨⟨⟨-, resident⟩ | ⟨-, broughtIn⟩, -⟩, -⟩
    · rw [frame?, registered, Option.bind_some, absent] at resident
      cases resident
    · exact broughtIn.comesIn sound registered absent
  · rintro error after ⟨⟨staysOut, fill⟩, userAfter⟩
    have soundAfter := (staysOut.path sound).sound sound
    have stays := staysOut.staysAbsent sound userAfter registered absent
    cases staysOut with
    | missing unregistered =>
        rw [registered] at unregistered
        cases unregistered
    | frameless failed =>
        rw [failed, Outcome.ends_failed] at takes
        have leaves : ∃ gone, before.Leaves pid address.pageDown after gone :=
          ⟨none, takes.leaves sound soundAfter⟩
        cases takes with
        | noFrames capacity noMemory =>
            exact stays leaves (.inl noMemory) (by simp [noMemory, capacity]) (by simp [noMemory])
        | kept exhausted chooses fails cause =>
            have capacity : before.resident.pool.capacity ≠ 0 := by
              intro capacity
              have atOwner := (sound.frames.owner_iff _ _ _).1 chooses.owns
              rw [sound.frame?_of_noFrames capacity] at atOwner
              cases atOwner
            rcases cause with ioError | ⟨noSpace, anonymous, full⟩
            · exact stays leaves (.inr (.inr ioError)) (by simp [ioError, capacity])
                (by simp [ioError])
            · exact stays leaves (.inr (.inl noSpace)) (by simp [noSpace, capacity]) fun _ =>
                ⟨exhausted, ⟨_, _, _, _, chooses, anonymous⟩, SlotMap.isTaken_of_full full⟩
    | emptied took holding gaveBack =>
        obtain ⟨gone, origin⟩ := holding.exists_origin sound
        have ioError : error = .ioError := by
          rcases fill with failed | ⟨_, _, tookToo, fails⟩
          · rw [took] at failed
            cases failed
          · rw [took] at tookToo
            cases tookToo
            obtain ⟨transfer, failed⟩ := fails.failed
            have ends := served.ends_fill sound whole fits registered absent holding
            rwa [failed, Outcome.ends_failed] at ends
        have capacity := holding.capacity_ne_zero sound
        exact stays ⟨gone, gaveBack.leaves origin sound soundAfter⟩ (.inr (.inr ioError))
          (by simp [ioError, capacity]) (by simp [ioError])
  · rintro fault ⟨⟨-, stopped | ⟨frame, held, took, stopped⟩⟩, -⟩
    · rwa [stopped, Outcome.ends_halted] at takes
    · have holds := Machine.ends_takeFrame sound
      rw [took, Outcome.ends_done] at holds
      obtain ⟨settled, holding⟩ := holds
      have ends := served.ends_fill sound whole fits registered absent holding
      rwa [stopped, Outcome.ends_halted] at ends

/-- How bringing a page in ends that is registered and not in memory, in any state that a run leads
to, where devices, files and loaders fail with I/O errors only and no transfer of a file is short.
Either the page comes in, with clear marks and its frame at the end of the queue, or it stays as it
was and where it was. At most one other page leaves memory, and no frame and no slot is lost. There
is no memory if and only if there are no frames, and there is no space only if no frame was free,
the page that the clock chose is an anonymous one and every slot is taken. -/
theorem claim_outcome {settings : Settings} {frames : Nat} {disk : Disk} {files : FileStore}
    {past : List Event}
    (run : (create settings (FramePool.create frames) disk files).after? past = some machine)
    (word : disk.sectorCount < Word.limit) (served : machine.Served)
    (registered : machine.page? pid address.pageDown = some page) (absent : page.frame = none) :
    (makeResident pid address machine).Ends
      (fun _ after => machine.ComesIn pid address.pageDown page after)
      (fun error after => machine.StaysAbsent pid address.pageDown page error after)
      (fun _ => False) := by
  have start : (create settings (FramePool.create frames) disk files).Reachable := .start ..
  obtain ⟨reachable, fits⟩ := start.keeps (fun state => state.store.swap.Fits disk.sectorCount) run
    (SwapArea.fits_create word) fun event _ before after reached leaves fits => by
      have leads := Event.leads_of_perform reached.sound reached.mappingsWhole leaves
      exact fits_of_path leads.path reached.sound fits
  exact served.ends_makeResident reachable.sound reachable.userPages reachable.mappingsWhole fits
    registered absent

/-- Three pages of a process are written in turn. The last one is in the only frame, and the others
take both slots. -/
def cramming : List Event :=
  crowding ++ [.registerPage ⟨1⟩ thirdPage true .normal none, .writeUser ⟨1⟩ thirdPage #[6]]

/-- The first page cannot be brought in, because there is no slot for the last one. -/
theorem claim_outcome_cramming :
    ∃ machine page after, tiny.after? cramming = some machine ∧
      machine.page? ⟨1⟩ firstPage = some page ∧ page.frame = none ∧
      makeResident ⟨1⟩ firstPage machine = .failed .noSpace after ∧
      machine.StaysAbsent ⟨1⟩ firstPage page .noSpace after := by
  have fails : ((tiny.after? cramming).bind fun machine =>
      (makeResident ⟨1⟩ firstPage machine).error?) = some .noSpace := by decide +kernel
  have available : ((tiny.after? cramming).all fun machine => decide machine.Served) = true := by
    decide +kernel
  have missing : ((tiny.after? cramming).bind fun machine =>
      (machine.page? ⟨1⟩ firstPage).map Page.frame) = some none := by decide +kernel
  have atStart : firstPage.pageDown = firstPage := by decide
  obtain ⟨machine, run, fails⟩ := Option.bind_eq_some_iff.1 fails
  obtain ⟨after, failed⟩ := Outcome.exists_of_error? fails
  rw [run, Option.all_some, decide_eq_true_iff] at available
  rw [run, Option.bind_some, Option.map_eq_some_iff] at missing
  obtain ⟨page, registered, absent⟩ := missing
  rw [← atStart] at registered
  have ends := claim_outcome run (by decide) available registered absent
  rw [failed, Outcome.ends_failed, atStart] at ends
  exact ⟨machine, page, after, run, atStart ▸ registered, absent, failed, ends⟩

end Machine

end DemandPaging
