import DemandPaging.Proofs.Clock
import DemandPaging.Proofs.Takes

/-!
The steps by which pages move in and out of memory.

Owns: for every operation on one page, the steps it takes from a state whose records agree, the
state it leaves when it fails, and that corruption never stops it.

Does not own: which page the clock chooses.

Main statements: `ends_takeFrame`, whoever takes a frame holds one that the pool had or that its
page just left, `ends_evict_saving`, `ends_makeResident_staying` and `ends_destroyPage`.
-/

namespace DemandPaging

namespace Machine

variable {before asked settled : Machine} {pid : Pid} {space : AddressSpace} {page : Page}
  {frame : PhysAddr} {address : VirtAddr}

/-! ## Choosing a victim -/

/-- The clock chose a victim after it had asked for accessed marks. -/
structure Chosen (before : Machine) (victim : PhysAddr × FrameOwner) (asked : Machine) : Prop where
  selected : before.resident.selectVictim testAndClearAccessed before.spaces = .ok (some victim,
    { before.resident with queue := before.resident.queue.erase victim.1 }, asked.spaces)
  asks : ResidentSet.Asked testAndClearAccessed before.spaces asked.spaces
  same : asked = { before with spaces := asked.spaces }
  queued : victim.1 ∈ before.resident.queue
  owns : before.resident.owner? victim.1 = some victim.2

theorem path_of_asked {spaces : Std.ExtTreeMap Pid AddressSpace}
    (asked : ResidentSet.Asked testAndClearAccessed before.spaces spaces) :
    Path Move.MakesRoom before { before with spaces } := by
  induction asked with
  | refl => exact .refl before
  | tail _ answered inductionHypothesis =>
      obtain ⟨owner, rfl⟩ := answered
      exact inductionHypothesis.snoc (.upkeep (.ask owner)) trivial

theorem Chosen.path {victim : PhysAddr × FrameOwner} (chosen : before.Chosen victim asked) :
    Path Move.MakesRoom before asked := by
  rw [chosen.same]
  exact path_of_asked chosen.asks

theorem ends_chooseVictim (sound : before.Sound) :
    (chooseVictim before).Ends
      (fun victim after => ∃ asked, before.Chosen victim asked ∧
        after = { asked with
          resident := { asked.resident with queue := asked.resident.queue.erase victim.1 } })
      (fun error after => error = .noMemory ∧ before.resident.queue = [] ∧
        Path Move.MakesRoom before after)
      (fun _ => False) := by
  have owned : ∀ frame ∈ before.resident.queue,
      (before.resident.owner? frame).isSome = true := by
    intro frame queued
    exact (sound.frames.resident.queued frame).1 queued
  obtain ⟨spaces, asks, choice⟩ :=
    ResidentSet.exists_selectVictim_eq_ok testAndClearAccessed owned before.spaces
  simp only [chooseVictim, Action.ends_bind, Action.ends_get, Action.ends_orHalt]
  rcases choice with ⟨empty, selected⟩ | ⟨frame, owner, queued, owns, selected⟩
  · refine Action.of_result_eq_ok selected ?_
    exact ⟨rfl, empty, path_of_asked asks⟩
  · refine Action.of_result_eq_ok selected ?_
    exact ⟨{ before with spaces }, ⟨selected, asks, rfl, queued, owns⟩, rfl⟩

/-! ## Taking a frame -/

/-- A frame is in hand. Had it been given back, the records would agree, and the pool would loan it
next. -/
inductive Holding (before : Machine) (frame : PhysAddr) (settled after : Machine) : Prop where
  /-- The pool had a free frame. -/
  | loaned (acquired : before.resident.acquire = some (frame, after.resident))
      (same : settled = before) (inHand : after = { settled with resident := after.resident })
  /-- A page was saved and left its frame. -/
  | evicted {asked : Machine} {owner : FrameOwner}
      (exhausted : before.resident.acquire = none)
      (chosen : before.Chosen (frame, owner) asked)
      (step : Step (.pageOut frame) asked settled)
      (acquired : settled.resident.acquire = some (frame, after.resident))
      (inHand : after = { settled with resident := after.resident })

theorem Holding.path {after : Machine} (holding : before.Holding frame settled after) :
    Path Move.MakesRoom before settled := by
  cases holding with
  | loaned _ same _ =>
      rw [same]
      exact .refl before
  | evicted _ chosen step => exact chosen.path.snoc step trivial

theorem Holding.acquired {after : Machine} (holding : before.Holding frame settled after) :
    settled.resident.acquire = some (frame, after.resident) := by
  cases holding with
  | loaned acquired same _ =>
      rw [same]
      exact acquired
  | evicted _ _ _ acquired _ => exact acquired

theorem Holding.inHand {after : Machine} (holding : before.Holding frame settled after) :
    after = { settled with resident := after.resident } := by
  cases holding with
  | loaned _ _ inHand => exact inHand
  | evicted _ _ _ _ inHand => exact inHand

/-- A page that is in memory was touched. Saving it fails without a trace, except in the swap
area. -/
theorem ends_save (sound : settled.Sound) (registered : settled.page? pid address = some page)
    (held : page.frame = some frame) (bytes : PageData) (dirty : Bool) :
    (page.backing.save page.address bytes dirty settled.store).Ends (fun _ _ => True)
      (fun _ after => Path Move.MakesRoom settled { settled with store := after })
      (fun fault => fault.isCorruption = false) := by
  have placed := sound.slots.placed pid address page registered
  match backed : page.backing with
  | .untouched _ =>
      rw [Page.Placed, backed, held] at placed
      cases placed
  | .anonymous image? =>
      refine Backing.ends_save_anonymous.imp (fun _ _ _ => trivial) ?_ (fun _ stopped => stopped)
      intro error after failed
      obtain ⟨swap, refused, rfl⟩ := failed
      exact Path.single (.upkeep (.strain refused)) trivial
  | .file region =>
      refine Backing.ends_save_file.imp (fun _ _ _ => trivial) ?_ (fun _ stopped => stopped)
      intro error after same
      rw [same]
      exact .refl settled

/-- A page was saved and lost its frame and its translation. The frame stays on loan. -/
structure PagedOut (before : Machine) (pid : Pid) (space : AddressSpace) (page : Page)
    (frame : PhysAddr) (bytes : PageData) (backing : Backing) (table : PageTable)
    (after : Machine) : Prop where
  read : before.resident.read frame = .ok bytes
  saved : page.backing.save page.address bytes (space.table.isDirty page.address) before.store =
    .done backing after.store
  unmapped : space.table.unmap page.address = (.ok frame, table)
  result : after = { before with
    store := after.store
    spaces := before.spaces.insert pid { space with
      table, pages := space.pages.put { page with backing, frame := none } } }

/-- A page could not be saved, and nothing changed but what saving it did. -/
structure PageOutFails (before : Machine) (space : AddressSpace) (page : Page) (frame : PhysAddr)
    (error : Errno) (after : Machine) : Prop where
  refused : ∃ bytes, before.resident.read frame = .ok bytes ∧
    page.backing.save page.address bytes (space.table.isDirty page.address) before.store =
      .failed error after.store
  result : after = { before with store := after.store }

/-- Saving a page succeeds and takes its frame away, or it leaves the page where it was. The queue
does not matter. -/
theorem ends_pageOut_saving (sound : settled.Sound) (found : settled.spaces[pid]? = some space)
    (registered : space.pages.at? page.address = some page) (held : page.frame = some frame)
    (queue : List PhysAddr) :
    (pageOut pid space page
        { settled with resident := { settled.resident with queue } }).Ends
      (fun answer after => answer = frame ∧ ∃ bytes backing table,
        PagedOut { settled with resident := { settled.resident with queue } } pid space page frame
          bytes backing table after)
      (fun error after =>
        PageOutFails { settled with resident := { settled.resident with queue } } space page frame
          error after)
      (fun fault => fault.isCorruption = false ∧ ∃ bytes,
        settled.resident.read frame = .ok bytes ∧
        page.backing.save page.address bytes (space.table.isDirty page.address) settled.store =
          .halted fault) := by
  have known := (page?_of_space found page.address).trans registered
  have owner := sound.frames.owner?_of_held known held
  have inPool := sound.frames.resident.contents?_isSome owner
  obtain ⟨bytes, contents⟩ := Option.isSome_iff_exists.1 inPool
  have read : settled.resident.read frame = .ok bytes := ResidentSet.read_eq_ok_iff.2 contents
  have readHere : ResidentSet.read { settled.resident with queue } frame = .ok bytes := read
  obtain ⟨table, unmapped, -⟩ :=
    (sound.frames.spaces pid space found).1.exists_unmap_eq registered held
  simp only [pageOut, held, Action.ends_bind, Action.ends_get, Action.ends_orHalt]
  refine Action.of_result_eq_ok readHere ?_
  simp only [onStore, Action.ends_onPart]
  refine ((ends_save sound known held bytes
    (space.table.isDirty page.address)).and Outcome.ends_self).imp ?_ ?_ ?_
  · intro backing store saved
    rw [unmapped]
    simp only [setSpace, Action.ends_bind, Action.ends_modify, Action.ends_pure]
    exact ⟨trivial, bytes, backing, table, readHere, saved.2, unmapped, rfl⟩
  · intro error store failed
    exact ⟨⟨bytes, readHere, failed.2⟩, rfl⟩
  · intro fault stopped
    exact ⟨stopped.1, bytes, read, stopped.2⟩

/-- A page that was saved took a step out of memory, once its frame is given back. -/
theorem PagedOut.step {queue : List PhysAddr} {bytes : PageData} {backing : Backing}
    {table : PageTable} {after : Machine} {released : ResidentSet}
    (out : PagedOut { settled with resident := { settled.resident with queue } } pid space page
      frame bytes backing table after)
    (found : settled.spaces[pid]? = some space)
    (registered : space.pages.at? page.address = some page) (held : page.frame = some frame)
    (wasReleased : settled.resident.release frame = .ok released) :
    Step (.pageOut frame) settled { after with resident := released } := by
  have step := Step.pageOut found registered held out.read out.saved out.unmapped wasReleased
  rw [out.result]
  exact step

/-- What saving a page did that failed is a step of upkeep. -/
theorem PageOutFails.path {error : Errno} {queue : List PhysAddr} {after : Machine}
    (fails : PageOutFails { settled with resident := { settled.resident with queue } } space page
      frame error after)
    (sound : settled.Sound) (registered : settled.page? pid address = some page)
    (held : page.frame = some frame) :
    Path Move.MakesRoom settled { settled with store := after.store } := by
  obtain ⟨bytes, -, refused⟩ := fails.refused
  have ends := ends_save sound registered held bytes (space.table.isDirty page.address)
  rw [refused] at ends
  exact ends

/-- The clock chose a page, and its owner knows that the page is in the frame. -/
structure Victim (asked : Machine) (frame : PhysAddr) (owner : FrameOwner) (space : AddressSpace)
    (page : Page) : Prop where
  found : asked.spaces[owner.pid]? = some space
  registered : space.pages.at? page.address = some page
  address : page.address = owner.address
  held : page.frame = some frame

theorem Victim.page? {owner : FrameOwner} (victim : asked.Victim frame owner space page) :
    asked.page? owner.pid owner.address = some page := by
  rw [page?_of_space victim.found, ← victim.address]
  exact victim.registered

theorem Chosen.exists_victim {owner : FrameOwner} (chosen : before.Chosen (frame, owner) asked)
    (sound : before.Sound) : ∃ space page, asked.Victim frame owner space page := by
  have soundAsked := chosen.path.sound sound
  have owns : asked.resident.owner? frame = some owner := by
    rw [chosen.same]
    exact chosen.owns
  have atOwner := (soundAsked.frames.owner_iff frame owner.pid owner.address).1 owns
  obtain ⟨page, registered, held⟩ := Option.bind_eq_some_iff.1 atOwner
  obtain ⟨space, found, atAddress⟩ := space_of_page? registered
  have sameAddress := (soundAsked.frames.located registered).1
  exact ⟨space, page, found, by rw [sameAddress, atAddress], sameAddress, held⟩

/-- The machine without a frame in its queue. -/
def withdraw (machine : Machine) (frame : PhysAddr) : Machine :=
  { machine with
    resident := { machine.resident with queue := machine.resident.queue.erase frame } }

/-- Evicting a page takes its frame away, which stays on loan, or puts the frame at the end of the
queue. Without a page in memory there is nothing to evict. -/
theorem ends_evict_saving (sound : before.Sound) :
    (evict before).Ends
      (fun frame after => ∃ asked owner space page bytes backing table out,
        before.Chosen (frame, owner) asked ∧ asked.Victim frame owner space page ∧
        (asked.withdraw frame).PagedOut owner.pid space page frame bytes backing table out ∧
        after = { out with resident := out.resident.unlink frame })
      (fun error after =>
        error = .noMemory ∧ before.resident.queue = [] ∧ Path Move.MakesRoom before after ∨
        ∃ asked frame owner space page out,
          before.Chosen (frame, owner) asked ∧ asked.Victim frame owner space page ∧
          (asked.withdraw frame).PageOutFails space page frame error out ∧
          after = { out with resident := out.resident.requeue frame })
      (fun fault => fault.isCorruption = false ∧ ∃ asked frame owner space page bytes,
        before.Chosen (frame, owner) asked ∧ asked.Victim frame owner space page ∧
        asked.resident.read frame = .ok bytes ∧
        page.backing.save page.address bytes (space.table.isDirty page.address) asked.store =
          .halted fault) := by
  simp only [evict, Action.ends_bind]
  refine (ends_chooseVictim sound).imp ?_ (fun _ _ failed => .inl failed)
    (fun _ impossible => impossible.elim)
  rintro ⟨frame, owner⟩ after ⟨asked, chosen, rfl⟩
  have soundAsked := chosen.path.sound sound
  obtain ⟨space, page, victim⟩ := chosen.exists_victim sound
  have aligned := (soundAsked.frames.located victim.page?).2
  have lookup : space.pages.find? owner.address = some page := by
    rw [PageRegistry.find?_eq_at?, Address.pageDown_eq_self_iff.2 aligned, ← victim.address]
    exact victim.registered
  simp only [Action.ends_get, victim.found, lookup, Action.ends_bind, Action.ends_attempt]
  refine (ends_pageOut_saving soundAsked victim.found victim.registered victim.held _).imp ?_ ?_ ?_
  · rintro answer out ⟨rfl, bytes, backing, table, saved⟩
    simp only [if_true, Action.ends_bind, Action.ends_modify, Action.ends_pure]
    exact ⟨asked, owner, space, page, bytes, backing, table, out, chosen, victim, saved, rfl⟩
  · intro error out fails
    simp only [Action.ends_modify, Action.ends_fail]
    exact .inr ⟨asked, frame, owner, space, page, out, chosen, victim, fails, rfl⟩
  · rintro fault ⟨notCorruption, bytes, read, stopped⟩
    exact ⟨notCorruption, asked, frame, owner, space, page, bytes, chosen, victim, read, stopped⟩

/-- Evicting a page leaves its frame in hand. If the page cannot be saved, it keeps its frame. -/
theorem ends_evict (sound : before.Sound) (exhausted : before.resident.acquire = none) :
    (evict before).Ends (fun frame after => ∃ settled, before.Holding frame settled after)
      (fun _ after => Path Move.MakesRoom before after)
      (fun fault => fault.isCorruption = false) := by
  refine (ends_evict_saving sound).imp ?_ ?_ (fun _ stopped => stopped.1)
  · rintro frame after ⟨asked, owner, space, page, bytes, backing, table, out, chosen, victim,
      saved, rfl⟩
    have soundAsked := chosen.path.sound sound
    have owns : asked.resident.owner? frame = some owner := by
      rw [chosen.same]
      exact chosen.owns
    obtain ⟨released, wasReleased, -, acquired, -⟩ := soundAsked.frames.resident.release owns
    have savedResident : out.resident = (asked.withdraw frame).resident := by rw [saved.result]
    refine ⟨{ out with resident := released }, .evicted exhausted chosen
      (saved.step victim.found victim.registered victim.held wasReleased) ?_ rfl⟩
    show released.acquire = some (frame, out.resident.unlink frame)
    rw [acquired, savedResident, withdraw, soundAsked.frames.resident.unlink_erase]
  · rintro error after
      (⟨-, -, path⟩ | ⟨asked, frame, owner, space, page, out, chosen, victim, fails, rfl⟩)
    · exact path
    · have queued : frame ∈ asked.resident.queue := by
        rw [chosen.same]
        exact chosen.queued
      have pathStore := fails.path (chosen.path.sound sound) victim.page? victim.held
      rw [fails.result]
      exact chosen.path.trans (pathStore.snoc (.upkeep (.requeue queued)) trivial)

/-- Whoever takes a frame has it in hand. -/
theorem ends_takeFrame (sound : before.Sound) :
    (takeFrame before).Ends (fun frame after => ∃ settled, before.Holding frame settled after)
      (fun _ after => Path Move.MakesRoom before after)
      (fun fault => fault.isCorruption = false) := by
  simp only [takeFrame, Action.ends_bind, Action.ends_get]
  cases acquired : before.resident.acquire with
  | none => exact ends_evict sound acquired
  | some loan =>
      obtain ⟨frame, resident⟩ := loan
      exact ⟨before, .loaned acquired rfl rfl⟩

/-! ## Bringing a page in -/

/-- Giving back a frame that is in hand settles the state. -/
theorem ends_releaseFrame {set : ResidentSet}
    (released : before.resident.release frame = .ok set) :
    (releaseFrame frame before).Ends (fun _ after => after = { before with resident := set })
      (fun _ _ => False) (fun _ => False) := by
  simp only [releaseFrame, setResident, Action.ends_bind, Action.ends_get, Action.ends_orHalt,
    Action.ends_modify, released]
  exact Action.of_result_eq_ok rfl rfl

/-- A page that is not in memory, and that records a slot if it is an anonymous one, can be brought
in. -/
theorem ends_bringIn_backing (sound : settled.Sound)
    (registered : settled.page? pid address = some page) (absent : page.frame = none)
    (bytes : PageData) :
    (page.backing.bringIn page.address ⟨settled.store, bytes⟩).Ends (fun _ _ => True)
      (fun _ after => after.store = settled.store) (fun fault => fault.isCorruption = false) := by
  cases backed : page.backing with
  | anonymous image? =>
    cases image? with
    | some slot =>
        have recorded : page.slot? = some slot := by rw [Page.slot?, backed]; rfl
        have occupied := sound.slots.isOccupied_of_recorded registered recorded
        exact (Backing.ends_bringIn_anonymous occupied).imp (fun _ _ _ => trivial)
          (fun _ _ same => same) (fun _ stopped => stopped)
    | none =>
        have placed := sound.slots.placed pid address page registered
        rw [Page.Placed, backed, absent] at placed
        cases placed
  | untouched initializer =>
      have notAnonymous : ∀ slot?, Backing.untouched initializer ≠ .anonymous slot? := by
        intro _ same
        cases same
      exact (Backing.ends_bringIn notAnonymous).imp (fun _ _ _ => trivial) (fun _ _ same => same)
        (fun _ stopped => stopped)
  | file region =>
      have notAnonymous : ∀ slot?, Backing.file region ≠ .anonymous slot? := by
        intro _ same
        cases same
      exact (Backing.ends_bringIn notAnonymous).imp (fun _ _ _ => trivial) (fun _ _ same => same)
        (fun _ stopped => stopped)

/-- A frame that was in hand went back to the pool. Some of its bytes may be other ones now. -/
inductive GaveBack (settled : Machine) (frame : PhysAddr) (after : Machine) : Prop where
  | unused (same : after = settled)
  | spoiled {contents : PageData} {resident : ResidentSet}
      (vacant : settled.resident.owner? frame = none)
      (written : settled.resident.write frame contents = .ok resident)
      (result : after = { settled with resident })

theorem GaveBack.path {after : Machine} (gaveBack : settled.GaveBack frame after) :
    Path Move.MakesRoom settled after := by
  cases gaveBack with
  | unused same =>
      rw [same]
      exact .refl settled
  | spoiled vacant written result =>
      rw [result]
      exact Path.single (.upkeep (.spoil vacant written)) trivial

/-- With a frame in hand, a page comes into it, or it stays as it was and the frame goes back. -/
theorem ends_pageIn (sound : settled.Sound) (found : settled.spaces[pid]? = some space)
    (registered : space.pages.at? page.address = some page) {taken : ResidentSet}
    (acquired : settled.resident.acquire = some (frame, taken)) :
    (pageIn pid space page frame { settled with resident := taken }).Ends
      (fun _ after =>
        Step (.pageIn pid page.address frame page.kind page.isUntouched) settled after ∧
        after.frame? pid page.address = some frame)
      (fun _ after => settled.GaveBack frame after)
      (fun fault => fault.isCorruption = false) := by
  have known := (page?_of_space found page.address).trans registered
  have inHand := sound.frames.resident.taken acquired
  unfold pageIn
  cases mapped : space.table.map page.address frame page.permission with
  | error cause =>
      simp only [Action.ends_bind, Action.ends_fail]
      have back : ({ settled with resident := taken } : Machine).resident.release frame =
          .ok settled.resident := inHand.back
      refine (ends_releaseFrame back).imp ?_ (fun _ _ no => no.elim) (fun _ no => no.elim)
      intro _ after same
      exact .unused same
  | ok table =>
      -- The table mapped the page just now, so the page was in no frame.
      have absent : page.frame = none := by
        have unmapped := PageTable.translation?_eq_none_iff.2
          (PageTable.view?_eq_none_of_map mapped)
        rw [(sound.frames.spaces pid space found).1.translated, registered, Option.bind_some,
          Page.translation?, Option.map_eq_none_iff] at unmapped
        exact unmapped
      obtain ⟨linked, link⟩ := inHand.exists_link_eq_ok ⟨pid, page.address⟩
      obtain ⟨-, -, -, contents⟩ := sound.frames.resident.occupy acquired link
      have inPool : (linked.contents? frame).isSome = true := by
        rw [contents]
        exact inHand.inPool
      obtain ⟨bytes, atFrame⟩ := Option.isSome_iff_exists.1 inPool
      have read : linked.read frame = .ok bytes := ResidentSet.read_eq_ok_iff.2 atFrame
      simp only [Action.ends_bind, Action.ends_get, setResident, Action.ends_orHalt, link]
      refine Action.of_result_eq_ok rfl ?_
      simp only [Action.ends_modify, Action.ends_attempt, bringIn, Action.ends_bind,
        Action.ends_get, Action.ends_orHalt, read]
      refine Action.of_result_eq_ok rfl ?_
      have ends := ends_bringIn_backing sound known absent bytes
      cases brought : page.backing.bringIn page.address ⟨settled.store, bytes⟩ with
      | halted fault =>
          rw [brought] at ends
          exact ends
      | done backing transfer =>
          obtain ⟨resident, written⟩ := ResidentSet.exists_write_eq_ok inPool transfer.bytes
          simp only [setResident, Action.ends_bind, Action.ends_orHalt, written,
            Action.ends_modify, Action.ends_pure, setSpace]
          refine Action.of_result_eq_ok rfl ?_
          refine ⟨.pageIn found registered absent acquired mapped link read brought written, ?_⟩
          refine (bind_page?_update Page.frame found rfl rfl pid page.address).trans ?_
          exact if_pos ⟨rfl, rfl⟩
      | failed error transfer =>
          -- What was filled in so far stays in the frame, which no page occupies any more.
          rw [brought] at ends
          obtain ⟨dirty, written⟩ := ResidentSet.exists_write_eq_ok inPool transfer.bytes
          obtain ⟨result, released, spoiled⟩ :=
            sound.frames.resident.abandon acquired link written
          simp only [setResident, Action.ends_bind, Action.ends_orHalt, written,
            Action.ends_modify, Action.ends_fail]
          refine Action.of_result_eq_ok rfl ?_
          refine (ends_releaseFrame released).imp ?_ (fun _ _ no => no.elim) (fun _ no => no.elim)
          intro _ after same
          have sameStore : transfer.store = settled.store := ends
          rw [same]
          refine .spoiled inHand.vacant spoiled ?_
          show ({ settled with resident := result, store := transfer.store } : Machine) = _
          rw [sameStore]

/-- A page that was not in memory was brought into a frame that was taken for it. -/
def BroughtIn (before : Machine) (pid : Pid) (address : VirtAddr) (after : Machine) : Prop :=
  ∃ frame kind first settled inHand, before.Holding frame settled inHand ∧
    Step (.pageIn pid address frame kind first) settled after ∧
    after.frame? pid address = some frame

theorem BroughtIn.path {after : Machine} (broughtIn : before.BroughtIn pid address after) :
    Path Move.IsUnseen before after := by
  obtain ⟨frame, kind, first, settled, inHand, holding, step, -⟩ := broughtIn
  exact (holding.path.mono fun _ room => room.unseen).snoc step trivial

/-- A page stays out of memory, because there is no page, no frame could be taken for it, or the
frame went back. -/
inductive StaysOut (before : Machine) (pid : Pid) (address : VirtAddr) (error : Errno)
    (after : Machine) : Prop where
  | missing (unregistered : before.page? pid address = none) (same : after = before)
  | frameless (failed : takeFrame before = .failed error after)
  | emptied {frame : PhysAddr} {held settled : Machine}
      (took : takeFrame before = .done frame held) (holding : before.Holding frame settled held)
      (gaveBack : settled.GaveBack frame after)

/-- A page is in memory already, or it is brought in, or it stays out. -/
theorem ends_makeResident_staying (sound : before.Sound) (pid : Pid) (address : VirtAddr) :
    (makeResident pid address before).Ends
      (fun _ after =>
        after = before ∧ (before.frame? pid address.pageDown).isSome = true ∨
          before.frame? pid address.pageDown = none ∧
            before.BroughtIn pid address.pageDown after)
      (fun error after => before.StaysOut pid address.pageDown error after)
      (fun fault => fault.isCorruption = false) := by
  simp only [makeResident, Action.ends_bind, Action.ends_get]
  rw [findPage?_eq_page?]
  cases registered : before.page? pid address.pageDown with
  | none => exact .missing registered rfl
  | some page =>
      have atPage : before.frame? pid address.pageDown = page.frame := by
        rw [frame?, registered]
        rfl
      dsimp only
      split
      case isTrue resident =>
        refine .inl ⟨rfl, ?_⟩
        rw [atPage]
        exact resident
      case isFalse notResident =>
        rw [Action.ends_bind]
        refine ((ends_takeFrame sound).and Outcome.ends_self).imp ?_
          (fun _ _ failed => .frameless failed.2) (fun _ stopped => stopped.1)
        rintro frame held ⟨⟨settled, holding⟩, took⟩
        have path := holding.path
        have soundSettled := path.sound sound
        have inHand := soundSettled.frames.resident.taken holding.acquired
        have staysOut {error : Errno} {after : Machine} (gaveBack : settled.GaveBack frame after) :
            before.StaysOut pid address.pageDown error after := .emptied took holding gaveBack
        obtain ⟨resident, rfl⟩ : ∃ resident, held = { settled with resident } :=
          ⟨held.resident, holding.inHand⟩
        have back : ({ settled with resident } : Machine).resident.release frame =
            .ok settled.resident := inHand.back
        -- If the page is gone, which no path that started here allows, the frame goes back.
        have settles (error : Errno) :
            ((do releaseFrame frame; Action.fail error : Action Machine Unit)
              { settled with resident }).Ends
              (fun _ after => after = before ∧ (before.frame? pid address.pageDown).isSome = true ∨
                before.frame? pid address.pageDown = none ∧
                  before.BroughtIn pid address.pageDown after)
              (fun error after => before.StaysOut pid address.pageDown error after)
              (fun fault => fault.isCorruption = false) := by
          rw [Action.ends_bind]
          refine (ends_releaseFrame back).imp ?_ (fun _ _ no => no.elim) (fun _ no => no.elim)
          intro _ after same
          exact staysOut (.unused same)
        simp only [Action.ends_bind, Action.ends_get]
        cases found : settled.spaces[pid]? with
        | none => exact settles .noSuchEntry
        | some space =>
            dsimp only
            rw [PageRegistry.find?_eq_at?]
            cases atAddress : space.pages.at? address.pageDown with
            | none => exact settles .badAddress
            | some now =>
                have located := (soundSettled.frames.spaces pid space found).1.located _ _ atAddress
                rw [← located.1] at atAddress ⊢
                refine (ends_pageIn soundSettled found atAddress holding.acquired).imp ?_ ?_
                  (fun _ stopped => stopped)
                · intro _ after result
                  refine .inr ⟨?_, frame, _, _, settled, _, holding, result.1, result.2⟩
                  rw [located.1, atPage]
                  simpa [Page.isResident] using notResident
                · intro _ after gaveBack
                  rw [located.1]
                  exact staysOut gaveBack

theorem StaysOut.path {error : Errno} {after : Machine}
    (staysOut : before.StaysOut pid address error after) (sound : before.Sound) :
    Path Move.MakesRoom before after := by
  cases staysOut with
  | missing _ same =>
      rw [same]
      exact .refl before
  | frameless failed =>
      have ends := ends_takeFrame sound
      rw [failed] at ends
      exact ends
  | emptied _ holding gaveBack => exact holding.path.trans gaveBack.path

theorem ends_makeResident (sound : before.Sound) (pid : Pid) (address : VirtAddr) :
    (makeResident pid address before).Ends
      (fun _ after =>
        after = before ∧ (before.frame? pid address.pageDown).isSome = true ∨
          before.frame? pid address.pageDown = none ∧
            before.BroughtIn pid address.pageDown after)
      (fun _ after => Path Move.MakesRoom before after)
      (fun fault => fault.isCorruption = false) :=
  (ends_makeResident_staying sound pid address).imp (fun _ _ result => result)
    (fun _ _ staysOut => staysOut.path sound) (fun _ stopped => stopped)

theorem takes_makeResident (pid : Pid) (address : VirtAddr) :
    (makeResident pid address).Takes Move.IsUnseen := by
  refine ⟨fun before sound => ?_⟩
  refine (ends_makeResident sound pid address).imp ?_
    (fun _ _ path => path.mono fun _ room => room.unseen) (fun _ stopped => stopped)
  intro _ after result
  rcases result with ⟨rfl, -⟩ | ⟨-, broughtIn⟩
  · exact .refl after
  · exact broughtIn.path

/-! ## Removing a page -/

/-- What a registered page holds outside the frames can be given up. -/
theorem ends_giveUp (sound : settled.Sound) (registered : settled.page? pid address = some page)
    (resident : Option PageData) (dirty : Bool) :
    (page.backing.giveUp page.address resident dirty settled.store).Ends
      (fun _ after => after.files.inodes.size = settled.store.files.inodes.size)
      (fun _ _ => False) (fun fault => fault.isCorruption = false) := by
  cases atSlot : page.backing.slot? with
  | none =>
      exact (Backing.ends_giveUp atSlot).imp (fun _ _ kept => kept.fileCount) (fun _ _ no => no)
        (fun _ stopped => stopped)
  | some slot =>
      have occupied := sound.slots.isOccupied_of_recorded registered atSlot
      cases backed : page.backing with
      | anonymous image? =>
          rw [backed] at atSlot
          cases atSlot
          refine (Backing.ends_giveUp_anonymous occupied).imp ?_ (fun _ _ no => no)
            (fun _ no => no.elim)
          intro _ after gone
          rw [gone.1]
      | untouched _ | file _ =>
          rw [backed] at atSlot
          cases atSlot

/-- Removing a registered page succeeds, unless giving up what it holds or letting go of it stops
the machine. The processes may be elsewhere for the time being. -/
theorem ends_destroyPage_of_parts (stops : Fault → Prop)
    {spaces : Std.ExtTreeMap Pid AddressSpace}
    (sound : ({ before with spaces } : Machine).Sound) (found : spaces[pid]? = some space)
    (registered : space.pages.at? page.address = some page)
    (givesUp : (page.backing.giveUp page.address (page.frame.bind before.resident.contents?)
      (space.table.isDirty page.address) before.store).Ends (fun _ _ => True) (fun _ _ => True)
        stops)
    (forgets : ∀ backing store, page.backing.giveUp page.address
        (page.frame.bind before.resident.contents?) (space.table.isDirty page.address)
          before.store = .done backing store →
      (page.forget store).Ends (fun _ _ => True) (fun _ _ => True) stops) :
    (destroyPage space.table page before).Ends
      (fun table after =>
        after = { before with resident := after.resident, store := after.store } ∧
        Step (.remove pid page.address page.kind) { before with spaces }
          { after with
            spaces := spaces.insert pid { space with
              table, pages := space.pages.erase page.address } })
      (fun _ _ => False) stops := by
  have known : ({ before with spaces } : Machine).page? pid page.address = some page :=
    (page?_of_space found page.address).trans registered
  have lasts {resident : Option PageData} {dirty : Bool} {backing : Backing} {store : BackingStore}
      (gaveUp : page.backing.giveUp page.address resident dirty before.store =
        .done backing store) :
      (page.forget store).Ends (fun _ _ => True) (fun _ _ => False) (fun _ => True) := by
    have sameCount := ends_giveUp sound known resident dirty
    rw [gaveUp, Outcome.ends_done] at sameCount
    exact (Page.ends_forget fun mapping mapped =>
      sameCount ▸ (sound.mappings _ _ _ mapping known mapped).file).imp (fun _ _ _ => trivial)
        (fun _ _ no => no) (fun _ _ => trivial)
  have gives (resident : Option PageData) (dirty : Bool) :=
    (ends_giveUp sound known resident dirty).imp (fun _ _ _ => trivial) (fun _ _ no => no)
      fun _ _ => trivial
  unfold destroyPage
  cases held : page.frame with
  | none =>
      have clean : space.table.isDirty page.address = false := by
        refine (sound.frames.spaces pid space found).1.isDirty_of_absent fun other atPage => ?_
        rw [sound.frames.pageDown_address found registered, registered, Option.some.injEq] at atPage
        exact atPage ▸ held
      rw [held, clean, Option.bind_none] at givesUp forgets
      simp only [Action.ends_bind, onStore, Action.ends_onPart, Action.ends_pure]
      refine (((gives none false).and givesUp).and Outcome.ends_self).imp ?_
        (fun _ _ no => no.1.1) (fun _ stopped => stopped.1.2)
      rintro backing store ⟨-, gaveUp⟩
      refine (((lasts gaveUp).and (forgets backing store gaveUp)).and Outcome.ends_self).imp ?_
        (fun _ _ no => no.1.1) (fun _ stopped => stopped.1.2)
      rintro _ rest ⟨-, forgot⟩
      exact ⟨trivial, .removeAbsent found registered held gaveUp forgot⟩
  | some frame =>
      have owner := sound.frames.owner?_of_held known held
      have inPool : (before.resident.contents? frame).isSome = true :=
        sound.frames.resident.contents?_isSome owner
      obtain ⟨bytes, contents⟩ := Option.isSome_iff_exists.1 inPool
      have read : before.resident.read frame = .ok bytes := ResidentSet.read_eq_ok_iff.2 contents
      obtain ⟨table, unmapped, -⟩ :=
        (sound.frames.spaces pid space found).1.exists_unmap_eq registered held
      obtain ⟨cleared, clear⟩ := ResidentSet.exists_write_eq_ok inPool Block.zero
      have sameOwner : cleared.owner? frame = some ⟨pid, page.address⟩ :=
        (ResidentSet.owner?_of_write clear frame).trans owner
      have soundResident : before.resident.Sound := sound.frames.resident
      obtain ⟨resident, released, -⟩ := (soundResident.write clear).release sameOwner
      rw [held, Option.bind_some, contents] at givesUp forgets
      simp only [Action.ends_bind, Action.ends_get, Action.ends_orHalt, read]
      refine Action.of_result_eq_ok rfl ?_
      simp only [onStore, Action.ends_onPart]
      refine (((gives (some bytes) (space.table.isDirty page.address)).and givesUp).and
        Outcome.ends_self).imp ?_ (fun _ _ no => no.1.1) (fun _ stopped => stopped.1.2)
      rintro backing store ⟨-, gaveUp⟩
      rw [unmapped]
      simp only [setResident, releaseFrame, Action.ends_bind, Action.ends_get, Action.ends_orHalt,
        Action.ends_modify, clear, Action.ends_pure]
      refine Action.of_result_eq_ok rfl ?_
      refine Action.of_result_eq_ok released ?_
      simp only [Action.ends_onPart]
      refine (((lasts gaveUp).and (forgets backing store gaveUp)).and Outcome.ends_self).imp ?_
        (fun _ _ no => no.1.1) (fun _ stopped => stopped.1.2)
      rintro _ rest ⟨-, forgot⟩
      exact ⟨trivial, .removeResident found registered held read gaveUp unmapped clear released
        forgot⟩

/-- Removing a registered page succeeds, unless its file stops the machine. -/
theorem ends_destroyPage {spaces : Std.ExtTreeMap Pid AddressSpace}
    (sound : ({ before with spaces } : Machine).Sound) (found : spaces[pid]? = some space)
    (registered : space.pages.at? page.address = some page) :
    (destroyPage space.table page before).Ends
      (fun table after =>
        after = { before with resident := after.resident, store := after.store } ∧
        Step (.remove pid page.address page.kind) { before with spaces }
          { after with
            spaces := spaces.insert pid { space with
              table, pages := space.pages.erase page.address } })
      (fun _ _ => False) (fun fault => fault.isCorruption = false) := by
  have known : ({ before with spaces } : Machine).page? pid page.address = some page :=
    (page?_of_space found page.address).trans registered
  refine ends_destroyPage_of_parts _ sound found registered ?_ fun backing store gaveUp => ?_
  · exact (ends_giveUp sound known _ _).imp (fun _ _ _ => trivial) (fun _ _ no => no.elim)
      (fun _ stopped => stopped)
  · have sameCount := ends_giveUp sound known (page.frame.bind before.resident.contents?)
      (space.table.isDirty page.address)
    rw [gaveUp, Outcome.ends_done] at sameCount
    exact (Page.ends_forget fun mapping mapped =>
      sameCount ▸ (sound.mappings _ _ _ mapping known mapped).file).imp (fun _ _ _ => trivial)
        (fun _ _ no => no.elim) (fun _ stopped => stopped)

end Machine

end DemandPaging
