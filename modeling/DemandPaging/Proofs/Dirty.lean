import DemandPaging.Proofs.SlotsOwned

/-!
Which pages were written since they were brought in.

Owns:
- `Machine.view?`, what the page table of a process says of a page;
- `Machine.isDirty`, whether a page was written since it was brought in, and what every step does to
  it.

Main statement: `Step.isDirty_cases`, a page is dirty from the first access that writes it until it
leaves memory.
-/

namespace DemandPaging

namespace Machine

/-- What the page table of a process says of a page, if the page is mapped. -/
def view? (machine : Machine) (pid : Pid) (address : VirtAddr) : Option EntryView :=
  machine.spaces[pid]?.bind fun space => space.table.view? address

/-- Whether a page of a process was written since it was brought in. -/
def isDirty (machine : Machine) (pid : Pid) (address : VirtAddr) : Bool :=
  machine.spaces[pid]?.any fun space => space.table.isDirty address

variable {before after machine : Machine} {pid : Pid} {space changed : AddressSpace}
  {address : VirtAddr} {frame : PhysAddr}

theorem isDirty_eq (machine : Machine) (pid : Pid) (address : VirtAddr) :
    machine.isDirty pid address =
      (machine.view? pid address.pageDown).any EntryView.dirty := by
  unfold isDirty view?
  cases machine.spaces[pid]? with
  | none => rfl
  | some space => exact space.table.isDirty_eq address

/-- A process whose page table changes at one address changes the view of one page. -/
theorem view?_update {now? : Option EntryView} (found : before.spaces[pid]? = some space)
    (spaces : after.spaces = before.spaces.insert pid changed)
    (views : ∀ place, changed.table.view? place =
      if address = place then now? else space.table.view? place)
    (other : Pid) (place : VirtAddr) :
    after.view? other place =
      if pid = other ∧ address = place then now? else before.view? other place := by
  unfold view?
  rw [spaces_insert spaces]
  by_cases same : pid = other
  · subst same
    rw [if_pos rfl, Option.bind_some, views, found, Option.bind_some]
    simp
  · rw [if_neg same, if_neg fun both => same both.1]

theorem view?_keep (found : before.spaces[pid]? = some space)
    (spaces : after.spaces = before.spaces.insert pid changed)
    (table : changed.table = space.table) (other : Pid) (place : VirtAddr) :
    after.view? other place = before.view? other place := by
  unfold view?
  rw [spaces_insert spaces]
  split
  case isTrue same =>
    subst same
    rw [found, Option.bind_some, Option.bind_some, table]
  case isFalse => rfl

/-- Asking an owner clears the accessed mark of its page, and changes no other entry. -/
theorem view?_ask (before : Machine) (owner : FrameOwner) (pid : Pid) (address : VirtAddr) :
    ({ before with
        spaces := (testAndClearAccessed owner before.spaces).2 } : Machine).view? pid address =
      if owner.pid = pid ∧ owner.address.pageDown = address then
        (before.view? pid address).map fun view => { view with accessed := false }
      else before.view? pid address := by
  unfold testAndClearAccessed
  cases found : before.spaces[owner.pid]? with
  | none =>
      split_ifs with here
      · rw [view?, ← here.1, found]
        rfl
      · rfl
  | some space =>
      dsimp only
      split
      case isTrue =>
        have views (other : VirtAddr) :
            (space.table.setAccessed owner.address false).view? other =
              if owner.address.pageDown = other then
                (space.table.view? owner.address.pageDown).map fun view =>
                  { view with accessed := false }
              else space.table.view? other := by
          rw [PageTable.view?_setAccessed]
          split
          case isTrue here => rw [here]
          case isFalse => rfl
        rw [view?_update found rfl views]
        split
        case isTrue here => rw [view?, ← here.1, found, Option.bind_some, here.2]
        case isFalse => rfl
      case isFalse unmarked =>
        -- A page whose mark is clear stays as it is.
        rw [PageTable.isAccessed_eq] at unmarked
        split
        case isTrue here =>
          rw [← here.1, ← here.2]
          show before.view? owner.pid owner.address.pageDown = _
          rw [view?, found, Option.bind_some]
          cases atPage : space.table.view? owner.address.pageDown with
          | none => rfl
          | some view =>
              rw [atPage, Option.any_some, Bool.not_eq_true] at unmarked
              rw [Option.map_some, ← unmarked]
        case isFalse => rfl

/-- Only a page that is in memory is mapped. -/
theorem FramesOwned.view?_of_absent (owned : before.FramesOwned)
    (absent : before.frame? pid address = none) : before.view? pid address = none := by
  unfold view?
  cases found : before.spaces[pid]? with
  | none => rfl
  | some space =>
      refine (owned.spaces pid space found).1.view?_of_absent fun page registered => ?_
      rw [frame?, page?_of_space found, registered] at absent
      exact absent

theorem FramesOwned.exists_frame?_of_dirty (owned : before.FramesOwned)
    (dirty : before.isDirty pid address = true) :
    ∃ frame, before.frame? pid address.pageDown = some frame := by
  rw [← Option.ne_none_iff_exists']
  intro absent
  rw [isDirty_eq, owned.view?_of_absent absent] at dirty
  cases dirty

end Machine

open Machine

section Steps

variable {before after : Machine} {move : Move} {pid : Pid} {address : VirtAddr}

/-- An access marks its page, and no other one. -/
theorem Step.view?_of_access {write : Bool} (step : Step (.access pid address write) before after)
    (owned : before.FramesOwned) :
    ∃ view, before.view? pid address.pageDown = some view ∧ ∀ other place,
      after.view? other place =
        if pid = other ∧ address.pageDown = place then
          some { view with accessed := true, dirty := view.dirty || write }
        else before.view? other place := by
  cases step with
  | @access _ _ space _ _ location table found reached =>
      have sound := (owned.spaces pid space found).1
      cases viewed : space.table.view? address.pageDown with
      | none => rw [PageTable.access_of_unmapped write viewed] at reached; cases reached
      | some view =>
          obtain ⟨_, frame, -, -, leads, -⟩ := sound.exists_page_of_view? viewed
          have allowed : write = true → view.writable = true := by
            rintro rfl
            cases permits : view.writable with
            | true => rfl
            | false => rw [PageTable.access_of_protected viewed permits] at reached; cases reached
          obtain ⟨marked, accessed, views⟩ := PageTable.access_of_mapped viewed leads allowed
          rw [reached] at accessed
          cases accessed
          refine ⟨view, ?_, view?_update found rfl views⟩
          rw [view?, found]
          exact viewed

theorem Step.isDirty_of_access (step : Step (.access pid address true) before after)
    (owned : before.FramesOwned) : after.isDirty pid address = true := by
  obtain ⟨view, -, views⟩ := step.view?_of_access owned
  rw [isDirty_eq, views, if_pos ⟨rfl, rfl⟩]
  simp

/-- A page that is brought in is mapped to its frame with clear marks. No other entry changes. -/
theorem Step.view?_of_pageIn {frame : PhysAddr} {kind : PageKind} {first : Bool}
    (step : Step (.pageIn pid address frame kind first) before after)
    (owned : before.FramesOwned) :
    ∃ page, before.page? pid address = some page ∧ ∀ other place,
      after.view? other place =
        if pid = other ∧ address = place then some ⟨some frame, page.writable, false, false⟩
        else before.view? other place := by
  cases step with
  | @pageIn _ _ _ page _ _ _ _ _ _ _ _ found registered _ acquired mapped =>
      exact ⟨page, (page?_of_space found _).trans registered, view?_update found rfl
        (PageTable.view?_of_map (owned.resident.taken acquired).physical mapped)⟩

/-- A page that is asked whether it was accessed stays as dirty as it was. -/
theorem Upkeep.isDirty_eq (upkeep : Upkeep before after) (pid : Pid) (address : VirtAddr) :
    after.isDirty pid address = before.isDirty pid address := by
  cases upkeep with
  | requeue | spoil | strain => rfl
  | ask owner =>
      rw [Machine.isDirty_eq, Machine.isDirty_eq, view?_ask]
      split
      case isTrue => cases before.view? pid address.pageDown <;> rfl
      case isFalse => rfl

/-- A new process has no page in memory. -/
theorem Step.view?_of_arrive (step : Step (.arrive pid) before after) (owned : before.FramesOwned)
    (other : Pid) (place : VirtAddr) : after.view? other place = before.view? other place := by
  cases step with
  | arrive =>
      unfold view?
      rw [spaces_insert rfl]
      split
      case isTrue here =>
        rw [← here, owned.space_of_next]
        exact PageTable.view?_empty place
      case isFalse => rfl

/-- A process that leaves has no page in memory. -/
theorem Step.view?_of_leave (step : Step (.leave pid) before after) (owned : before.FramesOwned)
    (other : Pid) (place : VirtAddr) : after.view? other place = before.view? other place := by
  cases step with
  | @leave _ _ space found gone =>
      unfold view?
      rw [spaces_erase rfl]
      split
      case isTrue here =>
        rw [← here, found, Option.bind_some]
        refine ((owned.spaces _ space found).1.view?_of_absent fun page registered => ?_).symm
        rw [gone] at registered
        cases registered
      case isFalse => rfl

/-- An access makes its page dirty if it writes, and leaves all marks alone otherwise. -/
theorem Step.isDirty_cases_of_access {other : Pid} {place : VirtAddr} {write : Bool}
    (step : Step (.access other place write) before after) (owned : before.FramesOwned)
    (pid : Pid) (address : VirtAddr) :
    after.isDirty pid address = before.isDirty pid address ∨
      other = pid ∧ write = true ∧ place.pageDown = address.pageDown ∧
        after.isDirty pid address = true := by
  obtain ⟨view, viewed, views⟩ := step.view?_of_access owned
  rw [isDirty_eq, isDirty_eq, views]
  by_cases here : other = pid ∧ place.pageDown = address.pageDown
  · rw [if_pos here]
    obtain ⟨rfl, samePage⟩ := here
    cases write with
    | true => exact .inr ⟨rfl, rfl, samePage, by simp⟩
    | false =>
        left
        rw [← samePage, viewed]
        simp
  · rw [if_neg here]
    exact .inl rfl

/-- A page changes its mark only when it is written or leaves memory. -/
theorem Step.isDirty_cases (step : Step move before after) (owned : before.FramesOwned)
    (pid : Pid) (address : VirtAddr) :
    after.isDirty pid address = before.isDirty pid address ∨
      (∃ place, move = .access pid place true ∧ place.pageDown = address.pageDown ∧
        after.isDirty pid address = true) ∨
      after.isDirty pid address = false ∧
        ∃ page frame, before.page? pid address.pageDown = some page ∧ page.frame = some frame ∧
          (move = .pageOut frame ∨ move = .remove pid address.pageDown page.kind) := by
  have same (views : ∀ other place, after.view? other place = before.view? other place) :
      after.isDirty pid address = before.isDirty pid address := by
    rw [isDirty_eq, isDirty_eq, views]
  -- A page that loses its frame is unmapped.
  have unmapped {other : Pid} {page : Page} {frame : PhysAddr}
      (registered : before.page? other page.address = some page) (held : page.frame = some frame)
      (leaves : move = .pageOut frame ∨ move = .remove other page.address page.kind)
      (views : ∀ target place, after.view? target place =
        if other = target ∧ page.address = place then none else before.view? target place) :
      after.isDirty pid address = before.isDirty pid address ∨
        after.isDirty pid address = false ∧
          ∃ page frame, before.page? pid address.pageDown = some page ∧ page.frame = some frame ∧
            (move = .pageOut frame ∨ move = .remove pid address.pageDown page.kind) := by
    rw [isDirty_eq, isDirty_eq, views]
    split
    case isTrue here =>
      obtain ⟨rfl, atAddress⟩ := here
      rw [atAddress] at registered leaves
      exact .inr ⟨rfl, page, frame, registered, held, leaves⟩
    case isFalse => exact .inl rfl
  cases step with
  | upkeep upkeep => exact .inl (upkeep.isDirty_eq pid address)
  | createMapping | retain | outside | overwrite => exact .inl rfl
  | setStackPointer found | register found | removeAbsent found =>
      exact .inl (same (view?_keep found rfl rfl))
  | arrive => exact .inl (same (Step.arrive.view?_of_arrive owned))
  | leave found gone => exact .inl (same ((Step.leave found gone).view?_of_leave owned))
  | access found reached =>
      rcases (Step.access found reached).isDirty_cases_of_access owned pid address with
        unmarked | ⟨rfl, rfl, samePage, marked⟩
      · exact .inl unmarked
      · exact .inr (.inl ⟨_, rfl, samePage, marked⟩)
  | @pageOut _ other space page frame _ _ _ _ _ _ found registered held _ _ unmap _ =>
      have sound := (owned.spaces other space found).1
      refine (unmapped ((page?_of_space found _).trans registered) held (.inl rfl) ?_).imp id .inr
      exact view?_update found rfl (sound.view?_of_unmap registered held unmap)
  | @removeResident _ other space page frame _ _ _ _ _ _ _ _ found registered held _ _ unmap =>
      have sound := (owned.spaces other space found).1
      refine (unmapped ((page?_of_space found _).trans registered) held (.inr rfl) ?_).imp id .inr
      exact view?_update found rfl (sound.view?_of_unmap registered held unmap)
  | @pageIn _ other space page frame _ _ _ _ _ _ _ found registered absent acquired mapped =>
      left
      rw [isDirty_eq, isDirty_eq, view?_update found rfl
        (PageTable.view?_of_map (owned.resident.taken acquired).physical mapped)]
      split
      case isTrue here =>
        obtain ⟨rfl, here⟩ := here
        rw [← here, owned.view?_of_absent]
        · rfl
        · rw [frame?, page?_of_space found, registered]
          exact absent
      case isFalse => rfl

end Steps

end DemandPaging
