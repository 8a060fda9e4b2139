import DemandPaging.Machine.Processes
import DemandPaging.Proofs.References

/-!
The steps of the end of a process.

Owns: the removal of a process page by page, and that it leaves nothing behind.

Main statement: `ends_exit`, which removes pages of one process only.
-/

namespace DemandPaging

/-- Pages of one process are removed, and then the process. -/
def Move.Exits (pid : Pid) : Move → Prop
  | remove other _ _ | leave other => other = pid
  | upkeep | refer | outside | setStackPointer _ | access _ _ _ | pageOut _ | pageIn _ _ _ _ _
  | overwrite _ _ _ | register _ _ _ | arrive _ => False

theorem Move.Exits.keepsMappings {move : Move} {pid other : Pid} (exits : move.Exits pid)
    (different : other ≠ pid) : move.KeepsMappings other := by
  intro address
  constructor
  · rintro rfl
    exact exits
  · rintro rfl
    exact different exits

theorem Move.Exits.keepsAccount {move : Move} {pid : Pid} (exits : move.Exits pid) :
    move.KeepsAccount pid := by
  refine ⟨?_, ?_, ?_, ?_⟩
  · rintro rfl
    exact exits
  · rintro rfl
    exact exits
  · rintro address rfl
    exact exits
  · rintro other address rfl
    exact exits

theorem Move.IsUnseen.keepsMappings {move : Move} (unseen : move.IsUnseen) (pid : Pid) :
    move.KeepsMappings pid := by
  intro address
  constructor
  · rintro rfl
    exact unseen
  · rintro rfl
    exact unseen

namespace AddressSpace

variable {space : AddressSpace}

theorem Sound.isEmpty_of_gone (sound : space.Sound)
    (gone : ∀ address, space.pages.at? address = none) : space.table.isEmpty = true := by
  rw [PageTable.isEmpty_iff_view?]
  intro address
  apply sound.view?_of_absent
  intro page registered
  rw [gone] at registered
  cases registered

end AddressSpace

namespace Machine

variable {before : Machine} {pid : Pid}

/-! ## The pages of a process -/

/-- The pages of a process, in the order of their addresses. -/
def pagesOf (machine : Machine) (pid : Pid) : List Page :=
  (machine.spaces[pid]?.map fun space => space.pages.toList).getD []

/-- The pages of a process are those of a list, each at its address. -/
structure HasPages (machine : Machine) (pid : Pid) (pages : List Page) : Prop where
  distinct : (pages.map Page.address).Nodup
  listed : ∀ address page,
    machine.page? pid address = some page ↔ page ∈ pages ∧ page.address = address

theorem FramesOwned.hasPages (owned : before.FramesOwned) (pid : Pid) :
    before.HasPages pid (before.pagesOf pid) := by
  unfold pagesOf
  cases found : before.spaces[pid]? with
  | none =>
      refine ⟨List.nodup_nil, fun address page => ?_⟩
      rw [page?, found]
      simp
  | some space =>
      have soundSpace := (owned.spaces pid space found).1
      refine ⟨soundSpace.nodup_addresses, fun address page => ?_⟩
      rw [page?_of_space found]
      exact soundSpace.mem_toList_iff

/-! ## The end of a process -/

/-- While a process is being removed it is out of the map of processes already. It is as if it were
still there with the pages that are left. -/
structure Leaving (before : Machine) (pid : Pid) (rest : List Page) (table : PageTable)
    (state : Machine) (space : AddressSpace) : Prop where
  outside : state = { before with
    resident := state.resident, store := state.store, spaces := before.spaces.erase pid }
  table : space.table = table
  path : Path (Move.Exits pid) before
    { state with spaces := before.spaces.insert pid space }
  distinct : (rest.map Page.address).Nodup
  left : ∀ address page,
    space.pages.at? address = some page ↔ page ∈ rest ∧ page.address = address

/-- The removal of a process begins with all of its pages. -/
theorem Leaving.begin {space : AddressSpace} (sound : before.Sound)
    (found : before.spaces[pid]? = some space) :
    Leaving before pid space.pages.toList space.table
      { before with spaces := before.spaces.erase pid } space := by
  have soundSpace := (sound.frames.spaces pid space found).1
  refine ⟨rfl, rfl, ?_, soundSpace.nodup_addresses, fun _ _ => soundSpace.mem_toList_iff⟩
  show Path _ before { before with spaces := before.spaces.insert pid space }
  rw [insert_space found]
  exact .refl before

theorem Leaving.hasPages {rest : List Page} {table : PageTable} {state : Machine}
    {space : AddressSpace} (leaving : Leaving before pid rest table state space) :
    ({ state with spaces := before.spaces.insert pid space } : Machine).HasPages pid rest := by
  have found : (before.spaces.insert pid space)[pid]? = some space := by simp
  refine ⟨leaving.distinct, fun address page => ?_⟩
  have lookup : ({ state with spaces := before.spaces.insert pid space } : Machine).page? pid
      address = space.pages.at? address := page?_of_space found address
  rw [lookup]
  exact leaving.left address page

/-- Its next page is removed. -/
theorem Leaving.ends_destroyPage {rest : List Page} {table : PageTable}
    {state : Machine} {space : AddressSpace} {page : Page} {stops : Fault → Prop}
    (sound : before.Sound) (leaving : Leaving before pid (page :: rest) table state space)
    (pages : (destroyPage table page state).Ends (fun _ _ => True) (fun _ _ => True) stops) :
    (destroyPage table page state).Ends
      (fun table after => ∃ next, Leaving before pid rest table after next ∧
        Step (.remove pid page.address page.kind)
          { state with spaces := before.spaces.insert pid space }
          { after with spaces := before.spaces.insert pid next })
      (fun _ _ => False) stops := by
  have soundNow := leaving.path.sound sound
  have registered : space.pages.at? page.address = some page :=
    (leaving.left page.address page).2 ⟨List.mem_cons_self, rfl⟩
  have found : (before.spaces.insert pid space)[pid]? = some space := by simp
  have aligned := ((soundNow.frames.spaces pid space found).1.located _ _ registered).2
  rw [← leaving.table] at pages ⊢
  refine ((Machine.ends_destroyPage soundNow found registered).and pages).imp ?_
    (fun _ _ no => no.1) (fun _ stopped => stopped.2)
  intro tableAfter after result
  obtain ⟨⟨same, step⟩, -⟩ := result
  rw [insert_insert_space] at step
  have distinct := leaving.distinct
  rw [List.map_cons, List.nodup_cons] at distinct
  refine ⟨_, ⟨?_, rfl, leaving.path.snoc step rfl, distinct.2, fun place other => ?_⟩, step⟩
  · rw [same]
    rw [leaving.outside]
  · show (space.pages.erase page.address).at? place = some other ↔ _
    rw [PageRegistry.at?_erase, Address.pageDown_eq_self_iff.2 aligned]
    by_cases here : page.address = place
    · rw [if_pos here]
      constructor
      · intro impossible
        cases impossible
      · intro known
        have also : other.address ∈ rest.map Page.address := List.mem_map_of_mem known.1
        rw [known.2, ← here] at also
        exact absurd also distinct.1
    · rw [if_neg here, leaving.left, List.mem_cons]
      constructor
      · intro known
        rcases known with ⟨rfl | later, atPlace⟩
        · exact absurd atPlace here
        · exact ⟨later, atPlace⟩
      · intro known
        exact ⟨.inr known.1, known.2⟩

/-- When no page is left, nothing is mapped, and the process is gone. -/
theorem Leaving.finished {table : PageTable} {state : Machine} {space : AddressSpace}
    (sound : before.Sound) (leaving : Leaving before pid [] table state space) :
    table.isEmpty = true ∧ Path (Move.Exits pid) before state := by
  have soundNow := leaving.path.sound sound
  have found : (before.spaces.insert pid space)[pid]? = some space := by simp
  have gone : ∀ address, space.pages.at? address = none := by
    intro address
    rw [Option.eq_none_iff_forall_ne_some]
    intro page registered
    exact List.not_mem_nil ((leaving.left address page).1 registered).1
  have empty := (soundNow.frames.spaces pid space found).1.isEmpty_of_gone gone
  have stateSpaces : state.spaces = before.spaces.erase pid := by rw [leaving.outside]
  refine ⟨leaving.table ▸ empty, ?_⟩
  have path := leaving.path.snoc (.leave found gone) rfl
  dsimp only at path
  rw [erase_insert_space, ← stateSpaces] at path
  exact path

/-- A process is removed with all of its pages, unless what stops the removal of one of them stops
the machine. While it is being removed it is as if the process were there with the pages left, and a
condition on these that the removal of each one keeps holds of none in the end. -/
theorem ends_exit_of_pages (stops : Fault → Prop) (condition : List Page → Machine → Prop)
    (sound : before.Sound) (pid : Pid) (start : condition (before.pagesOf pid) before)
    (removes : ∀ page rest now next, Path (Move.Exits pid) before now →
      now.HasPages pid (page :: rest) → condition (page :: rest) now →
      Step (.remove pid page.address page.kind) now next → condition rest next)
    (pages : ∀ (state : Machine) space page rest,
      Path (Move.Exits pid) before { state with spaces := before.spaces.insert pid space } →
      space.pages.at? page.address = some page →
      condition (page :: rest) { state with spaces := before.spaces.insert pid space } →
      (destroyPage space.table page state).Ends (fun _ _ => True) (fun _ _ => True) stops) :
    (exit pid before).Ends
      (fun _ after => Path (Move.Exits pid) before after ∧
        after = { before with
          resident := after.resident, store := after.store, spaces := before.spaces.erase pid } ∧
        ∃ spaces, condition [] { after with spaces })
      (fun _ _ => False) stops := by
  simp only [exit, Action.ends_bind, Action.ends_get]
  cases found : before.spaces[pid]? with
  | none =>
      rw [pagesOf, found] at start
      exact ⟨.refl before, by rw [erase_absent found], before.spaces, start⟩
  | some space =>
      rw [pagesOf, found] at start
      let between (rest : List Page) (table : PageTable) (state : Machine) : Prop :=
        ∃ space, Leaving before pid rest table state space ∧
          condition rest { state with spaces := before.spaces.insert pid space }
      simp only [Action.ends_bind, Action.ends_set]
      have loop : (space.pages.toList.foldlM destroyPage space.table
          { before with spaces := before.spaces.erase pid }).Ends (between [])
          (fun _ _ => False) stops := by
        apply Action.ends_foldlM between
        · rintro page rest table state ⟨memory, leaving, holds⟩
          have removal : (destroyPage table page state).Ends (fun _ _ => True) (fun _ _ => True)
              stops := by
            rw [← leaving.table]
            exact pages state memory page rest leaving.path
              ((leaving.left page.address page).2 ⟨List.mem_cons_self, rfl⟩) holds
          refine (leaving.ends_destroyPage sound removal).imp ?_ (fun _ _ no => no)
            (fun _ stopped => stopped)
          rintro _ after ⟨next, leavingNext, step⟩
          exact ⟨next, leavingNext, removes page rest _ _ leaving.path leaving.hasPages holds step⟩
        · refine ⟨space, .begin sound found, ?_⟩
          rw [insert_space found]
          exact start
      refine loop.imp ?_ (fun _ _ no => no) (fun _ stopped => stopped)
      rintro table state ⟨memory, leaving, holds⟩
      obtain ⟨empty, path⟩ := leaving.finished sound
      simp only [empty, Bool.not_true, Bool.false_eq_true, if_false, Action.ends_pure]
      exact ⟨path, leaving.outside, _, holds⟩

/-- A process is removed with all of its pages, unless a file stops the machine. -/
theorem ends_exit (sound : before.Sound) (pid : Pid) :
    (exit pid before).Ends
      (fun _ after => Path (Move.Exits pid) before after ∧ after.spaces[pid]? = none)
      (fun _ _ => False) (fun fault => fault.isCorruption = false) := by
  refine (ends_exit_of_pages _ (fun _ _ => True) sound pid trivial (fun _ _ _ _ _ _ _ _ => trivial)
    fun state space page _ path registered _ => ?_).imp ?_ (fun _ _ no => no)
      (fun _ stopped => stopped)
  · have found : (before.spaces.insert pid space)[pid]? = some space := by simp
    exact (ends_destroyPage (path.sound sound) found registered).imp (fun _ _ _ => trivial)
      (fun _ _ no => no.elim) (fun _ stopped => stopped)
  · rintro _ after ⟨path, outside, -⟩
    refine ⟨path, ?_⟩
    rw [outside]
    simp

end Machine

end DemandPaging
