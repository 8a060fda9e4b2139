import DemandPaging.Proofs.MappingFaults
import DemandPaging.Proofs.Reachable

/-!
References to the mappings of all processes, and the handles that go with them.

Owns:
- `BackingStore.Balances`, every mapping of some list is referred to as often as it is listed and no
  other one is, and each has a handle on its file;
- `Machine.Balanced`, this for the pages of all processes;
- that every operation keeps the balance, and does not stop over a mapping unless handles were
  closed from outside.

Does not own: what a mapping looks like (`Machine.MappingsWhole`), and the account of one process
(`Machine.Accounted`).

Main statements: `Event.ends_balanced` and `Reachable.exists_balanced`.
-/

namespace DemandPaging

namespace BackingStore

variable {store after : BackingStore} {base : FileId → Int} {live others : List Mapping}
  {mapping : Mapping}

/-- Every mapping is referred to as often as it is listed, and no other one is. Each has a handle on
its file, next to a number of other handles, which is negative if handles of mappings were closed
from outside. -/
structure Balances (store : BackingStore) (base : FileId → Int) (live : List Mapping) : Prop
    extends store.Refers live where
  only : ∀ id ∈ store.references, ∃ mapping ∈ live, mapping.id = id
  handles : ∀ file, (store.files.handles file : Int) = base file + Mapping.countOf live file

namespace Balances

theorem perm (balances : store.Balances base live) (same : live.Perm others) :
    store.Balances base others where
  toRefers := balances.toRefers.perm same
  only id referred := by
    obtain ⟨mapping, member, known⟩ := balances.only id referred
    exact ⟨mapping, same.mem_iff.1 member, known⟩
  handles file := by rw [balances.handles, Mapping.countOf_perm same]

/-- Handles are opened or closed from outside, and no reference changes. -/
theorem rebase {other : FileId → Int} (balances : store.Balances base live)
    (references : after.references = store.references)
    (knows : ∀ mapping, store.Knows mapping → after.Knows mapping)
    (handles : ∀ file, (after.files.handles file : Int) - store.files.handles file =
      other file - base file) : after.Balances other live where
  toRefers := balances.toRefers.congr references knows
  only := by rw [references]; exact balances.only
  handles file := by
    have before := balances.handles file
    have change := handles file
    omega

theorem congr (balances : store.Balances base live) (keeps : store.KeepsReferences after) :
    after.Balances base live :=
  balances.rebase keeps.references keeps.knows fun file => by rw [keeps.handles]; omega

/-- A mapping that is made is referred to as often as was asked for. -/
theorem create {start : VirtAddr} {pageCount references : Nat} {file : FileId}
    (balances : store.Balances base live) (positive : 0 < references)
    (made : createMapping start pageCount file references store = .done mapping after) :
    after.Balances base (List.replicate references mapping ++ live) := by
  obtain ⟨fresh, refers⟩ := balances.toRefers.create made
  obtain ⟨rfl, inserted, handles⟩ := of_createMapping made
  refine ⟨refers, fun id referred => ?_, fun other => ?_⟩
  · rw [inserted, Std.ExtTreeMap.mem_insert] at referred
    rcases referred with same | old
    · refine ⟨_, List.mem_append_left _ (List.mem_replicate.2 ⟨Nat.ne_of_gt positive, rfl⟩), ?_⟩
      exact Std.LawfulEqCmp.eq_of_compare same
    · obtain ⟨other, member, known⟩ := balances.only id old
      exact ⟨other, List.mem_append_right _ member, known⟩
  · have before := balances.handles other
    rw [Mapping.countOf_replicate_append positive fresh, handles]
    push_cast
    omega

/-- A mapping is referred to once more. -/
theorem retain (balances : store.Balances base live) (member : mapping ∈ live)
    (retained : BackingStore.retain mapping store = .done () after) :
    after.Balances base (mapping :: live) := by
  refine ⟨balances.toRefers.retain member retained, fun id referred => ?_, fun file => ?_⟩
  · cases retained
    rw [Std.ExtTreeMap.mem_insert] at referred
    rcases referred with same | old
    · exact ⟨mapping, List.mem_cons_self, Std.LawfulEqCmp.eq_of_compare same⟩
    · obtain ⟨other, listed, known⟩ := balances.only id old
      exact ⟨other, List.mem_cons_of_mem _ listed, known⟩
  · cases retained
    rw [Mapping.countOf_cons_of_mem member]
    exact balances.handles file

/-- A mapping is referred to once less. -/
theorem drop (balances : store.Balances base (mapping :: live))
    (dropped : BackingStore.drop mapping store = .done () after) : after.Balances base live := by
  obtain ⟨refers, handles, only⟩ := balances.toRefers.drop dropped
  refine ⟨refers, fun id referred => ?_, fun file => ?_⟩
  · obtain ⟨old, last⟩ := only id referred
    obtain ⟨other, listed, known⟩ := balances.only id old
    rcases List.mem_cons.1 listed with rfl | left
    · exact ⟨other, last known.symm, known⟩
    · exact ⟨other, left, known⟩
  · have total := handles file
    have before := balances.handles file
    omega

end Balances

end BackingStore

/-! ## The mappings of all processes -/

namespace Machine

variable {machine before after state : Machine} {pid other : Pid} {address place : VirtAddr}
  {mapping : Mapping} {base : FileId → Int}

/-- The addresses at which processes have pages of mappings, each with the mapping. -/
def allMappedPages (machine : Machine) : List ((Pid × VirtAddr) × Mapping) :=
  machine.spaces.keys.flatMap fun pid =>
    (machine.mappedPages pid).map fun entry => ((pid, entry.1), entry.2)

/-- The mappings of all processes, each as often as there are pages of it. -/
def liveMappings (machine : Machine) : List Mapping := machine.allMappedPages.map Prod.snd

theorem listed_allMappedPages (owned : machine.FramesOwned) :
    Listed machine.allMappedPages fun key => machine.mapping? key.1 key.2 := by
  refine ⟨?_, fun ⟨pid, address⟩ mapping => ?_⟩
  · rw [allMappedPages, List.Nodup, List.pairwise_flatMap]
    refine ⟨fun pid _ => (nodup_mappedPages owned pid).map ?_, ?_⟩
    · rintro ⟨_, _⟩ ⟨_, _⟩ same
      simp only [Prod.mk.injEq, true_and] at same ⊢
      exact same
    · refine Std.ExtTreeMap.nodup_keys.imp fun different entry left entry' right same => ?_
      obtain ⟨_, -, rfl⟩ := List.mem_map.1 left
      obtain ⟨_, -, rfl⟩ := List.mem_map.1 right
      exact different (congrArg (fun entry => entry.1.1) same)
  · rw [allMappedPages, List.mem_flatMap]
    constructor
    · rintro ⟨owner, -, member⟩
      obtain ⟨entry, listed, same⟩ := List.mem_map.1 member
      cases same
      exact (mem_mappedPages_iff owned).1 listed
    · intro mapped
      have listed : (address, mapping) ∈ machine.mappedPages pid :=
        (mem_mappedPages_iff owned).2 mapped
      refine ⟨pid, ?_, List.mem_map.2 ⟨(address, mapping), listed, rfl⟩⟩
      obtain ⟨page, registered, -⟩ := Option.bind_eq_some_iff.1 mapped
      obtain ⟨space, found, -⟩ := space_of_page? registered
      rw [Std.ExtTreeMap.mem_keys, Std.ExtTreeMap.mem_iff_isSome_getElem?, found]
      rfl

theorem mem_liveMappings_iff (owned : machine.FramesOwned) :
    mapping ∈ machine.liveMappings ↔
      ∃ pid address, machine.mapping? pid address = some mapping := by
  simp [liveMappings, (listed_allMappedPages owned).mem_iff]

theorem perm_liveMappings_of_same (ownedBefore : before.FramesOwned)
    (ownedAfter : after.FramesOwned)
    (same : ∀ pid address, after.mapping? pid address = before.mapping? pid address) :
    after.liveMappings.Perm before.liveMappings := by
  refine (listed_allMappedPages ownedBefore).perm_of_same ?_
  have listed := listed_allMappedPages ownedAfter
  simp only [same] at listed
  exact listed

/-- Pages of a mapping were added at addresses of a process where there was none. -/
theorem perm_liveMappings_of_added (pid : Pid) {addresses : List VirtAddr}
    (ownedBefore : before.FramesOwned) (ownedAfter : after.FramesOwned) (distinct : addresses.Nodup)
    (absent : ∀ address ∈ addresses, before.mapping? pid address = none)
    (added : ∀ other place, after.mapping? other place =
      if pid = other ∧ place ∈ addresses then some mapping else before.mapping? other place) :
    after.liveMappings.Perm (List.replicate addresses.length mapping ++ before.liveMappings) := by
  have keys : (addresses.map fun address => (pid, address)).Nodup :=
    distinct.map fun _ _ same => congrArg Prod.snd same
  have perm := Listed.perm_of_appended mapping (listed_allMappedPages ownedBefore)
    (listed_allMappedPages ownedAfter) keys ?_ ?_
  · rwa [List.length_map] at perm
  · intro key member
    obtain ⟨address, listed, rfl⟩ := List.mem_map.1 member
    exact absent address listed
  · rintro ⟨other, place⟩
    rw [added]
    simp [eq_comm, and_comm]

/-- The store refers to the mappings of all processes as often as there are pages of them, and to no
other, and has one handle for each of them, next to a number of other handles. -/
def Balanced (machine : Machine) (base : FileId → Int) : Prop :=
  machine.store.Balances base machine.liveMappings

theorem Balanced.congr (balanced : before.Balanced base) (soundBefore : before.FramesOwned)
    (soundAfter : after.FramesOwned) (keeps : before.store.KeepsReferences after.store)
    (same : ∀ pid address, after.mapping? pid address = before.mapping? pid address) :
    after.Balanced base :=
  (BackingStore.Balances.congr balanced keeps).perm
    (perm_liveMappings_of_same soundBefore soundAfter same).symm

/-- Handles are opened or closed from outside. -/
theorem Balanced.withFiles {files : FileStore} {other : FileId → Int}
    (balanced : before.Balanced base) (sound : before.Sound)
    (fileCount : files.inodes.size = before.store.files.inodes.size)
    (handles : ∀ file, (files.handles file : Int) - before.store.files.handles file =
      other file - base file) :
    Balanced { before with store := { before.store with files } } other := by
  have step : Step .outside before { before with store := { before.store with files } } :=
    .outside rfl rfl fileCount
  have rebased : BackingStore.Balances { before.store with files } other before.liveMappings :=
    balanced.rebase rfl (fun _ known => ⟨Nat.lt_of_lt_of_eq known.file fileCount.symm, known.id⟩)
      handles
  exact rebased.perm (perm_liveMappings_of_same sound.frames (step.sound sound).frames
    fun _ _ => rfl).symm

/-- A page of a mapping was added where there was none. -/
theorem perm_liveMappings_of_added_page (pid : Pid) (address : VirtAddr)
    (ownedBefore : before.FramesOwned) (ownedAfter : after.FramesOwned)
    (absent : before.mapping? pid address = none)
    (added : ∀ other place, after.mapping? other place =
      if pid = other ∧ address = place then some mapping else before.mapping? other place) :
    after.liveMappings.Perm (mapping :: before.liveMappings) := by
  refine perm_liveMappings_of_added pid ownedBefore ownedAfter (List.nodup_singleton address)
    (by simpa using absent) fun other place => ?_
  rw [added]
  simp [eq_comm]

end Machine

open Machine

/-! ## Steps -/

section Steps

variable {before after : Machine} {move : Move} {base : FileId → Int}

theorem Step.balanced (step : Step move before after) (sound : before.Sound)
    (keeps : move.KeepsReferences) (balanced : before.Balanced base) : after.Balanced base := by
  have ownedAfter := step.framesOwned sound.frames
  cases step.referenceChange sound keeps with
  | still lookup store => exact balanced.congr sound.frames ownedAfter store lookup
  | @dropped _ _ pid address mapping gone mapped lookup store dropped =>
      have perm : before.liveMappings.Perm (mapping :: after.liveMappings) := by
        refine perm_liveMappings_of_added_page pid address ownedAfter sound.frames
          (by rw [lookup, if_pos ⟨rfl, rfl⟩]) fun other place => ?_
        rw [lookup]
        split
        case isTrue here => rw [← here.1, ← here.2, mapped]
        case isFalse => rfl
      exact ((BackingStore.Balances.congr balanced store).perm perm).drop dropped

theorem Path.balanced {allowed : Move → Prop} (path : Path allowed before after)
    (sound : before.Sound) (keeps : ∀ move, allowed move → move.KeepsReferences)
    (balanced : before.Balanced base) : after.Balanced base :=
  path.keeps_of_sound (fun state => state.Balanced base) sound balanced
    fun move _ _ allow step soundMiddle => step.balanced soundMiddle (keeps move allow)

end Steps

namespace Move

variable {move : Move} {pid : Pid} {address : VirtAddr}

theorem Exits.keepsReferences (exits : move.Exits pid) : move.KeepsReferences := by
  cases move with
  | remove _ _ _ | leave _ => simp [Move.KeepsReferences]
  | _ => exact exits.elim

theorem Unmaps.keepsReferences (unmaps : move.Unmaps pid) : move.KeepsReferences := by
  obtain ⟨address, rfl⟩ := unmaps
  simp [Move.KeepsReferences]

theorem Fills.keepsReferences (fills : move.Fills pid address) : move.KeepsReferences :=
  have keeps := fills.keepsAccount pid
  ⟨keeps.1, keeps.2.1, fun other place => (fills.keepsMappings other place).1⟩

theorem IsUnseen.keepsReferences (unseen : move.IsUnseen) : move.KeepsReferences := by
  cases move with
  | upkeep | pageOut _ | pageIn _ _ _ _ _ => simp [Move.KeepsReferences]
  | _ => exact unseen.elim

theorem Registers.keepsReferences (registers : move.Registers pid) : move.KeepsReferences := by
  rcases registers with unseen | ⟨address, rfl⟩
  · exact unseen.keepsReferences
  · simp [Move.KeepsReferences]

theorem Accesses.keepsReferences {write : Bool} (accesses : move.Accesses pid write) :
    move.KeepsReferences := by
  rcases accesses with registers | ⟨address, rfl⟩
  · exact registers.keepsReferences
  · simp [Move.KeepsReferences]

theorem Writes.keepsReferences (writes : move.Writes pid) : move.KeepsReferences := by
  rcases writes with accesses | ⟨address, kind, rfl⟩
  · exact accesses.keepsReferences
  · simp [Move.KeepsReferences]

end Move

/-! ## Removing pages -/

/-- If a fault is over a mapping, it is that a handle was closed which was closed from outside
before. -/
def Fault.LacksHandle (base : FileId → Int) (fault : Fault) : Prop :=
  fault.isMappingFault = true → fault = .handleClosedTwice ∧ ∃ file, base file < 0

theorem Fault.SparesMappings.lacksHandle {fault : Fault} (spares : fault.SparesMappings)
    (base : FileId → Int) : fault.LacksHandle base := by
  intro overMapping
  rw [spares] at overMapping
  cases overMapping

theorem BackingStore.stops_drop (mapping : Mapping) (store : BackingStore) :
    (drop mapping store).Ends (fun _ _ => True) (fun _ _ => True)
      (fun fault => fault = .handleClosedTwice ∧ store.files.handles mapping.file = 0) := by
  simp only [drop, Action.ends_bind, Action.ends_get]
  cases store.references[mapping.id]? with
  | none => trivial
  | some count =>
      dsimp only
      split
      · simp only [onFiles, FileStore.closeHandle, FileStore.inode, Action.ends_bind,
          Action.ends_set, Action.ends_onPart, Action.ends_require]
        refine ⟨fun inode found => ?_, fun _ => trivial⟩
        split
        case isTrue closed =>
          refine ⟨rfl, ?_⟩
          rw [FileStore.handles, found]
          exact closed
        case isFalse => trivial
      · trivial

namespace Machine

variable {before after state : Machine} {pid other : Pid} {address : VirtAddr} {page : Page}
  {mapping : Mapping} {base : FileId → Int}

/-- A page that is removed finds the handle of its mapping, unless that was closed from outside. -/
theorem Balanced.stops_forget {store : BackingStore} (balanced : state.Balanced base)
    (owned : state.FramesOwned) (registered : state.page? pid address = some page)
    (keeps : state.store.KeepsReferences store) :
    (page.forget store).Ends (fun _ _ => True) (fun _ _ => True)
      (fun fault => fault = .handleClosedTwice ∧ ∃ file, base file < 0) := by
  unfold Page.forget
  cases belongs : page.mapping? with
  | none => trivial
  | some mapping =>
      refine (store.stops_drop mapping).imp (fun _ _ _ => trivial) (fun _ _ _ => trivial) ?_
      rintro fault ⟨rfl, none⟩
      refine ⟨rfl, mapping.file, ?_⟩
      have live : mapping ∈ state.liveMappings :=
        (mem_liveMappings_iff owned).2 ⟨pid, address, by rw [mapping?, registered]; exact belongs⟩
      have counted : 0 < Mapping.countOf state.liveMappings mapping.file :=
        List.countP_pos_iff.2 ⟨mapping, List.mem_dedup.2 live, by simp⟩
      have handles := BackingStore.Balances.handles balanced mapping.file
      rw [← keeps.handles, none] at handles
      omega

theorem Balanced.stops_destroyPage {space : AddressSpace}
    {spaces : Std.ExtTreeMap Pid AddressSpace}
    (balanced : ({ state with spaces } : Machine).Balanced base)
    (sound : ({ state with spaces } : Machine).Sound) (found : spaces[pid]? = some space)
    (registered : space.pages.at? page.address = some page) :
    (destroyPage space.table page state).Ends (fun _ _ => True) (fun _ _ => True)
      (Fault.LacksHandle base) := by
  refine (ends_destroyPage_of_parts _ sound found registered ?_ fun backing store gaveUp => ?_).imp
    (fun _ _ _ => trivial) (fun _ _ no => no.elim) (fun _ stopped => stopped)
  · exact ((page.backing.spares_giveUp page.address _ _).ends state.store).imp
      (fun _ _ _ => trivial) (fun _ _ _ => trivial) (fun _ stopped => stopped.lacksHandle base)
  · have known : ({ state with spaces } : Machine).page? pid page.address = some page :=
      (page?_of_space found page.address).trans registered
    exact (balanced.stops_forget sound.frames known (.of_giveUp gaveUp)).imp (fun _ _ done => done)
      (fun _ _ failed => failed) (fun _ stopped _ => stopped)

/-- A page of a mapping is removed unless something stops the removal of the page. -/
theorem stops_unmapPage_of_destroyPage {stops : Fault → Prop} (sound : state.Sound)
    (registered : state.page? pid address = some page) (mapping : Mapping)
    (destroys : ∀ space, state.spaces[pid]? = some space →
      space.pages.at? page.address = some page →
      (destroyPage space.table page state).Ends (fun _ _ => True) (fun _ _ => True) stops) :
    (unmapPage pid mapping address state).Ends (fun _ _ => True) (fun _ _ => True) stops := by
  obtain ⟨space, found, atAddress⟩ := space_of_page? registered
  obtain ⟨rfl, aligned⟩ := sound.frames.located registered
  have whole := Address.pageDown_eq_self_iff.2 aligned
  simp only [unmapPage, Machine.space, setSpace, Action.ends_bind, Action.ends_require]
  refine ⟨fun target isSpace => ?_, fun _ => trivial⟩
  rw [found, Option.some.injEq] at isSpace
  subst isSpace
  rw [PageRegistry.find?_eq_at?, whole, atAddress]
  simp only [Action.ends_bind, Action.ends_modify]
  exact destroys space found atAddress

theorem Balanced.stops_unmapPage (balanced : state.Balanced base) (sound : state.Sound)
    (registered : state.page? pid address = some page) (mapping : Mapping) :
    (unmapPage pid mapping address state).Ends (fun _ _ => True) (fun _ _ => True)
      (Fault.LacksHandle base) :=
  stops_unmapPage_of_destroyPage sound registered mapping fun _ found atAddress =>
    balanced.stops_destroyPage sound found atAddress

/-! ## Operations -/

theorem mapping?_of_path {allowed : Move → Prop} (path : Path allowed before after)
    (sound : before.Sound) (keeps : ∀ move, allowed move → move.KeepsMappings pid)
    (address : VirtAddr) : after.mapping? pid address = before.mapping? pid address := by
  rw [mapping?_eq_map, region?_of_path path sound keeps, mapping?_eq_map]

namespace MapsFile

variable {offset length : Nat}

theorem mapping?_inside (maps : before.MapsFile pid offset length mapping after)
    (covered : mapping.Covers address) : after.mapping? pid address = some mapping := by
  obtain ⟨index, hasPage⟩ := covered
  rw [mapping?_eq_map, maps.inside index address hasPage]
  rfl

theorem mapping?_outside (maps : before.MapsFile pid offset length mapping after)
    (sound : before.Sound) (elsewhere : ¬(other = pid ∧ mapping.Covers address)) :
    after.mapping? other address = before.mapping? other address := by
  by_cases same : other = pid
  · subst same
    rw [mapping?_eq_map, maps.outside address fun covers => elsewhere ⟨rfl, covers⟩,
      mapping?_eq_map]
  · exact mapping?_of_path maps.path sound (fun _ allow => allow.keepsMappings same) address

theorem pageCount_pos (maps : before.MapsFile pid offset length mapping after) :
    0 < mapping.pageCount := by
  have positive := maps.positive
  rw [maps.count]
  simp only [pageSize]
  omega

/-- A mapped file has a handle for its mapping, which is referred to by each of its pages. -/
theorem balanced (maps : before.MapsFile pid offset length mapping after) (sound : before.Sound)
    (balanced : before.Balanced base) : after.Balanced base := by
  have soundAfter := maps.path.sound sound
  let range : PageRange := ⟨mapping.start, mapping.pageCount,
    Nat.le_trans maps.belowKernel (by decide)⟩
  have covered (place : VirtAddr) : mapping.Covers place ↔ place ∈ range.toList :=
    covers_iff_mem_toList rfl rfl
  have perm : after.liveMappings.Perm
      (List.replicate range.toList.length mapping ++ before.liveMappings) := by
    refine perm_liveMappings_of_added pid sound.frames soundAfter.frames (nodup_rangeToList range)
      (fun place listed => ?_) fun other place => ?_
    · rw [mapping?_eq_map, maps.vacant place ((covered place).2 listed)]
      rfl
    · split
      case isTrue here =>
        obtain ⟨rfl, listed⟩ := here
        exact maps.mapping?_inside ((covered place).2 listed)
      case isFalse elsewhere =>
        exact maps.mapping?_outside sound fun both =>
          elsewhere ⟨both.1.symm, (covered place).1 both.2⟩
  rw [PageRange.length_toList] at perm
  exact (BackingStore.Balances.create balanced maps.pageCount_pos maps.made).perm perm.symm

end MapsFile

namespace UnmapsFile

theorem mapping?_inside (unmaps : before.UnmapsFile pid mapping after)
    (covered : mapping.Covers address) : after.mapping? pid address = none := by
  rw [mapping?_eq_map, unmaps.inside address covered]
  rfl

theorem mapping?_outside (unmaps : before.UnmapsFile pid mapping after) (sound : before.Sound)
    (elsewhere : ¬(other = pid ∧ mapping.Covers address)) :
    after.mapping? other address = before.mapping? other address := by
  by_cases same : other = pid
  · subst same
    rw [mapping?_eq_map, unmaps.outside address fun covers => elsewhere ⟨rfl, covers⟩,
      mapping?_eq_map]
  · exact mapping?_of_path unmaps.path sound (fun _ allow => allow.keepsMappings same) address

theorem balanced (unmaps : before.UnmapsFile pid mapping after) (sound : before.Sound)
    (balanced : before.Balanced base) : after.Balanced base :=
  unmaps.path.balanced sound (fun _ unmaps => unmaps.keepsReferences) balanced

/-- After the last page of a mapping it is referred to no more. -/
theorem referenceCount_eq_zero (unmaps : before.UnmapsFile pid mapping after)
    (sound : before.Sound) (whole : before.MappingsWhole pid) (balanced : before.Balanced base) :
    after.store.referenceCount mapping.id = 0 := by
  have ownedAfter := (unmaps.path.sound sound).frames
  rw [BackingStore.referenceCount, Std.ExtTreeMap.getD_eq_fallback]
  intro referred
  obtain ⟨other, live, sameId⟩ := (unmaps.balanced sound balanced).only _ referred
  obtain ⟨owner, place, mapped⟩ := (mem_liveMappings_iff ownedAfter).1 live
  by_cases here : owner = pid ∧ mapping.Covers place
  · obtain ⟨rfl, covers⟩ := here
    rw [unmaps.mapping?_inside covers] at mapped
    cases mapped
  · rw [unmaps.mapping?_outside sound here] at mapped
    obtain ⟨rfl, rfl⟩ := sound.apart _ _ _ _ _ _ mapped unmaps.known sameId
    exact here ⟨rfl, (whole.members mapped).2.1⟩

end UnmapsFile

theorem UnmapStops.lacksHandle {fault : Fault}
    (stopped : before.UnmapStops pid (Fault.LacksHandle base) fault) (sound : before.Sound)
    (whole : before.MappingsWhole pid) (balanced : before.Balanced base) :
    fault.LacksHandle base := by
  cases stopped with
  | overflow => exact (Fault.sparesMappings_of_isOverflow rfl).lacksHandle base
  | page stopped => exact stopped
  | referenced unmaps left =>
      exact absurd left (Nat.not_lt.2 (Nat.le_of_eq (unmaps.referenceCount_eq_zero sound whole
        balanced)))

/-- What stops the removal of one page of a mapping, after others were removed. -/
theorem Balanced.stops_pages (balanced : before.Balanced base) (sound : before.Sound)
    (state : Machine) (place : VirtAddr) (page : Page) (mapping : Mapping)
    (path : Path (Move.Unmaps pid) before state) (registered : state.page? pid place = some page)
    (_ : page.mapping? = some mapping) :
    (unmapPage pid mapping place state).Ends (fun _ _ => True) (fun _ _ => True)
      (Fault.LacksHandle base) :=
  (path.balanced sound (fun _ unmaps => unmaps.keepsReferences) balanced).stops_unmapPage
    (path.sound sound) registered mapping

/-- A process that is removed finds the handles of its mappings, unless those were closed from
outside. -/
theorem ends_exit_balanced (sound : before.Sound) (balanced : before.Balanced base) (pid : Pid) :
    (exit pid before).Ends (fun _ after => after.Balanced base ∧
        Path (Move.Exits pid) before after ∧ after.spaces[pid]? = none)
      (fun _ _ => False) (Fault.LacksHandle base) := by
  refine ((ends_exit sound pid).and (ends_exit_of_pages _ (fun _ _ => True) sound pid trivial
    (fun _ _ _ _ _ _ _ _ => trivial) fun state space page _ path registered _ => ?_)).imp ?_
      (fun _ _ no => no.1) (fun _ stopped => stopped.2)
  · have found : (before.spaces.insert pid space)[pid]? = some space := by simp
    have balancedNow := path.balanced sound (fun _ exits => exits.keepsReferences) balanced
    exact balancedNow.stops_destroyPage (path.sound sound) found registered
  · rintro _ after ⟨left, -⟩
    exact ⟨left.1.balanced sound (fun _ exits => exits.keepsReferences) balanced, left⟩

/-! ## Copying a process -/

section Copies

variable {origin : Machine} {child parent : Pid} {copies more : MappingCopies}

/-- A page of the copy of a mapping comes with a reference. -/
theorem CopyRound.balanced (round : origin.CopyRound child parent copies address state more after)
    (sound : state.Sound) (vacant : state.page? child address = none)
    (balanced : state.Balanced base) : after.Balanced base := by
  cases round with
  | filled registered path copied =>
      exact path.balanced sound (fun _ fills => fills.keepsReferences) balanced
  | @mapped page region mapping middle _ answer registered ofFile result step pages =>
      have soundMiddle := result.step.sound sound
      have listed : middle.store.Balances base (mapping :: state.liveMappings) := by
        rcases result.referred with ⟨member, retained⟩ | made
        · refine BackingStore.Balances.retain balanced ?_ retained
          obtain ⟨place, mapped⟩ := (mem_mappings_iff sound.frames).1 member
          exact (mem_liveMappings_iff sound.frames).2 ⟨child, place, mapped⟩
        · exact BackingStore.Balances.create balanced Nat.one_pos made
      rw [Balanced, step.store_of_register]
      refine listed.perm (perm_liveMappings_of_added_page child address sound.frames
        (step.sound soundMiddle).frames ?_ fun other place => ?_).symm
      · show state.mapping? child address = none
        rw [mapping?, vacant]
        rfl
      · rw [mapping?, pages]
        split
        · rfl
        · have same := region?_of_step result.step sound.frames (by simp [Move.KeepsMappings] :
            Move.KeepsMappings other .refer) place
          rw [← mapping?, mapping?_eq_map, same, mapping?_eq_map]

theorem ends_copyPages_balanced {space : AddressSpace} (sound : before.Sound)
    (whole : before.MappingsWhole parent) (different : parent ≠ child)
    (found : before.spaces[parent]? = some space) (step : Step (.arrive child) before state)
    (balanced : state.Balanced base) :
    (copyPages child parent state).Ends (fun _ after => after.Balanced base)
      (fun _ after => after.Balanced base) Fault.SparesMappings := by
  have begun := Copying.begin sound found step
  have same : state.spaces[parent]? = some space := by
    cases step with
    | arrive => rw [spaces_insert rfl, if_neg (Ne.symm different), found]
  simp only [copyPages, Action.ends_bind, Machine.space, Action.ends_require]
  refine ⟨fun target isSpace => ?_, fun missing => by rw [same] at missing; cases missing⟩
  rw [same, Option.some.injEq] at isSpace
  subst isSpace
  have loop : ((space.pages.toList.map Page.address).foldlM (copyPage child parent) ∅ state).Ends
      (fun copies after => before.Copying child parent [] copies after ∧ after.Balanced base)
      (fun _ after => after.Balanced base) Fault.SparesMappings := by
    apply Action.ends_foldlM fun rest copies state =>
      before.Copying child parent rest copies state ∧ state.Balanced base
    · rintro address rest copies reached ⟨copying, balancedNow⟩
      have soundNow := copying.path.sound sound
      refine (((ends_copyPage sound whole different copying).and
        (ends_copyPage_round sound different copying)).and
        ((spares_copyPage child parent copies address).ends reached)).imp ?_ ?_
        (fun _ stopped => stopped.2)
      · intro more after result
        obtain ⟨⟨copyingNext, round⟩, -⟩ := result
        exact ⟨copyingNext, round.balanced soundNow (copying.vacant address
          (.inl List.mem_cons_self)) balancedNow⟩
      · intro _ after result
        obtain ⟨⟨-, path⟩, -⟩ := result
        exact path.balanced soundNow (fun _ fills => fills.keepsReferences) balancedNow
    · exact ⟨begun, balanced⟩
  exact loop.imp (fun _ _ result => result.2) (fun _ _ balanced => balanced)
    (fun _ stopped => stopped)

/-- The copy of a process has a handle for each of its mappings. A copy that fails closes those it
had. -/
theorem ends_fork_balanced (sound : before.Sound) (whole : ∀ pid, before.MappingsWhole pid)
    (balanced : before.Balanced base) (parent : Pid) :
    (fork parent before).Ends (fun _ after => after.Balanced base)
      (fun _ after => after.Balanced base) (Fault.LacksHandle base) := by
  have spares {fault : Fault} (spares : fault.SparesMappings) := spares.lacksHandle base
  unfold fork
  rw [Action.ends_bind, space, Action.ends_require]
  refine ⟨fun space found => ?_, fun _ => balanced⟩
  have different : parent ≠ ⟨before.nextPid⟩ := by
    rintro rfl
    exact Nat.lt_irrefl _ (sound.frames.spaces _ space found).2
  rw [Action.ends_bind]
  refine ((ends_createProcess before).and (spares_createProcess.ends before)).imp ?_
    (fun _ _ no => no.1.elim) (fun _ stopped => spares stopped.2)
  intro child created result
  obtain ⟨⟨rfl, arrive, -⟩, -⟩ := result
  have balancedCreated := arrive.balanced sound (by simp [Move.KeepsReferences]) balanced
  rw [Action.ends_bind, Action.ends_attempt]
  refine ((ends_copyPages sound (whole parent) different found arrive).and
    (ends_copyPages_balanced sound (whole parent) different found arrive balancedCreated)).imp ?_ ?_
    (fun _ stopped => spares stopped.2)
  · intro _ copied result
    obtain ⟨⟨copies, copying⟩, balancedCopied⟩ := result
    have soundCopied := copying.path.sound sound
    dsimp only
    rw [Action.ends_bind, Machine.space, Action.ends_require]
    refine ⟨fun source _ => ?_, fun _ => balancedCopied⟩
    rw [Action.ends_bind]
    refine (ends_setStackPointer copied ⟨before.nextPid⟩ source.stackPointer).imp ?_ ?_
      (fun _ no => no.elim)
    · intro _ after result
      exact result.1.balanced soundCopied (by simp [Move.KeepsReferences]) balancedCopied
    · intro _ after result
      rw [result.1]
      exact balancedCopied
  · intro error failed result
    obtain ⟨copyFailed, balancedFailed⟩ := result
    dsimp only
    rw [Action.ends_bind]
    exact (ends_exit_balanced (copyFailed.path.sound sound) balancedFailed _).imp
      (fun _ _ left => left.1) (fun _ _ no => no.elim) (fun _ stopped => stopped)

end Copies

end Machine

/-! ## Events -/

namespace Event

variable {before after : Machine} {base : FileId → Int}

/-- An event changes no open handle from outside. -/
def KeepsHandles : Event → Prop
  | changeFiles change => ∀ file inode, (change file inode).handles = inode.handles
  | _ => True

/-- An operation that makes, refers to and removes no mapping keeps the balance. -/
theorem ends_balanced_of_takes {Value : Type} {action : Action Machine Value}
    {allowed : Move → Prop} (takes : action.Takes allowed) (spares : action.SparesMappings)
    (keeps : ∀ move, allowed move → move.KeepsReferences) (sound : before.Sound)
    (balanced : before.Balanced base) :
    (action before).Ends (fun _ after => after.Balanced base) (fun _ after => after.Balanced base)
      (Fault.LacksHandle base) :=
  ((takes.ends before sound).and (spares.ends before)).imp
    (fun _ _ path => path.1.balanced sound keeps balanced)
    (fun _ _ path => path.1.balanced sound keeps balanced)
    (fun _ stopped => stopped.2.lacksHandle base)

theorem handles_changeFiles {files : FileStore} {change : FileId → Inode → Inode} (file : FileId)
    (keeps : ∀ file inode, (change file inode).handles = inode.handles) :
    (⟨files.inodes.mapIdx change⟩ : FileStore).handles file = files.handles file := by
  unfold FileStore.handles
  rw [Array.getElem?_mapIdx]
  cases files.inodes[file]? with
  | none => rfl
  | some inode => simp [keeps]

/-- Every event keeps the balance, unless it changes handles from outside. No event stops the
machine over a mapping, unless a handle was closed from outside. -/
theorem ends_balanced (event : Event) (keepsHandles : event.KeepsHandles) (sound : before.Sound)
    (whole : ∀ pid, before.MappingsWhole pid) (balanced : before.Balanced base) :
    (event.perform before).Ends (fun _ after => after.Balanced base)
      (fun _ after => after.Balanced base) (Fault.LacksHandle base) := by
  have overflows {fault : Fault} (overflow : fault.isOverflow = true) : fault.LacksHandle base :=
    (Fault.sparesMappings_of_isOverflow overflow).lacksHandle base
  cases event with
  | createProcess =>
      show ((Machine.createProcess >>= fun _ => pure ()) before).Ends _ _ _
      rw [Action.ends_bind]
      refine ((ends_createProcess before).and (spares_createProcess.ends before)).imp ?_
        (fun _ _ no => no.1.elim) (fun _ stopped => stopped.2.lacksHandle base)
      intro pid after result
      exact result.1.2.1.balanced sound (by simp [Move.KeepsReferences]) balanced
  | fork parent =>
      show ((Machine.fork parent >>= fun _ => pure ()) before).Ends _ _ _
      rw [Action.ends_bind]
      exact ends_fork_balanced sound whole balanced parent
  | exit pid =>
      exact (ends_exit_balanced sound balanced pid).imp (fun _ _ left => left.1)
        (fun _ _ no => no.elim) (fun _ stopped => stopped)
  | registerPage pid address writable marker loader =>
      exact ends_balanced_of_takes (takes_registerPage pid address writable marker loader)
        (spares_registerPage ..) (fun _ registers => registers.keepsReferences) sound balanced
  | makeResident pid address =>
      exact ends_balanced_of_takes (takes_makeResident pid address) (spares_makeResident ..)
        (fun _ unseen => unseen.keepsReferences) sound balanced
  | handleFault pid reason =>
      exact ends_balanced_of_takes (takes_handleFault pid reason) (spares_handleFault ..)
        (fun _ registers => registers.keepsReferences) sound balanced
  | mapFile pid address length writable file offset =>
      show ((Machine.mapFile pid address length writable file offset >>= fun _ => pure ())
        before).Ends _ _ _
      rw [Action.ends_bind]
      refine (ends_mapFile_mapsFile sound address length writable file offset).imp ?_ ?_
        (fun _ => overflows)
      · rintro _ after ⟨-, mapping, -, -, maps⟩
        exact maps.balanced sound balanced
      · rintro _ after rfl
        exact balanced
  | unmapFile pid address =>
      refine (ends_unmapFile_unmapsFile _ sound (whole pid) address
        (balanced.stops_pages sound)).imp ?_ ?_
        (fun _ stopped => stopped.lacksHandle sound (whole pid) balanced)
      · rintro _ after ⟨mapping, -, unmaps⟩
        exact unmaps.balanced sound balanced
      · rintro _ after rfl
        exact balanced
  | mmapCall pid word length writable file? offset =>
      show ((Machine.mmapCall pid word length writable file? offset >>= fun _ => pure ())
        before).Ends _ _ _
      rw [Action.ends_bind]
      refine (ends_mmapCall_mapsFile sound word length writable file? offset).imp ?_
        (fun _ _ no => no.elim) (fun _ => overflows)
      rintro _ after (⟨file, mapping, -, -, -, -, maps⟩ | ⟨-, rfl⟩)
      · exact maps.balanced sound balanced
      · exact balanced
  | munmapCall pid word =>
      show ((Machine.munmapCall pid word >>= fun _ => pure ()) before).Ends _ _ _
      rw [Action.ends_bind]
      refine (ends_munmapCall_unmapsFile _ sound (whole pid) word
        (balanced.stops_pages sound)).imp ?_ (fun _ _ no => no.elim)
        (fun _ stopped => stopped.lacksHandle sound (whole pid) balanced)
      rintro _ after (⟨address, mapping, -, -, -, unmaps⟩ | ⟨-, rfl⟩)
      · exact unmaps.balanced sound balanced
      · exact balanced
  | loadSegment pid file segment =>
      exact ends_balanced_of_takes (takes_loadSegment pid file segment) (spares_loadSegment ..)
        (fun _ registers => registers.keepsReferences) sound balanced
  | setUpStack pid =>
      refine ends_balanced_of_takes ((takes_setUpStack pid).bind fun _ => .pure ())
        ((spares_setUpStack pid).bind fun _ => .pure _) ?_ sound balanced
      rintro move (registers | rfl)
      · exact registers.keepsReferences
      · simp [Move.KeepsReferences]
  | readUser pid address length =>
      exact ends_balanced_of_takes ((takes_fetchUser pid address length).bind fun _ => .pure ())
        ((spares_fetchUser ..).bind fun _ => .pure _) (fun _ accesses => accesses.keepsReferences)
        sound balanced
  | writeUser pid address data =>
      exact ends_balanced_of_takes (takes_writeUser pid address data) (spares_writeUser ..)
        (fun _ writes => writes.keepsReferences) sound balanced
  | setStackPointer pid stackPointer =>
      refine ends_balanced_of_takes (takes_setStackPointer pid stackPointer)
        (spares_setStackPointer ..) ?_ sound balanced
      rintro _ rfl
      simp [Move.KeepsReferences]
  | access pid address write =>
      refine ends_balanced_of_takes ((takes_access pid address write).bind fun _ => .pure ())
        ((spares_access ..).bind fun _ => .pure _) ?_ sound balanced
      rintro _ rfl
      simp [Move.KeepsReferences]
  | changeDisk unreadable unwritable =>
      have path : Path (· = .outside) before _ :=
        (takes_changeDisk unreadable unwritable).ends before sound
      exact balanced.congr sound.frames (path.sound sound).frames
        ⟨rfl, fun _ => rfl, fun _ known => ⟨known.file, known.id⟩⟩ fun _ _ => rfl
  | changeFiles change =>
      refine Machine.Balanced.withFiles balanced sound (Array.size_mapIdx ..) fun file => ?_
      rw [handles_changeFiles file keepsHandles]
      omega
  | changeWorld world =>
      have path : Path (· = .outside) before _ := (takes_changeWorld world).ends before sound
      exact balanced.congr sound.frames (path.sound sound).frames
        ⟨rfl, fun _ => rfl, fun _ known => ⟨known.file, known.id⟩⟩ fun _ _ => rfl

/-- Handles may be closed from outside; references stay as they are. -/
theorem exists_balanced_of_perform {event : Event} (sound : before.Sound)
    (whole : ∀ pid, before.MappingsWhole pid) (balanced : before.Balanced base)
    (leaves : (event.perform before).state? = some after) : ∃ base, after.Balanced base := by
  by_cases keeps : event.KeepsHandles
  · have ends := event.ends_balanced keeps sound whole balanced
    exact ⟨base, ends.leaves (fun _ _ balanced => balanced) (fun _ _ balanced => balanced) after
      leaves⟩
  · cases event with
    | changeFiles change =>
        cases leaves
        let files : FileStore := ⟨before.store.files.inodes.mapIdx change⟩
        refine ⟨fun file => base file + files.handles file - before.store.files.handles file,
          balanced.withFiles sound (Array.size_mapIdx ..) fun file => ?_⟩
        show (files.handles file : Int) - _ = _
        omega
    | _ => exact absurd trivial keeps

end Event

namespace Machine

variable {machine : Machine}

theorem balanced_create (settings : Settings) (frames : Nat) (disk : Disk) (files : FileStore) :
    (create settings (FramePool.create frames) disk files).Balanced
      fun file => files.handles file := by
  have none : (create settings (FramePool.create frames) disk files).liveMappings = [] := rfl
  refine ⟨none ▸ BackingStore.refers_nil _, fun id referred => ?_, fun file => ?_⟩
  · simp [create] at referred
  · rw [none]
    rfl

/-- In every reachable state a mapping is referred to as often as there are pages of it. -/
theorem Reachable.exists_balanced (reachable : machine.Reachable) :
    ∃ base, machine.Balanced base := by
  induction reachable with
  | start settings frames disk files => exact ⟨_, balanced_create settings frames disk files⟩
  | next reached event leaves inductionHypothesis =>
      obtain ⟨base, balanced⟩ := inductionHypothesis
      exact Event.exists_balanced_of_perform reached.sound reached.mappingsWhole balanced leaves

end Machine

end DemandPaging
