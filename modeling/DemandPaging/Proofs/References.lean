import DemandPaging.Proofs.FileContents
import DemandPaging.Proofs.Mappings
import Mathlib.Data.List.Dedup

/-!
References to mappings, and the handles that mappings have on files.

Owns:
- `BackingStore.Accounts`, the store refers to every mapping as often as it has pages, and has a
  handle on its file for every mapping;
- `Machine.Accounted`, this for the pages of one process;
- the operations of the store that add and drop a reference.

Main statements: `Accounts.create`, `Accounts.retain` and `Accounts.drop`, and `Path.accounted`, the
steps that remove pages keep the account.
-/

namespace DemandPaging

/-- The number of different mappings of a file among some. -/
def Mapping.countOf (mappings : List Mapping) (file : FileId) : Nat :=
  mappings.dedup.countP fun mapping => mapping.file = file

namespace Mapping

variable {mappings others : List Mapping} {mapping : Mapping} {file : FileId}

theorem countOf_perm (same : mappings.Perm others) : countOf mappings file = countOf others file :=
  same.dedup.countP_eq _

theorem countOf_cons_of_mem (member : mapping ∈ mappings) :
    countOf (mapping :: mappings) file = countOf mappings file := by
  rw [countOf, List.dedup_cons_of_mem member, countOf]

theorem countOf_cons_of_not_mem (other : mapping ∉ mappings) :
    countOf (mapping :: mappings) file =
      countOf mappings file + if mapping.file = file then 1 else 0 := by
  rw [countOf, List.dedup_cons_of_notMem other, List.countP_cons, countOf]
  simp

theorem countOf_replicate_append {count : Nat} (positive : 0 < count) (other : mapping ∉ mappings) :
    countOf (List.replicate count mapping ++ mappings) file =
      countOf mappings file + if mapping.file = file then 1 else 0 := by
  obtain ⟨more, rfl⟩ := Nat.exists_eq_succ_of_ne_zero (Nat.ne_of_gt positive)
  induction more with
  | zero => exact countOf_cons_of_not_mem other
  | succ more inductionHypothesis =>
      rw [List.replicate_succ, List.cons_append, countOf_cons_of_mem]
      · exact inductionHypothesis (Nat.succ_pos _)
      · simp

end Mapping

namespace BackingStore

variable {store after : BackingStore} {base : FileId → Nat} {live others : List Mapping}
  {mapping : Mapping}

/-- Every mapping that is listed was made of a file that exists, no two of them have one number, and
each is referred to as often as it is listed. -/
structure Refers (store : BackingStore) (live : List Mapping) : Prop where
  known : ∀ mapping ∈ live, store.Knows mapping
  distinct : ∀ left ∈ live, ∀ right ∈ live, left.id = right.id → left = right
  referred : ∀ mapping ∈ live, store.references[mapping.id]? = some (live.count mapping)

/-- Every mapping is referred to as often as it is listed, and has a handle on its file, next to a
number of other handles. -/
structure Accounts (store : BackingStore) (base : FileId → Nat) (live : List Mapping) : Prop
    extends store.Refers live where
  handles : ∀ file, store.files.handles file = base file + Mapping.countOf live file

/-! ## Operations on references -/

/-- A mapping that is made has the next number and a new handle on its file. -/
theorem of_createMapping {start : VirtAddr} {pageCount references : Nat} {file : FileId}
    (made : createMapping start pageCount file references store = .done mapping after) :
    mapping = ⟨store.nextMapping, start, pageCount, file⟩ ∧
      after.references = store.references.insert store.nextMapping references ∧
      ∀ other, after.files.handles other =
        store.files.handles other + if file = other then 1 else 0 := by
  obtain ⟨_, next, opened, rest⟩ := Action.bind_eq_done made
  cases rest
  unfold onFiles Action.onPart at opened
  dsimp only at opened
  split at opened
  case h_1 _ files ran =>
    cases opened
    exact ⟨rfl, rfl, (FileStore.of_openHandle ran).1⟩
  · cases opened
  · cases opened

/-- With the last reference to a mapping its handle is closed. -/
theorem of_drop {count : Nat} (counted : store.references[mapping.id]? = some count)
    (known : store.Knows mapping) (dropped : BackingStore.drop mapping store = .done () after) :
    (∀ other, store.Knows other → after.Knows other) ∧
      (count ≤ 1 ∧ after.references = store.references.erase mapping.id ∧
          (∀ file, store.files.handles file =
            after.files.handles file + if mapping.file = file then 1 else 0) ∨
        1 < count ∧ after.references = store.references.insert mapping.id (count - 1) ∧
          after.files = store.files) := by
  simp only [BackingStore.drop, Action.bind_apply, Action.get, counted] at dropped
  split at dropped
  case isTrue last =>
    obtain ⟨_, next, erased, closed⟩ := Action.bind_eq_done dropped
    cases erased
    unfold onFiles Action.onPart at closed
    dsimp only at closed
    split at closed
    case h_1 _ files ran =>
      cases closed
      have ends := FileStore.ends_closeHandle known.file
      rw [ran] at ends
      have sameCount : files.inodes.size = store.files.inodes.size := ends
      exact ⟨fun other also => ⟨sameCount ▸ also.file, also.id⟩,
        .inl ⟨last, rfl, (FileStore.of_closeHandle ran).1⟩⟩
    · cases closed
    · cases closed
  case isFalse more =>
    cases dropped
    exact ⟨fun other also => ⟨also.file, also.id⟩, .inr ⟨Nat.lt_of_not_le more, rfl, rfl⟩⟩

theorem refers_nil (store : BackingStore) : store.Refers [] := ⟨nofun, nofun, nofun⟩

theorem accounts_nil (store : BackingStore) : store.Accounts store.files.handles [] :=
  ⟨store.refers_nil, fun _ => rfl⟩

namespace Refers

theorem perm (refers : store.Refers live) (same : live.Perm others) : store.Refers others where
  known mapping member := refers.known mapping (same.mem_iff.2 member)
  distinct left leftMember right rightMember :=
    refers.distinct left (same.mem_iff.2 leftMember) right (same.mem_iff.2 rightMember)
  referred mapping member := by
    rw [refers.referred mapping (same.mem_iff.2 member), same.count_eq]

/-- A change that touches no reference. -/
theorem congr (refers : store.Refers live) (references : after.references = store.references)
    (knows : ∀ mapping, store.Knows mapping → after.Knows mapping) : after.Refers live where
  known mapping member := knows mapping (refers.known mapping member)
  distinct := refers.distinct
  referred := by rw [references]; exact refers.referred

/-- A mapping that is made is referred to as often as was asked for. -/
theorem create {start : VirtAddr} {pageCount references : Nat} {file : FileId}
    (refers : store.Refers live)
    (made : createMapping start pageCount file references store = .done mapping after) :
    mapping ∉ live ∧ after.Refers (List.replicate references mapping ++ live) := by
  have ends : (createMapping start pageCount file references store).Ends _ _ _ :=
    ends_createMapping
  rw [made] at ends
  obtain ⟨same, knows, keeps⟩ := ends
  have inserted := (of_createMapping made).2.1
  have newId : mapping.id = store.nextMapping := congrArg Mapping.id same
  have later : ∀ other ∈ live, other.id ≠ mapping.id := by
    intro other member equal
    have earlier := (refers.known other member).id
    rw [equal, newId] at earlier
    exact Nat.lt_irrefl _ earlier
  have fresh : mapping ∉ live := fun member => later _ member rfl
  refine ⟨fresh, ?_, ?_, ?_⟩
  · intro other member
    rcases List.mem_append.1 member with new | old
    · rw [List.eq_of_mem_replicate new]
      exact knows
    · have known := refers.known other old
      exact ⟨keeps.fileCount ▸ known.file, Nat.lt_of_lt_of_le known.id keeps.nextMapping⟩
  · intro left leftMember right rightMember sameId
    rcases List.mem_append.1 leftMember with new | old
    · rw [List.eq_of_mem_replicate new] at sameId ⊢
      rcases List.mem_append.1 rightMember with also | old
      · exact (List.eq_of_mem_replicate also).symm
      · exact absurd sameId.symm (later right old)
    · rcases List.mem_append.1 rightMember with new | also
      · rw [List.eq_of_mem_replicate new] at sameId
        exact absurd sameId (later left old)
      · exact refers.distinct left old right also sameId
  · intro other member
    rw [List.count_append, List.count_replicate, inserted, ← newId,
      Std.ExtTreeMap.getElem?_insert]
    rcases List.mem_append.1 member with new | old
    · rw [List.eq_of_mem_replicate new, List.count_eq_zero_of_not_mem fresh]
      simp
    · have different : mapping ≠ other := fun equal => fresh (equal ▸ old)
      have differentId : mapping.id ≠ other.id := fun equal => later other old equal.symm
      rw [if_neg (by simpa using differentId), if_neg (by simpa using different),
        refers.referred other old, Nat.zero_add]

/-- A mapping is referred to once more. -/
theorem retain (refers : store.Refers live) (member : mapping ∈ live)
    (retained : BackingStore.retain mapping store = .done () after) :
    after.Refers (mapping :: live) := by
  cases retained
  have listed {other : Mapping} (also : other ∈ mapping :: live) : other ∈ live := by
    rcases List.mem_cons.1 also with rfl | old
    · exact member
    · exact old
  refine ⟨fun other also => ?_, fun left leftMember right rightMember =>
    refers.distinct left (listed leftMember) right (listed rightMember), fun other also => ?_⟩
  · exact ⟨(refers.known other (listed also)).file, (refers.known other (listed also)).id⟩
  · dsimp only
    rw [Std.ExtTreeMap.getElem?_insert, referenceCount, Std.ExtTreeMap.getD_eq_getD_getElem?,
      refers.referred mapping member, List.count_cons]
    by_cases same : mapping = other
    · subst same
      simp
    · have differentId : mapping.id ≠ other.id :=
        fun equal => same (refers.distinct mapping member other (listed also) equal)
      rw [if_neg (by simpa using differentId), refers.referred other (listed also)]
      simp [same]

/-- A mapping is referred to once less. With the last reference its handle is closed. -/
theorem drop (refers : store.Refers (mapping :: live))
    (dropped : BackingStore.drop mapping store = .done () after) :
    after.Refers live ∧
      (∀ file, after.files.handles file + Mapping.countOf (mapping :: live) file =
        store.files.handles file + Mapping.countOf live file) ∧
      ∀ id ∈ after.references, id ∈ store.references ∧ (id = mapping.id → mapping ∈ live) := by
  have listed {other : Mapping} (old : other ∈ live) : other ∈ mapping :: live :=
    List.mem_cons_of_mem _ old
  have kept {other : Mapping} (old : other ∈ live) (different : mapping ≠ other) :
      mapping.id ≠ other.id ∧ store.references[other.id]? = some (live.count other) := by
    refine ⟨fun equal =>
      different (refers.distinct _ List.mem_cons_self _ (listed old) equal), ?_⟩
    rw [refers.referred other (listed old), List.count_cons_of_ne different]
  have counted := refers.referred mapping List.mem_cons_self
  rw [List.count_cons_self] at counted
  obtain ⟨knows, change⟩ := of_drop counted (refers.known mapping List.mem_cons_self) dropped
  have known (other : Mapping) (old : other ∈ live) := knows other (refers.known other (listed old))
  have distinct (left : Mapping) (leftMember : left ∈ live) (right : Mapping)
      (rightMember : right ∈ live) :=
    refers.distinct left (listed leftMember) right (listed rightMember)
  rcases change with ⟨last, erased, handles⟩ | ⟨more, inserted, files⟩
  · have gone : mapping ∉ live := List.count_eq_zero.1 (by omega)
    refine ⟨⟨known, distinct, fun other old => ?_⟩, fun file => ?_, fun id referred => ?_⟩
    · have different : mapping ≠ other := fun equal => gone (equal ▸ old)
      rw [erased, Std.ExtTreeMap.getElem?_erase, if_neg (by simpa using (kept old different).1)]
      exact (kept old different).2
    · rw [Mapping.countOf_cons_of_not_mem gone, handles file]
      omega
    · rw [erased, Std.ExtTreeMap.mem_erase] at referred
      refine ⟨referred.2, fun same => ?_⟩
      rw [same] at referred
      exact absurd Std.ReflCmp.compare_self referred.1
  · have also : mapping ∈ live := List.count_pos_iff.1 (by omega)
    refine ⟨⟨known, distinct, fun other old => ?_⟩, fun file => ?_, fun id referred =>
      ⟨?_, fun _ => also⟩⟩
    · rw [inserted, Std.ExtTreeMap.getElem?_insert]
      by_cases same : mapping = other
      · subst same
        simp
      · rw [if_neg (by simpa using (kept old same).1)]
        exact (kept old same).2
    · rw [files, Mapping.countOf_cons_of_mem also]
    · rw [inserted, Std.ExtTreeMap.mem_insert] at referred
      rcases referred with same | old
      · rw [← Std.LawfulEqCmp.eq_of_compare same, Std.ExtTreeMap.mem_iff_isSome_getElem?, counted]
        rfl
      · exact old

end Refers

namespace Accounts

theorem perm (accounts : store.Accounts base live) (same : live.Perm others) :
    store.Accounts base others where
  toRefers := accounts.toRefers.perm same
  handles file := by rw [accounts.handles, Mapping.countOf_perm same]

/-- A change that touches neither references nor handles. -/
theorem congr (accounts : store.Accounts base live)
    (references : after.references = store.references)
    (handles : ∀ file, after.files.handles file = store.files.handles file)
    (knows : ∀ mapping, store.Knows mapping → after.Knows mapping) :
    after.Accounts base live where
  toRefers := accounts.toRefers.congr references knows
  handles file := by rw [handles, accounts.handles]

/-- A mapping that is made is referred to as often as was asked for. -/
theorem create {start : VirtAddr} {pageCount references : Nat} {file : FileId}
    (accounts : store.Accounts base live) (positive : 0 < references)
    (made : createMapping start pageCount file references store = .done mapping after) :
    mapping ∉ live ∧ after.Accounts base (List.replicate references mapping ++ live) := by
  obtain ⟨fresh, refers⟩ := accounts.toRefers.create made
  obtain ⟨rfl, -, handles⟩ := of_createMapping made
  refine ⟨fresh, refers, fun other => ?_⟩
  rw [Mapping.countOf_replicate_append positive fresh, handles, accounts.handles, Nat.add_assoc]

/-- A mapping is referred to once more. -/
theorem retain (accounts : store.Accounts base live) (member : mapping ∈ live)
    (retained : BackingStore.retain mapping store = .done () after) :
    after.Accounts base (mapping :: live) := by
  refine ⟨accounts.toRefers.retain member retained, fun file => ?_⟩
  cases retained
  rw [Mapping.countOf_cons_of_mem member]
  exact accounts.handles file

/-- A mapping is referred to once less. -/
theorem drop (accounts : store.Accounts base (mapping :: live))
    (dropped : BackingStore.drop mapping store = .done () after) : after.Accounts base live := by
  obtain ⟨refers, handles, -⟩ := accounts.toRefers.drop dropped
  refine ⟨refers, fun file => ?_⟩
  have total := handles file
  rw [accounts.handles] at total
  omega

end Accounts

end BackingStore

/-! ## Lists of what is found -/

/-- The keys at which a lookup finds something, each with what it finds. -/
structure Listed {Key Value : Type} (entries : List (Key × Value)) (lookup : Key → Option Value) :
    Prop where
  nodup : entries.Nodup
  mem_iff : ∀ key value, (key, value) ∈ entries ↔ lookup key = some value

namespace Listed

variable {Key Value : Type} {entries others : List (Key × Value)}
  {lookup wider : Key → Option Value}

theorem perm_of_same (listed : Listed entries lookup) (also : Listed others lookup) :
    (others.map Prod.snd).Perm (entries.map Prod.snd) := by
  refine List.Perm.map _ ((List.perm_ext_iff_of_nodup also.nodup listed.nodup).2 fun entry => ?_)
  rw [also.mem_iff, listed.mem_iff]

/-- The same is found at more keys. -/
theorem perm_of_appended [DecidableEq Key] {keys : List Key} (value : Value)
    (listed : Listed entries lookup) (also : Listed others wider) (distinct : keys.Nodup)
    (absent : ∀ key ∈ keys, lookup key = none)
    (added : ∀ other, wider other = if other ∈ keys then some value else lookup other) :
    (others.map Prod.snd).Perm (List.replicate keys.length value ++ entries.map Prod.snd) := by
  have values : (keys.map fun key => (key, value)).map Prod.snd =
      List.replicate keys.length value := by
    rw [List.map_map]
    exact List.map_const' ..
  rw [← values, ← List.map_append]
  refine List.Perm.map Prod.snd ((List.perm_ext_iff_of_nodup also.nodup ?_).2 fun entry => ?_)
  · rw [List.nodup_append]
    refine ⟨distinct.map fun _ _ same => congrArg Prod.fst same, listed.nodup, ?_⟩
    rintro _ new entry old rfl
    obtain ⟨key, member, rfl⟩ := List.mem_map.1 new
    rw [listed.mem_iff, absent key member] at old
    cases old
  · obtain ⟨other, found⟩ := entry
    rw [also.mem_iff, List.mem_append, listed.mem_iff, added]
    by_cases new : other ∈ keys
    · simp [new, absent other new]
    · simp [new]

/-- Something is found at one more key. -/
theorem perm_of_added [DecidableEq Key] {key : Key} {value : Value} (listed : Listed entries lookup)
    (also : Listed others wider) (absent : lookup key = none)
    (added : ∀ other, wider other = if key = other then some value else lookup other) :
    (others.map Prod.snd).Perm (value :: entries.map Prod.snd) := by
  refine perm_of_appended value listed also (List.nodup_singleton key) (by simpa using absent) ?_
  intro other
  rw [added]
  simp [eq_comm]

end Listed

/-! ## The mappings of a process -/

namespace Machine

variable {machine before after : Machine} {pid : Pid} {address : VirtAddr} {mapping : Mapping}
  {base : FileId → Nat}

/-- The addresses at which a process has pages of mappings, each with the mapping. -/
def mappedPages (machine : Machine) (pid : Pid) : List (VirtAddr × Mapping) :=
  match machine.spaces[pid]? with
  | some space => space.pages.toList.filterMap fun page =>
      page.mapping?.map fun mapping => (page.address, mapping)
  | none => []

/-- The mappings of a process, each as often as the process has pages of it. -/
def mappings (machine : Machine) (pid : Pid) : List Mapping :=
  (machine.mappedPages pid).map Prod.snd

theorem mem_mappedPages_iff (owned : machine.FramesOwned) :
    (address, mapping) ∈ machine.mappedPages pid ↔
      machine.mapping? pid address = some mapping := by
  unfold mappedPages mapping? page?
  cases found : machine.spaces[pid]? with
  | none => simp
  | some space =>
      have sound := (owned.spaces pid space found).1
      dsimp only
      rw [List.mem_filterMap, Option.bind_some, Option.bind_eq_some_iff]
      constructor
      · rintro ⟨page, member, same⟩
        obtain ⟨_, belongs, equal⟩ := Option.map_eq_some_iff.1 same
        cases equal
        exact ⟨page, sound.mem_toList_iff.2 ⟨member, rfl⟩, belongs⟩
      · rintro ⟨page, registered, belongs⟩
        obtain ⟨member, rfl⟩ := sound.mem_toList_iff.1 registered
        exact ⟨page, member, by rw [belongs]; rfl⟩

theorem nodup_mappedPages (owned : machine.FramesOwned) (pid : Pid) :
    (machine.mappedPages pid).Nodup := by
  unfold mappedPages
  cases found : machine.spaces[pid]? with
  | none => exact List.nodup_nil
  | some space =>
      have distinct := List.pairwise_map.1 (owned.spaces pid space found).1.nodup_addresses
      refine List.pairwise_filterMap.2 (distinct.imp ?_)
      intro left right different _ atLeft _ atRight same
      obtain ⟨_, -, rfl⟩ := Option.map_eq_some_iff.1 atLeft
      obtain ⟨_, -, rfl⟩ := Option.map_eq_some_iff.1 atRight
      exact different (congrArg Prod.fst same)

theorem mem_mappings_iff (owned : machine.FramesOwned) :
    mapping ∈ machine.mappings pid ↔ ∃ address, machine.mapping? pid address = some mapping := by
  simp [mappings, ← mem_mappedPages_iff owned]

theorem listed_mappedPages (owned : machine.FramesOwned) (pid : Pid) :
    Listed (machine.mappedPages pid) (machine.mapping? pid) :=
  ⟨nodup_mappedPages owned pid, fun _ _ => mem_mappedPages_iff owned⟩

theorem perm_mappings_of_same (ownedBefore : before.FramesOwned) (ownedAfter : after.FramesOwned)
    (same : ∀ address, after.mapping? pid address = before.mapping? pid address) :
    (after.mappings pid).Perm (before.mappings pid) :=
  (listed_mappedPages ownedBefore pid).perm_of_same
    (funext same ▸ listed_mappedPages ownedAfter pid)

/-- A page of a mapping was added at an address where there was none. -/
theorem perm_mappings_of_added (address : VirtAddr) (ownedBefore : before.FramesOwned)
    (ownedAfter : after.FramesOwned) (absent : before.mapping? pid address = none)
    (added : ∀ place, after.mapping? pid place =
      if address = place then some mapping else before.mapping? pid place) :
    (after.mappings pid).Perm (mapping :: before.mappings pid) :=
  (listed_mappedPages ownedBefore pid).perm_of_added (listed_mappedPages ownedAfter pid) absent
    added

/-- The store refers to the mappings of a process as often as it has pages of them, and has one
handle for each of them, next to a number of other handles. -/
def Accounted (machine : Machine) (pid : Pid) (base : FileId → Nat) : Prop :=
  machine.store.Accounts base (machine.mappings pid)

theorem Accounted.of_gone (accounted : machine.Accounted pid base)
    (gone : machine.spaces[pid]? = none) (file : FileId) :
    machine.store.files.handles file = base file := by
  have handles := accounted.handles file
  rw [mappings, mappedPages, gone] at handles
  exact handles

end Machine

/-- No mapping is made or referred to, no page of one is registered, and files are not changed from
outside. -/
def Move.KeepsReferences (move : Move) : Prop :=
  move ≠ .refer ∧ move ≠ .outside ∧ ∀ pid address, move ≠ .register pid address .file

/-- No mapping is referred to, no page of one is registered, and only those of one process are
removed. -/
def Move.KeepsAccount (pid : Pid) (move : Move) : Prop :=
  move ≠ .refer ∧ move ≠ .outside ∧ (∀ address, move ≠ .register pid address .file) ∧
    ∀ other address, move = .remove other address .file → other = pid

open Machine

section Steps

variable {before after : Machine} {move : Move} {pid : Pid} {base : FileId → Nat}

/-- What changes between two states are no references to mappings and no handles. -/
structure BackingStore.KeepsReferences (before after : BackingStore) : Prop where
  references : after.references = before.references
  handles : ∀ file, after.files.handles file = before.files.handles file
  knows : ∀ mapping, before.Knows mapping → after.Knows mapping

/-- What a page gives up outside the frames is no reference. -/
theorem BackingStore.KeepsReferences.of_giveUp {page : Page} {resident : Option PageData}
    {dirty : Bool} {backing : Backing} {store gone : BackingStore}
    (gaveUp : page.backing.giveUp page.address resident dirty store = .done backing gone) :
    store.KeepsReferences gone := by
  obtain ⟨references, files⟩ := Backing.files_of_giveUp gaveUp
  refine ⟨references, fun file => ?_, fun mapping known => ?_⟩
  · rw [files]
    cases resident with
    | none => rfl
    | some bytes => exact Backing.handles_departed _ _ _ _ file
  · rcases Backing.of_giveUp gaveUp with ⟨_, -, same, -⟩ | ⟨-, kept⟩
    · rw [same]
      exact ⟨known.file, known.id⟩
    · exact ⟨kept.fileCount ▸ known.file, Nat.lt_of_lt_of_le known.id kept.nextMapping⟩

/-- How a step changes the pages of mappings and the references to them: not at all, or one page
goes, with the reference that it had. -/
inductive ReferenceChange : Move → Machine → Machine → Prop where
  | still {move : Move} {before after : Machine}
      (lookup : ∀ pid address, after.mapping? pid address = before.mapping? pid address)
      (store : before.store.KeepsReferences after.store) : ReferenceChange move before after
  | dropped {before after : Machine} {pid : Pid} {address : VirtAddr} {mapping : Mapping}
      {gone : BackingStore}
      (mapped : before.mapping? pid address = some mapping)
      (lookup : ∀ other place, after.mapping? other place =
        if pid = other ∧ address = place then none else before.mapping? other place)
      (store : before.store.KeepsReferences gone)
      (dropped : BackingStore.drop mapping gone = .done () after.store) :
      ReferenceChange (.remove pid address .file) before after

/-- A page that is removed drops its reference to its mapping, if it belongs to one. -/
private theorem ReferenceChange.removed {page : Page} {resident : Option PageData} {dirty : Bool}
    {backing : Backing} {gone : BackingStore}
    (registered : before.page? pid page.address = some page)
    (pages : ∀ other place, after.page? other place =
      if pid = other ∧ page.address = place then none else before.page? other place)
    (gaveUp : page.backing.giveUp page.address resident dirty before.store = .done backing gone)
    (forgot : page.forget gone = .done () after.store) :
    ReferenceChange (.remove pid page.address page.kind) before after := by
  have kept := BackingStore.KeepsReferences.of_giveUp gaveUp
  have lookup (other : Pid) (place : VirtAddr) : after.mapping? other place =
      if pid = other ∧ page.address = place then none else before.mapping? other place := by
    rw [mapping?, pages]
    split
    · rfl
    · rfl
  have atPage : before.mapping? pid page.address = page.mapping? := by
    rw [mapping?, registered, Option.bind_some]
  unfold Page.forget at forgot
  cases belongs : page.mapping? with
  | none =>
      rw [belongs] at forgot atPage
      cases forgot
      refine .still (fun other place => ?_) kept
      rw [lookup]
      split
      case isTrue here => rw [← here.1, ← here.2, atPage]
      case isFalse => rfl
  | some mapping =>
      rw [belongs] at forgot atPage
      rw [Page.kind_of_mapping? belongs]
      exact .dropped atPage lookup kept forgot

theorem Step.referenceChange (step : Step move before after) (sound : before.Sound)
    (keeps : move.KeepsReferences) : ReferenceChange move before after := by
  obtain ⟨noRefer, inside, noRegister⟩ := keeps
  have still (noRemove : ∀ pid address, move ≠ .remove pid address .file)
      (references : after.store.references = before.store.references)
      (handles : ∀ file, after.store.files.handles file = before.store.files.handles file) :
      ReferenceChange move before after := by
    refine .still (fun pid address => ?_) ⟨references, handles, fun _ => step.knows sound.mappings⟩
    rw [mapping?_eq_map, region?_of_step step sound.frames
      (fun place => ⟨noRegister pid place, noRemove pid place⟩), ← mapping?_eq_map]
  cases step with
  | upkeep upkeep =>
      refine still (by simp) ?_ fun file => ?_
      · rw [upkeep.store.2.2]
      · rw [upkeep.store.2.2]
  | createMapping | retain => exact absurd rfl noRefer
  | outside => exact absurd rfl inside
  | setStackPointer | access | overwrite | register | arrive | leave =>
      exact still (by simp) rfl fun _ => rfl
  | pageIn _ _ _ _ _ _ _ brought =>
      obtain ⟨references, files⟩ := Backing.files_of_bringIn brought
      exact still (by simp) references fun file => congrArg (FileStore.handles · file) files
  | pageOut _ _ _ _ saved =>
      obtain ⟨references, files⟩ := Backing.files_of_save saved
      refine still (by simp) references fun file => ?_
      exact (congrArg (FileStore.handles · file) files).trans (Backing.handles_departed ..)
  | removeAbsent found registered _ gaveUp forgot =>
      refine .removed ((page?_of_space found _).trans registered) (fun other place => ?_) gaveUp
        forgot
      rw [page?_erased found rfl rfl, sound.frames.pageDown_address found registered]
  | removeResident found registered _ _ gaveUp _ _ _ forgot =>
      refine .removed ((page?_of_space found _).trans registered) (fun other place => ?_) gaveUp
        forgot
      rw [page?_erased found rfl rfl, sound.frames.pageDown_address found registered]

/-- A step that removes pages keeps the account of their process. -/
theorem Step.accounted (step : Step move before after) (sound : before.Sound)
    (keeps : move.KeepsAccount pid) (accounted : before.Accounted pid base) :
    after.Accounted pid base := by
  have ownedAfter := step.framesOwned sound.frames
  obtain ⟨noRefer, inside, noRegister, removes⟩ := keeps
  -- A file page that is registered is one of another process.
  by_cases registers : ∃ other address, move = .register other address .file
  · obtain ⟨other, address, rfl⟩ := registers
    have same := region?_of_step step sound.frames fun place => ⟨noRegister place, nofun⟩
    rw [Accounted, step.store_of_register]
    refine accounted.perm (perm_mappings_of_same sound.frames ownedAfter fun place => ?_).symm
    rw [mapping?_eq_map, same, mapping?_eq_map]
  · cases step.referenceChange sound ⟨noRefer, inside, fun other address same =>
      registers ⟨other, address, same⟩⟩ with
    | still lookup store =>
        exact (accounted.congr store.references store.handles store.knows).perm
          (perm_mappings_of_same sound.frames ownedAfter (lookup pid)).symm
    | @dropped _ _ owner address mapping gone mapped lookup store dropped =>
        obtain rfl := removes _ _ rfl
        have perm := perm_mappings_of_added address ownedAfter sound.frames
          (by rw [lookup, if_pos ⟨rfl, rfl⟩]) fun place => by
            rw [lookup]
            by_cases here : address = place
            · rw [if_pos here, ← here, mapped]
            · rw [if_neg here, if_neg fun both => here both.2]
        exact ((accounted.congr store.references store.handles store.knows).perm perm).drop dropped

end Steps

/-- Steps that remove pages keep the account of their process. -/
theorem Path.accounted {allowed : Move → Prop} {before after : Machine} {pid : Pid}
    {base : FileId → Nat} (path : Path allowed before after) (sound : before.Sound)
    (accounted : before.Accounted pid base)
    (keeps : ∀ move, allowed move → move.KeepsAccount pid) : after.Accounted pid base :=
  path.keeps_of_sound (fun state => state.Accounted pid base) sound accounted
    fun move _ _ allow step soundMiddle => step.accounted soundMiddle (keeps move allow)

end DemandPaging
