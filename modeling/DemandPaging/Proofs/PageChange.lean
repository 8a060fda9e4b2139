import DemandPaging.Proofs.FramesOwned

/-!
What the steps of the machine do to the registered pages.

Owns:
- `Page.Continues`, what a page keeps when it moves between its first contents, a frame and the
  place it is saved to;
- `PageChange`, the ways in which one step changes the registries: not at all, or one page moves,
  comes or goes.

Main statements: `Step.pageChange`, and `Step.exists_page?`, a page stays registered, as the same
page, if the step does not remove it.
-/

namespace DemandPaging

namespace Backing

theorem kind_touched (backing : Backing) : backing.touched.kind = backing.kind := by
  match backing with
  | untouched (.anonymous _) | untouched (.file _) | anonymous _ | file _ => rfl

theorem region?_touched (backing : Backing) : backing.touched.region? = backing.region? := by
  match backing with
  | untouched (.anonymous _) | untouched (.file _) | anonymous _ | file _ => rfl

theorem isUntouched_touched (backing : Backing) : backing.touched.isUntouched = false := by
  match backing with
  | untouched (.anonymous _) | untouched (.file _) | anonymous _ | file _ => rfl

end Backing

theorem Page.region?_eq_none_iff {page : Page} :
    page.region? = none ↔ page.kind = .anonymous := by
  unfold Page.region? Page.kind
  match page.backing with
  | .untouched (.anonymous _) | .anonymous _ => simp [Backing.region?, Backing.kind]
  | .untouched (.file _) | .file _ => simp [Backing.region?, Backing.kind]

theorem Page.mapping?_eq_none_iff {page : Page} :
    page.mapping? = none ↔ page.kind = .anonymous := by
  rw [Page.mapping?, Option.map_eq_none_iff, Page.region?_eq_none_iff]

theorem Page.kind_of_mapping? {page : Page} {mapping : Mapping}
    (mapped : page.mapping? = some mapping) : page.kind = .file := by
  cases kind : page.kind with
  | anonymous => rw [Page.mapping?_eq_none_iff.2 kind] at mapped; cases mapped
  | file => rfl

/-- What a page keeps from its registration to its removal. -/
structure Page.Continues (page changed : Page) : Prop where
  address : changed.address = page.address
  writable : changed.writable = page.writable
  marker : changed.marker = page.marker
  kind : changed.kind = page.kind
  region? : changed.region? = page.region?
  /-- A page that was touched stays so. -/
  touched : page.isUntouched = false → changed.isUntouched = false

namespace Page.Continues

variable {page changed last : Page}

theorem refl (page : Page) : page.Continues page := ⟨rfl, rfl, rfl, rfl, rfl, id⟩

theorem trans (first : page.Continues changed) (second : changed.Continues last) :
    page.Continues last where
  address := second.address.trans first.address
  writable := second.writable.trans first.writable
  marker := second.marker.trans first.marker
  kind := second.kind.trans first.kind
  region? := second.region?.trans first.region?
  touched wasTouched := second.touched (first.touched wasTouched)

theorem of_save {backing : Backing} {bytes : PageData} {dirty : Bool}
    {store after : BackingStore}
    (saved : page.backing.save page.address bytes dirty store = .done backing after)
    (frame : Option PhysAddr) : page.Continues { page with backing, frame } := by
  rcases Backing.of_save saved with ⟨_, slot, backed, rfl, -⟩ | ⟨region, backed, rfl, -⟩
  · refine ⟨rfl, rfl, rfl, ?_, ?_, fun _ => rfl⟩
    · rw [Page.kind, Page.kind, backed]; rfl
    · rw [Page.region?, Page.region?, backed]; rfl
  · refine ⟨rfl, rfl, rfl, ?_, ?_, fun _ => rfl⟩
    · rw [Page.kind, Page.kind, backed]
    · rw [Page.region?, Page.region?, backed]

theorem of_bringIn {backing : Backing} {transfer after : Transfer BackingStore}
    (brought : page.backing.bringIn page.address transfer = .done backing after)
    (frame : Option PhysAddr) :
    page.Continues { page with backing := backing.touched, frame } := by
  refine ⟨rfl, rfl, rfl, ?_, ?_, fun _ => Backing.isUntouched_touched backing⟩
  · refine (Backing.kind_touched backing).trans ?_
    rcases Backing.of_bringIn brought with ⟨slot, backed, rfl, -⟩ | ⟨-, rfl, -⟩
    · rw [Page.kind, backed]; rfl
    · rfl
  · refine (Backing.region?_touched backing).trans ?_
    rcases Backing.of_bringIn brought with ⟨slot, backed, rfl, -⟩ | ⟨-, rfl, -⟩
    · rw [Page.region?, backed]; rfl
    · rfl

end Page.Continues

/-- How a step changes the registries. -/
inductive PageChange : Move → Machine → Machine → Prop where
  /-- Every page is as it was. -/
  | still {move : Move} {before after : Machine}
      (noRegister : ∀ pid address kind, move ≠ .register pid address kind)
      (noRemove : ∀ pid address kind, move ≠ .remove pid address kind)
      (pages : ∀ pid address, after.page? pid address = before.page? pid address) :
      PageChange move before after
  /-- One page was saved or brought in. -/
  | moved {move : Move} {before after : Machine} {pid : Pid} {page changed : Page}
      (unseen : move.IsUnseen) (registered : before.page? pid page.address = some page)
      (continues : page.Continues changed)
      (pages : ∀ other place, after.page? other place =
        if pid = other ∧ page.address = place then some changed else before.page? other place) :
      PageChange move before after
  | registered {before after : Machine} {pid : Pid} {page : Page} {initializer : Initializer}
      (untouched : page.backing = .untouched initializer)
      (absent : page.frame = none)
      (admitted : ∀ mapping, page.mapping? = some mapping → before.Admits pid mapping)
      (unknown : before.page? pid page.address = none)
      (pages : ∀ other place, after.page? other place =
        if pid = other ∧ page.address = place then some page else before.page? other place) :
      PageChange (.register pid page.address page.kind) before after
  | removed {before after : Machine} {pid : Pid} {page : Page}
      (registered : before.page? pid page.address = some page)
      (pages : ∀ other place, after.page? other place =
        if pid = other ∧ page.address = place then none else before.page? other place) :
      PageChange (.remove pid page.address page.kind) before after

section Steps

variable {before after : Machine} {move : Move}

open Machine

/-- Every step changes one page at most. -/
theorem Step.pageChange (step : Step move before after) (owned : before.FramesOwned) :
    PageChange move before after := by
  cases step with
  | upkeep upkeep => exact .still nofun nofun upkeep.page?
  | createMapping | retain | outside | overwrite => exact .still nofun nofun fun _ _ => rfl
  | setStackPointer found | access found =>
      exact .still nofun nofun (page?_keep found rfl (by rfl))
  | arrive => exact .still nofun nofun (page?_arrived owned.space_of_next rfl)
  | leave found gone => exact .still nofun nofun (page?_left found gone rfl)
  | pageOut found registered _ _ saved =>
      exact .moved trivial ((page?_of_space found _).trans registered) (.of_save saved none)
        fun other place => (page?_update found rfl rfl other place).trans rfl
  | @pageIn _ _ _ _ frame _ _ _ _ _ _ _ found registered _ _ _ _ _ brought =>
      exact .moved trivial ((page?_of_space found _).trans registered)
        (.of_bringIn brought (some frame))
        fun other place => (page?_update found rfl rfl other place).trans rfl
  | register found untouched absent aligned admitted inserted =>
      obtain ⟨unknown, rfl⟩ := PageRegistry.at?_of_insert inserted
      exact .registered untouched absent admitted ((page?_of_space found _).trans unknown)
        (page?_update found rfl rfl)
  | removeAbsent found registered =>
      refine .removed ((page?_of_space found _).trans registered) fun other place => ?_
      rw [page?_erased found rfl rfl, owned.pageDown_address found registered]
  | removeResident found registered =>
      refine .removed ((page?_of_space found _).trans registered) fun other place => ?_
      rw [page?_erased found rfl rfl, owned.pageDown_address found registered]

/-- A page that a step does not remove stays registered, as the same page. -/
theorem Step.exists_page? {pid : Pid} {address : VirtAddr} {page : Page}
    (step : Step move before after) (owned : before.FramesOwned)
    (registered : before.page? pid address = some page)
    (stays : move ≠ .remove pid address page.kind) :
    ∃ changed, after.page? pid address = some changed ∧ page.Continues changed := by
  cases step.pageChange owned with
  | still _ _ pages =>
      rw [pages]
      exact ⟨page, registered, .refl page⟩
  | @moved _ _ _ other before changed _ known continues pages =>
      rw [pages]
      split
      case isTrue same =>
        obtain ⟨rfl, rfl⟩ := same
        rw [registered] at known
        cases known
        exact ⟨changed, rfl, continues⟩
      case isFalse => exact ⟨page, registered, .refl page⟩
  | @registered _ _ other added _ _ _ _ unknown pages =>
      rw [pages]
      split
      case isTrue same =>
        obtain ⟨rfl, rfl⟩ := same
        rw [registered] at unknown
        cases unknown
      case isFalse => exact ⟨page, registered, .refl page⟩
  | @removed _ _ other gone known pages =>
      rw [pages]
      split
      case isTrue same =>
        obtain ⟨rfl, rfl⟩ := same
        rw [registered] at known
        cases known
        exact absurd rfl stays
      case isFalse => exact ⟨page, registered, .refl page⟩

/-- A page that is brought in was registered. -/
theorem Step.page_of_pageIn {pid : Pid} {address : VirtAddr} {frame : PhysAddr} {kind : PageKind}
    {first : Bool} (step : Step (.pageIn pid address frame kind first) before after) :
    ∃ page, before.page? pid address = some page ∧ page.kind = kind ∧ page.isUntouched = first := by
  cases step with
  | pageIn found registered => exact ⟨_, (page?_of_space found _).trans registered, rfl, rfl⟩

/-- A page comes only by being registered. -/
theorem Step.eq_register {pid : Pid} {address : VirtAddr} {page : Page}
    (step : Step move before after) (owned : before.FramesOwned)
    (absent : before.page? pid address = none) (found : after.page? pid address = some page) :
    move = .register pid address page.kind := by
  cases step.pageChange owned with
  | still _ _ pages =>
      rw [pages, absent] at found
      cases found
  | moved _ registered _ pages =>
      rw [pages] at found
      split at found
      case isTrue same =>
        obtain ⟨rfl, rfl⟩ := same
        rw [absent] at registered
        cases registered
      case isFalse =>
        rw [absent] at found
        cases found
  | registered _ _ _ _ pages =>
      rw [pages] at found
      split at found
      case isTrue same =>
        obtain ⟨rfl, rfl⟩ := same
        cases found
        rfl
      case isFalse =>
        rw [absent] at found
        cases found
  | removed _ pages =>
      rw [pages] at found
      split at found
      · cases found
      · rw [absent] at found
        cases found

theorem Step.page?_eq_none {pid : Pid} {address : VirtAddr} (step : Step move before after)
    (owned : before.FramesOwned) (absent : before.page? pid address = none)
    (noRegister : ∀ kind, move ≠ .register pid address kind) : after.page? pid address = none := by
  cases found : after.page? pid address with
  | none => rfl
  | some page => exact absurd (step.eq_register owned absent found) (noRegister page.kind)

/-- A page is registered where there was none. -/
theorem Step.page?_of_register {pid : Pid} {address : VirtAddr} {kind : PageKind}
    (step : Step (.register pid address kind) before after) :
    before.page? pid address = none ∧ address.offset = 0 := by
  cases step with
  | register found _ _ aligned _ inserted =>
      exact ⟨(page?_of_space found _).trans (PageRegistry.at?_of_insert inserted).1, aligned⟩

theorem Step.store_of_register {pid : Pid} {address : VirtAddr} {kind : PageKind}
    (step : Step (.register pid address kind) before after) : after.store = before.store := by
  cases step with
  | register => rfl

/-- A page that is removed was registered, and no other page changes. -/
theorem Step.page?_of_remove {pid : Pid} {address : VirtAddr} {kind : PageKind}
    (step : Step (.remove pid address kind) before after) (owned : before.FramesOwned) :
    ∃ page, before.page? pid address = some page ∧ page.address = address ∧ page.kind = kind ∧
      ∀ other place, after.page? other place =
        if pid = other ∧ address = place then none else before.page? other place := by
  cases step.pageChange owned with
  | still _ noRemove => exact absurd rfl (noRemove pid address kind)
  | moved unseen => exact unseen.elim
  | removed registered pages => exact ⟨_, registered, rfl, rfl, pages⟩

/-- A page that is registered after a step was not removed by it. -/
theorem Step.ne_remove {pid : Pid} {address : VirtAddr} {page : Page}
    (step : Step move before after) (owned : before.FramesOwned)
    (found : after.page? pid address = some page) (kind : PageKind) :
    move ≠ .remove pid address kind := by
  rintro rfl
  obtain ⟨_, -, -, -, pages⟩ := step.page?_of_remove owned
  rw [pages, if_pos ⟨rfl, rfl⟩] at found
  cases found

/-- A process comes, goes or moves its stack only by a step that says so. -/
theorem Step.stackPointer? {pid : Pid} (step : Step move before after)
    (noSet : move ≠ .setStackPointer pid) (noArrive : move ≠ .arrive pid)
    (noLeave : move ≠ .leave pid) : after.stackPointer? pid = before.stackPointer? pid := by
  cases step with
  | upkeep upkeep =>
      cases upkeep with
      | ask owner =>
          rcases spaces_of_ask owner before.spaces with same | ⟨space, found, asked⟩
          · exact congrArg (fun spaces => Option.map _ spaces[pid]?) same
          · exact stackPointer?_keep found asked (by rfl) pid
      | requeue | spoil | strain => rfl
  | createMapping | retain | outside | overwrite => rfl
  | @setStackPointer _ other =>
      unfold Machine.stackPointer?
      rw [spaces_insert rfl, if_neg]
      rintro rfl
      exact noSet rfl
  | access found | pageOut found | pageIn found | register found | removeAbsent found
  | removeResident found => exact stackPointer?_keep found rfl (by rfl) pid
  | arrive =>
      unfold Machine.stackPointer?
      rw [spaces_insert rfl, if_neg]
      rintro rfl
      exact noArrive rfl
  | leave =>
      unfold Machine.stackPointer?
      rw [spaces_erase rfl, if_neg]
      rintro rfl
      exact noLeave rfl

/-- A page that belongs to a part of a file did so before the step, or it is registered by it. -/
theorem Step.region?_cases {pid : Pid} {address : VirtAddr} {region : FileRegion}
    (step : Step move before after) (owned : before.FramesOwned)
    (mapped : after.region? pid address = some region) :
    before.region? pid address = some region ∨
      move = .register pid address .file ∧ before.Admits pid region.mapping := by
  unfold region? at *
  cases step.pageChange owned with
  | still _ _ pages =>
      rw [pages] at mapped
      exact .inl mapped
  | @moved _ _ _ other page changed _ known continues pages =>
      rw [pages] at mapped
      split at mapped
      case isTrue same =>
        obtain ⟨rfl, rfl⟩ := same
        rw [known]
        exact .inl (continues.region?.symm.trans mapped)
      case isFalse => exact .inl mapped
  | @registered _ _ other page _ _ _ admitted _ pages =>
      rw [pages] at mapped
      split at mapped
      case isTrue same =>
        obtain ⟨rfl, rfl⟩ := same
        have ofFile : page.mapping? = some region.mapping := congrArg _ mapped
        refine .inr ⟨?_, admitted _ ofFile⟩
        rw [Page.kind_of_mapping? ofFile]
      case isFalse => exact .inl mapped
  | @removed _ _ other page known pages =>
      rw [pages] at mapped
      split at mapped
      · cases mapped
      · exact .inl mapped

end Steps

end DemandPaging
