import DemandPaging.Proofs.SlotsOwned

/-!
What anonymous pages hold, wherever they are.

Owns:
- `Machine.contents?`, the bytes of an anonymous page: zero bytes before it is touched, if nothing
  is to be loaded into it, the bytes of its frame while it is in memory, and its image in the swap
  area while it is not;
- `Machine.byte?`, one byte of it;
- `Machine.KeepsPage`, a page is what it was, apart from where it is.

Does not own: the contents of file pages.

Main statements: `Step.contents?` and `Path.contents?`, only overwriting and removing a page change
what it holds, and `Path.keepsPage`.
-/

namespace DemandPaging

namespace Machine

/-- What an anonymous page holds. -/
def contentsOf? (machine : Machine) (page : Page) : Option PageData :=
  match page.backing, page.frame with
  | .untouched (.anonymous none), _ => some Block.zero
  | .anonymous _, some frame => machine.resident.contents? frame
  | .anonymous (some slot), none => some (machine.store.swap.image slot)
  | _, _ => none

/-- What the anonymous page at an address of a process holds. -/
def contents? (machine : Machine) (pid : Pid) (address : VirtAddr) : Option PageData :=
  (machine.page? pid address).bind machine.contentsOf?

/-- The byte that an anonymous page of a process holds at an address. -/
def byte? (machine : Machine) (pid : Pid) (address : VirtAddr) : Option UInt8 :=
  (machine.contents? pid address.pageDown).map fun bytes =>
    bytes.get ⟨address.offset, address.offset_lt_pageSize⟩

variable {before after machine : Machine} {pid : Pid} {address : VirtAddr} {page : Page}
  {bytes : PageData} {frame : PhysAddr} {slot : Nat}

theorem contents?_of_page (registered : machine.page? pid address = some page) :
    machine.contents? pid address = machine.contentsOf? page := by
  rw [contents?, registered]
  rfl

theorem kind_of_contentsOf? (holds : machine.contentsOf? page = some bytes) :
    page.kind = .anonymous := by
  unfold contentsOf? at holds
  unfold Page.kind
  match backed : page.backing, held : page.frame with
  | .untouched (.anonymous _), _ | .anonymous _, _ => rfl
  | .untouched (.file _), _ | .file _, _ => rw [backed] at holds; cases holds

theorem contentsOf?_of_held (kind : page.kind = .anonymous) (placed : page.Placed)
    (held : page.frame = some frame) :
    machine.contentsOf? page = machine.resident.contents? frame := by
  unfold Page.kind at kind
  unfold Page.Placed at placed
  unfold contentsOf?
  match backed : page.backing with
  | .untouched _ =>
      rw [backed, held] at placed
      cases placed
  | .anonymous _ => rw [held]
  | .file _ =>
      rw [backed] at kind
      cases kind

theorem contentsOf?_of_saved (backed : page.backing = .anonymous (some slot))
    (absent : page.frame = none) :
    machine.contentsOf? page = some (machine.store.swap.image slot) := by
  unfold contentsOf?
  rw [backed, absent]

/-- What an anonymous page holds after its bytes in memory were replaced. -/
theorem contents?_of_written {resident : ResidentSet} (placed : page.Placed)
    (registered : machine.page? pid address = some page) (kind : page.kind = .anonymous)
    (held : page.frame = some frame)
    (written : machine.resident.write frame bytes = .ok resident) :
    ({ machine with resident } : Machine).contents? pid address = some bytes := by
  have here : ({ machine with resident } : Machine).page? pid address = some page := registered
  obtain ⟨-, -, -, frames⟩ := ResidentSet.of_write written
  rw [contents?_of_page here, contentsOf?_of_held kind placed held]
  exact (frames frame).trans (if_pos rfl)

/-- A page holds what it held if its frame and its slot do. -/
theorem contentsOf?_congr
    (frames : ∀ frame, page.frame = some frame →
      after.resident.contents? frame = before.resident.contents? frame)
    (images : ∀ slot, page.slot? = some slot →
      after.store.swap.image slot = before.store.swap.image slot) :
    after.contentsOf? page = before.contentsOf? page := by
  unfold contentsOf?
  unfold Page.slot? at images
  match backed : page.backing, held : page.frame with
  | .untouched (.anonymous none), _ => rfl
  | .anonymous _, some frame => exact frames frame held
  | .anonymous (some slot), none =>
      exact congrArg some (images slot (by rw [backed]; rfl))
  | .untouched (.anonymous (some _)), _ | .untouched (.file _), _ | .anonymous none, none
  | .file _, _ => rfl

end Machine

open Machine

section Steps

variable {before after : Machine} {move : Move} {pid : Pid} {address : VirtAddr}
  {bytes : PageData}

/-- No step changes an image in a slot that is taken. -/
theorem Step.keepsImages (step : Step move before after) (sound : before.Sound) :
    before.store.swap.Keeps after.store.swap := by
  cases step with
  | upkeep upkeep => exact upkeep.store.1
  | setStackPointer | access | overwrite | register | arrive | leave => exact .refl _
  | @createMapping _ start pageCount references file mapping store made =>
      have ends : (BackingStore.createMapping start pageCount file references
        before.store).Ends _ _ _ := BackingStore.ends_createMapping
      rw [made] at ends
      exact .of_eq ends.2.2.swap
  | retain retained =>
      cases retained
      exact .refl _
  | outside written =>
      refine ⟨rfl, rfl, fun slot _ => ?_⟩
      simp only [SwapArea.image, Disk.data, written]
  | pageOut _ _ _ _ saved =>
      rcases Backing.of_save saved with ⟨_, _, -, -, -, keeps, -⟩ | ⟨_, -, -, kept⟩
      · exact keeps
      · exact .of_eq kept.swap
  | pageIn _ _ _ _ _ _ _ brought =>
      rcases Backing.of_bringIn brought with ⟨_, -, -, -, -, -, keeps, -⟩ | ⟨-, -, same⟩
      · exact keeps
      · exact .of_eq (congrArg BackingStore.swap same)
  | removeAbsent found registered _ gaveUp forgot =>
      have known := fun mapping =>
        sound.mappings _ _ _ mapping ((page?_of_space found _).trans registered)
      rcases (Page.of_removal known gaveUp forgot).2.2.2 with ⟨_, -, keeps, -⟩ | ⟨-, same⟩
      · exact keeps
      · exact .of_eq same
  | removeResident found registered _ _ gaveUp _ _ _ forgot =>
      have known := fun mapping =>
        sound.mappings _ _ _ mapping ((page?_of_space found _).trans registered)
      rcases (Page.of_removal known gaveUp forgot).2.2.2 with ⟨_, -, keeps, -⟩ | ⟨-, same⟩
      · exact keeps
      · exact .of_eq same

/-- A step changes the bytes of an owned frame only by overwriting or removing its page. -/
theorem Step.contents?_of_owned {frame : PhysAddr} (step : Step move before after)
    (sound : before.Sound) (owner : before.resident.owner? frame = some ⟨pid, address⟩)
    (kept : ∀ kind, move ≠ .overwrite pid address kind)
    (stays : ∀ kind, move ≠ .remove pid address kind) :
    after.resident.contents? frame = before.resident.contents? frame := by
  cases step with
  | upkeep upkeep =>
      cases upkeep with
      | spoil vacant written =>
          obtain ⟨-, -, -, contents⟩ := ResidentSet.of_write written
          rw [contents, if_neg]
          intro same
          rw [same, owner] at vacant
          cases vacant
      | ask | requeue | strain => rfl
  | createMapping | retain | outside | setStackPointer | access | register | removeAbsent | arrive
  | leave => rfl
  | @overwrite _ other place page _ _ _ owned _ written =>
      obtain ⟨-, -, -, contents⟩ := ResidentSet.of_write written
      rw [contents, if_neg]
      intro same
      rw [same, owner, Option.some.injEq, FrameOwner.mk.injEq] at owned
      obtain ⟨rfl, rfl⟩ := owned
      exact kept page.kind rfl
  | @pageOut _ other space page place _ _ _ _ _ _ found registered held _ _ _ released =>
      have owned := sound.frames.owner?_of_held
        ((page?_of_space found page.address).trans registered) held
      exact (sound.frames.resident.of_release owned released).2.2.2 frame
  | @pageIn _ _ _ _ place _ _ _ _ _ _ _ _ _ _ acquired _ link _ _ written =>
      obtain ⟨-, -, -, contents⟩ := ResidentSet.of_write written
      obtain ⟨-, -, -, linked⟩ := sound.frames.resident.occupy acquired link
      rw [contents, if_neg, linked]
      -- The frame of the other page was free, so it is not this one.
      intro same
      have vacant := (sound.frames.resident.taken acquired).vacant
      rw [same, owner] at vacant
      cases vacant
  | @removeResident _ other space page place _ _ _ _ _ _ cleared _ found registered held _ _ _
      clear released _ =>
      have owned := sound.frames.owner?_of_held
        ((page?_of_space found page.address).trans registered) held
      obtain ⟨-, -, contents⟩ :=
        sound.frames.resident.of_write_release owned clear released
      rw [contents, if_neg]
      intro same
      rw [same, owner, Option.some.injEq, FrameOwner.mk.injEq] at owned
      obtain ⟨rfl, rfl⟩ := owned
      exact stays page.kind rfl

/-- A page that is saved holds the same bytes as before. -/
theorem Step.contents?_of_pageOut {frame : PhysAddr} (step : Step (.pageOut frame) before after)
    (sound : before.Sound) (held : before.frame? pid address = some frame)
    (known : before.contents? pid address = some bytes) :
    after.contents? pid address = some bytes := by
  cases step with
  | @pageOut _ other space page _ old read backing store table resident found registered held'
      wasRead saved unmapped released =>
      have here := (page?_of_space found page.address).trans registered
      have owner := sound.frames.owner?_of_held here held'
      have owner' := (sound.frames.owner_iff frame pid address).2 held
      rw [owner, Option.some.injEq, FrameOwner.mk.injEq] at owner'
      obtain ⟨rfl, rfl⟩ := owner'
      rw [contents?_of_page here] at known
      have kind := kind_of_contentsOf? known
      rw [contentsOf?_of_held kind (sound.slots.placed _ _ _ here) held',
        ResidentSet.read_eq_ok_iff.1 wasRead, Option.some.injEq] at known
      subst known
      let next : Machine := { before with
        resident, store
        spaces := before.spaces.insert other { space with
          table, pages := space.pages.put { page with backing, frame := none } } }
      have lookup : next.page? other page.address = some { page with backing, frame := none } :=
        (page?_update found rfl rfl other page.address).trans (if_pos ⟨rfl, rfl⟩)
      show next.contents? other page.address = some read
      rw [contents?_of_page lookup]
      rcases Backing.of_save saved with
        ⟨_, slot, -, rfl, -, -, image, -⟩ | ⟨region, backed, -⟩
      · rw [contentsOf?_of_saved rfl rfl]
        exact congrArg some image
      · rw [Page.kind, backed] at kind
        cases kind

/-- A page that is brought in holds the same bytes as before. -/
theorem Step.contents?_of_pageIn {frame : PhysAddr} {kind : PageKind} {first : Bool}
    (step : Step (.pageIn pid address frame kind first) before after) (sound : before.Sound)
    (known : before.contents? pid address = some bytes) :
    after.contents? pid address = some bytes := by
  have soundAfter := step.sound sound
  cases step with
  | @pageIn _ _ space page _ read backing transfer table taken linked resident found registered
      absent acquired mapped link wasRead brought written =>
      have here := (page?_of_space found page.address).trans registered
      rw [contents?_of_page here] at known
      have kind := kind_of_contentsOf? known
      let next : Machine := { before with
        resident, store := transfer.store
        spaces := before.spaces.insert pid { space with
          table
          pages := space.pages.put { page with backing := backing.touched, frame := some frame } } }
      have lookup : next.page? pid page.address =
          some { page with backing := backing.touched, frame := some frame } :=
        (page?_update found rfl rfl pid page.address).trans (if_pos ⟨rfl, rfl⟩)
      have continues := Page.Continues.of_bringIn brought (some frame)
      show next.contents? pid page.address = some bytes
      rw [contents?_of_page lookup, contentsOf?_of_held (continues.kind.trans kind)
        (soundAfter.slots.placed _ _ _ lookup) rfl]
      obtain ⟨-, -, -, contents⟩ := ResidentSet.of_write written
      refine (contents frame).trans ((if_pos rfl).trans ?_)
      rcases Backing.of_bringIn brought with
        ⟨slot, backed, -, -, image, -⟩ | ⟨notAnonymous, -⟩
      · rw [contentsOf?_of_saved backed absent] at known
        rw [image]
        exact known
      · -- Of the other pages only one that was never touched holds something: zero bytes.
        unfold contentsOf? at known
        match backed : page.backing with
        | .untouched (.anonymous none) =>
            rw [backed] at known brought
            cases known
            rw [Backing.bytes_of_bringIn brought]
        | .untouched (.anonymous (some _)) | .untouched (.file _) | .file _ =>
            rw [backed] at known
            cases known
        | .anonymous slot => exact absurd backed (notAnonymous slot)

/-- The steps that change a registered page save it or bring it in. -/
theorem Step.move_of_page? {page : Page} (step : Step move before after) (sound : before.Sound)
    (registered : before.page? pid address = some page)
    (stays : ∀ kind, move ≠ .remove pid address kind)
    (changes : after.page? pid address ≠ before.page? pid address) :
    (∃ frame, move = .pageOut frame ∧ before.frame? pid address = some frame) ∨
      ∃ frame kind first, move = .pageIn pid address frame kind first := by
  cases step with
  | upkeep upkeep => exact absurd (upkeep.page? pid address) changes
  | createMapping | retain | outside | overwrite => exact absurd rfl changes
  | setStackPointer found | access found =>
      exact absurd (page?_keep found rfl (by rfl) pid address) changes
  | arrive => exact absurd (page?_arrived sound.frames.space_of_next rfl pid address) changes
  | leave found gone => exact absurd (page?_left found gone rfl pid address) changes
  | @pageOut _ other space saved frame _ _ _ _ _ _ found known held =>
      by_cases here : other = pid ∧ saved.address = address
      · obtain ⟨rfl, rfl⟩ := here
        refine .inl ⟨frame, rfl, ?_⟩
        rw [frame?, page?_of_space found, known]
        exact held
      · refine absurd ((page?_update found rfl rfl pid address).trans ?_) changes
        exact if_neg here
  | @pageIn _ other space brought frame _ _ _ _ _ _ _ found =>
      by_cases here : other = pid ∧ brought.address = address
      · obtain ⟨rfl, rfl⟩ := here
        exact .inr ⟨frame, _, _, rfl⟩
      · refine absurd ((page?_update found rfl rfl pid address).trans ?_) changes
        exact if_neg here
  | @register _ other space added _ pages found _ _ _ _ inserted =>
      obtain ⟨unknown, rfl⟩ := PageRegistry.at?_of_insert inserted
      refine absurd ((page?_update found rfl rfl pid address).trans (if_neg fun here => ?_)) changes
      obtain ⟨rfl, rfl⟩ := here
      rw [page?_of_space found, unknown] at registered
      cases registered
  | @removeAbsent _ other space gone _ _ _ found known =>
      refine absurd ((page?_erased found rfl rfl pid address).trans (if_neg fun here => ?_)) changes
      rw [sound.frames.pageDown_address found known] at here
      obtain ⟨rfl, rfl⟩ := here
      exact stays gone.kind rfl
  | @removeResident _ other space gone _ _ _ _ _ _ _ _ _ found known =>
      refine absurd ((page?_erased found rfl rfl pid address).trans (if_neg fun here => ?_)) changes
      rw [sound.frames.pageDown_address found known] at here
      obtain ⟨rfl, rfl⟩ := here
      exact stays gone.kind rfl

theorem Step.frame?_of_pageOut {frame : PhysAddr} (step : Step (.pageOut frame) before after)
    (owned : before.FramesOwned) (held : before.frame? pid address = some frame) :
    after.frame? pid address = none := by
  cases step with
  | @pageOut _ other space page _ _ _ _ _ _ _ found registered held' =>
      have owner :=
        owned.owner?_of_held ((page?_of_space found page.address).trans registered) held'
      rw [(owned.owner_iff frame pid address).2 held, Option.some.injEq,
        FrameOwner.mk.injEq] at owner
      exact (bind_page?_update Page.frame found rfl rfl pid address).trans
        (if_pos ⟨owner.1.symm, owner.2.symm⟩)

theorem Step.frame?_of_pageIn {frame : PhysAddr} {kind : PageKind} {first : Bool}
    (step : Step (.pageIn pid address frame kind first) before after) :
    after.frame? pid address = some frame := by
  cases step with
  | pageIn found =>
      exact (bind_page?_update Page.frame found rfl rfl pid _).trans (if_pos ⟨rfl, rfl⟩)

/-- A page that is in a frame was there before, with the same bytes unless they were overwritten, or
it has just been brought in. -/
theorem Step.frame?_cases {frame : PhysAddr} (step : Step move before after) (sound : before.Sound)
    (held : after.frame? pid address = some frame) :
    before.frame? pid address = some frame ∧
        (after.resident.contents? frame = before.resident.contents? frame ∨
          ∃ kind, move = .overwrite pid address kind) ∨
      ∃ kind first, move = .pageIn pid address frame kind first := by
  have stays : ∀ kind, move ≠ .remove pid address kind := by
    obtain ⟨page, found, -⟩ := Option.bind_eq_some_iff.1 held
    exact step.ne_remove sound.frames found
  by_cases same : after.page? pid address = before.page? pid address
  · rw [frame?, same] at held
    refine .inl ⟨held, ?_⟩
    by_cases overwritten : ∃ kind, move = .overwrite pid address kind
    · exact .inr overwritten
    · refine .inl (step.contents?_of_owned sound ((sound.frames.owner_iff ..).2 held) ?_ stays)
      exact fun kind equal => overwritten ⟨kind, equal⟩
  · cases registered : before.page? pid address with
    | some page =>
        rcases step.move_of_page? sound registered stays same with
          ⟨other, rfl, atFrame⟩ | ⟨other, kind, first, rfl⟩
        · rw [step.frame?_of_pageOut sound.frames atFrame] at held
          cases held
        · rw [step.frame?_of_pageIn, Option.some.injEq] at held
          exact .inr ⟨kind, first, by rw [held]⟩
    | none =>
        -- A page that is registered is in no frame yet.
        cases step.pageChange sound.frames with
        | still _ _ pages => exact absurd (pages pid address) same
        | moved _ known _ pages =>
            rw [pages] at same
            split at same
            case isTrue here =>
              obtain ⟨rfl, rfl⟩ := here
              rw [registered] at known
              cases known
            case isFalse => exact absurd rfl same
        | registered _ absent _ _ pages =>
            rw [frame?, pages] at held
            split at held
            · rw [Option.bind_some, absent] at held
              cases held
            · rw [registered] at held
              cases held
        | removed _ pages =>
            rw [frame?, pages] at held
            split at held
            · cases held
            · rw [registered] at held
              cases held

/-- Only overwriting and removing an anonymous page change what it holds. -/
theorem Step.contents? (step : Step move before after) (sound : before.Sound)
    (known : before.contents? pid address = some bytes)
    (kept : move ≠ .overwrite pid address .anonymous)
    (stays : move ≠ .remove pid address .anonymous) :
    after.contents? pid address = some bytes := by
  obtain ⟨page, registered, holds⟩ := Option.bind_eq_some_iff.1 known
  have kind := kind_of_contentsOf? holds
  have staysAny : ∀ kind, move ≠ .remove pid address kind := by
    intro other same
    subst same
    cases step.pageChange sound.frames with
    | still _ noRemove => exact noRemove _ _ _ rfl
    | moved unseen => exact unseen
    | removed known' =>
        rw [registered] at known'
        cases known'
        exact stays (by rw [kind])
  have keptAny : ∀ kind, move ≠ .overwrite pid address kind := by
    intro other same
    subst same
    cases step with
    | overwrite owned known' =>
        rw [registered] at known'
        cases known'
        exact kept (by rw [kind])
  -- A page that is left alone keeps its frame and its slot, and so what they hold.
  have alone (same : after.page? pid address = before.page? pid address) :
      after.contents? pid address = some bytes := by
    rw [contents?_of_page (same.trans registered), ← holds]
    apply contentsOf?_congr
    · intro frame held
      exact step.contents?_of_owned sound (sound.frames.owner?_of_held registered held) keptAny
        staysAny
    · intro slot recorded
      apply (step.keepsImages sound).image
      exact sound.slots.isOccupied_of_recorded registered recorded
  by_cases same : after.page? pid address = before.page? pid address
  · exact alone same
  · rcases step.move_of_page? sound registered staysAny same with
      ⟨frame, rfl, held⟩ | ⟨frame, _, _, rfl⟩
    · exact step.contents?_of_pageOut sound held known
    · exact step.contents?_of_pageIn sound known

/-! ## Pages that are left alone -/

/-- The page at an address of a process, if there is one, is the same page with the same contents as
before, though it may be elsewhere. -/
structure Machine.KeepsPage (before after : Machine) (pid : Pid) (address : VirtAddr) : Prop where
  absent : before.page? pid address = none → after.page? pid address = none
  present : ∀ page, before.page? pid address = some page →
    ∃ kept, after.page? pid address = some kept ∧ page.Continues kept ∧
      (page.isUntouched = true → kept = page)
  contents : after.contents? pid address = before.contents? pid address

theorem Machine.KeepsPage.refl (machine : Machine) (pid : Pid) (address : VirtAddr) :
    machine.KeepsPage machine pid address :=
  ⟨id, fun page registered => ⟨page, registered, .refl page, fun _ => rfl⟩, rfl⟩

theorem Machine.KeepsPage.trans {middle : Machine} (first : before.KeepsPage middle pid address)
    (second : middle.KeepsPage after pid address) : before.KeepsPage after pid address where
  absent unknown := second.absent (first.absent unknown)
  present page registered := by
    obtain ⟨kept, found, continues, untouched⟩ := first.present page registered
    obtain ⟨last, foundLast, more, untouchedLast⟩ := second.present kept found
    refine ⟨last, foundLast, continues.trans more, fun fresh => ?_⟩
    have same := untouched fresh
    subst same
    exact untouchedLast fresh
  contents := second.contents.trans first.contents

theorem Machine.KeepsPage.isUntouched {page kept : Page}
    (keeps : before.KeepsPage after pid address)
    (registered : before.page? pid address = some page)
    (found : after.page? pid address = some kept) : kept.isUntouched = page.isUntouched := by
  obtain ⟨other, also, continues, untouched⟩ := keeps.present page registered
  rw [found, Option.some.injEq] at also
  subst also
  cases fresh : page.isUntouched with
  | true => rw [untouched fresh, fresh]
  | false => exact continues.touched fresh

/-- An anonymous page that was touched holds something. -/
theorem Machine.Sound.exists_contents? {page : Page} (sound : before.Sound)
    (registered : before.page? pid address = some page) (kind : page.kind = .anonymous)
    (touched : page.isUntouched = false) : ∃ bytes, before.contents? pid address = some bytes := by
  rw [contents?_of_page registered]
  have placed := sound.slots.placed pid address page registered
  cases held : page.frame with
  | some frame =>
      rw [contentsOf?_of_held kind placed held]
      exact Option.isSome_iff_exists.1 (sound.frames.resident.contents?_isSome
        (sound.frames.owner?_of_held registered held))
  | none =>
      unfold Page.Placed at placed
      match backed : page.backing with
      | .untouched _ =>
          rw [Page.isUntouched, backed] at touched
          cases touched
      | .anonymous none =>
          rw [backed, held] at placed
          cases placed
      | .anonymous (some slot) => exact ⟨_, contentsOf?_of_saved backed held⟩
      | .file _ =>
          rw [Page.kind, backed] at kind
          cases kind

/-- A step keeps a page that it does not register, remove, overwrite or touch for the first time. -/
theorem Step.keepsPage (step : Step move before after) (sound : before.Sound)
    (noRegister : ∀ kind, move ≠ .register pid address kind)
    (stays : ∀ kind, move ≠ .remove pid address kind)
    (kept : move ≠ .overwrite pid address .anonymous)
    (notFirst : ∀ frame kind, move ≠ .pageIn pid address frame kind true) :
    before.KeepsPage after pid address := by
  have present : ∀ page, before.page? pid address = some page →
      ∃ kept, after.page? pid address = some kept ∧ page.Continues kept ∧
        (page.isUntouched = true → kept = page) := by
    intro page registered
    obtain ⟨changed, found, continues⟩ :=
      step.exists_page? sound.frames registered (stays page.kind)
    refine ⟨changed, found, continues, fun fresh => ?_⟩
    by_cases same : after.page? pid address = before.page? pid address
    · rw [found, registered, Option.some.injEq] at same
      exact same
    · rcases step.move_of_page? sound registered stays same with
        ⟨frame, -, held⟩ | ⟨frame, kind, first, rfl⟩
      · -- An untouched page is in no frame, so it cannot be saved.
        rw [frame?, registered, Option.bind_some,
          (sound.slots.placed pid address page registered).frame_eq_none fresh] at held
        cases held
      · obtain ⟨other, known, -, touched⟩ := step.page_of_pageIn
        rw [registered, Option.some.injEq] at known
        subst known
        rw [fresh] at touched
        subst touched
        exact absurd rfl (notFirst frame kind)
  refine ⟨fun absent => step.page?_eq_none sound.frames absent noRegister, present, ?_⟩
  cases known : before.contents? pid address with
  | some bytes => exact step.contents? sound known kept (stays .anonymous)
  | none =>
      cases registered : before.page? pid address with
      | none =>
          rw [Machine.contents?, step.page?_eq_none sound.frames registered noRegister]
          rfl
      | some page =>
          obtain ⟨changed, found, continues, untouched⟩ := present page registered
          rw [contents?_of_page found]
          rw [contents?_of_page registered] at known
          cases fresh : page.isUntouched with
          | true =>
              rw [untouched fresh]
              unfold contentsOf? at known ⊢
              unfold Page.isUntouched Backing.isUntouched at fresh
              rcases backed : page.backing with ((_ | _) | _) | _ | _
              case untouched.anonymous.none => rw [backed] at known; cases known
              case anonymous => rw [backed] at fresh; cases fresh
              all_goals rfl
          | false =>
              cases kind : page.kind with
              | anonymous =>
                  obtain ⟨bytes, holds⟩ := sound.exists_contents? registered kind fresh
                  rw [contents?_of_page registered, known] at holds
                  cases holds
              | file =>
                  rw [Option.eq_none_iff_forall_ne_some]
                  intro bytes holds
                  have also := continues.kind.symm.trans (kind_of_contentsOf? holds)
                  rw [kind] at also
                  cases also

end Steps

/-- Along a path that does not register, remove or overwrite a page nor touches it for the first
time, the page is kept. -/
theorem Path.keepsPage {allowed : Move → Prop} {before after : Machine} {pid : Pid}
    {address : VirtAddr} (path : Path allowed before after) (sound : before.Sound)
    (noRegister : ∀ kind, ¬allowed (.register pid address kind))
    (stays : ∀ kind, ¬allowed (.remove pid address kind))
    (kept : ¬allowed (.overwrite pid address .anonymous))
    (notFirst : ∀ frame kind, ¬allowed (.pageIn pid address frame kind true)) :
    before.KeepsPage after pid address := by
  refine path.keeps_of_sound (fun state => before.KeepsPage state pid address) sound
    (.refl before pid address) ?_
  intro move middle next allow step soundMiddle keeps
  refine keeps.trans (step.keepsPage soundMiddle ?_ ?_ ?_ ?_)
  · intro kind same
    exact noRegister kind (same ▸ allow)
  · intro kind same
    exact stays kind (same ▸ allow)
  · intro same
    exact kept (same ▸ allow)
  · intro frame kind same
    exact notFirst frame kind (same ▸ allow)

/-- Along a path, only overwriting and removing an anonymous page change what it holds. -/
theorem Path.contents? {allowed : Move → Prop} {before after : Machine} {pid : Pid}
    {address : VirtAddr} {bytes : PageData} (path : Path allowed before after)
    (sound : before.Sound) (known : before.contents? pid address = some bytes)
    (kept : ¬allowed (.overwrite pid address .anonymous))
    (stays : ¬allowed (.remove pid address .anonymous)) :
    after.contents? pid address = some bytes := by
  refine path.keeps_of_sound (fun state => state.contents? pid address = some bytes) sound known ?_
  intro move middle next allow step soundMiddle holds
  refine step.contents? soundMiddle holds ?_ ?_
  · intro same
    exact kept (same ▸ allow)
  · intro same
    exact stays (same ▸ allow)

theorem Path.byte? {allowed : Move → Prop} {before after : Machine} {pid : Pid}
    {address : VirtAddr} {byte : UInt8} (path : Path allowed before after) (sound : before.Sound)
    (known : before.byte? pid address = some byte)
    (kept : ¬allowed (.overwrite pid address.pageDown .anonymous))
    (stays : ¬allowed (.remove pid address.pageDown .anonymous)) :
    after.byte? pid address = some byte := by
  obtain ⟨bytes, holds, same⟩ := Option.map_eq_some_iff.1 known
  rw [Machine.byte?, path.contents? sound holds kept stays]
  exact congrArg some same

end DemandPaging
