import DemandPaging.Machine.Processes
import DemandPaging.Proofs.Access
import DemandPaging.Proofs.Contents
import DemandPaging.Proofs.Processes

/-!
The steps by which one page of a process is copied to another process.

Owns:
- the moves of a copy, and that they leave the pages alone which are not copied;
- the copy of the bytes of an anonymous page;
- the copy of the part of a file behind a page, and of its mapping (`Machine.CopiedRegion`).

Does not own: the copy of a process page by page (`Machine.Copying`).

Main statements: `ends_copyAnonymousPage`, the copy of an anonymous page holds what the page held,
and `ends_copyRegion`.
-/

namespace DemandPaging

/-! ## Moves -/

/-- What is done to pages is done to those of one process, which may also come or go. Pages of other
processes only move, and no page of a file comes in. -/
def Move.Concerns (pid : Pid) : Move → Prop
  | upkeep | refer | pageOut _ => True
  | pageIn other _ _ kind first => kind = .anonymous ∧ (first = true → other = pid)
  | overwrite other _ kind => other = pid ∧ kind = .anonymous
  | setStackPointer other | register other _ _ | remove other _ _ | arrive other | leave other =>
    other = pid
  | outside | access _ _ _ => False

/-- One anonymous page of a process is registered and filled. Other pages may move. -/
def Move.Fills (pid : Pid) (address : VirtAddr) : Move → Prop
  | upkeep | pageOut _ => True
  | pageIn other place _ kind first =>
    kind = .anonymous ∧ (first = true → other = pid ∧ place = address)
  | overwrite other place kind | register other place kind =>
    other = pid ∧ place = address ∧ kind = .anonymous
  | refer | outside | setStackPointer _ | access _ _ _ | remove _ _ _ | arrive _ | leave _ => False

/-- One page of a process is registered and, if it is an anonymous one, filled. -/
def Move.Copies (pid : Pid) (address : VirtAddr) (move : Move) : Prop :=
  move.Fills pid address ∨ move = .refer ∨ move = .register pid address .file

/-- A page with a known past comes in, and others make room for it. -/
def Move.Brings (pid : Pid) (address : VirtAddr) (kind : PageKind) (first : Bool) (move : Move) :
    Prop :=
  move.MakesRoom ∨ ∃ frame, move = .pageIn pid address frame kind first

namespace Move

variable {move : Move} {pid other : Pid} {address place : VirtAddr}

theorem MakesRoom.fills (room : move.MakesRoom) (pid : Pid) (address : VirtAddr) :
    move.Fills pid address := by
  cases move with
  | upkeep | pageOut _ => trivial
  | _ => exact room.elim

theorem not_brings_remove {kind : PageKind} {first : Bool} (removed : PageKind) :
    ¬Move.Brings pid address kind first (.remove other place removed) := by
  rintro (room | ⟨_, same⟩)
  · exact room
  · cases same

theorem Brings.fills {source : Pid} (brings : move.Brings source place .anonymous false) (pid : Pid)
    (address : VirtAddr) : move.Fills pid address := by
  rcases brings with room | ⟨frame, rfl⟩
  · exact room.fills pid address
  · exact ⟨rfl, nofun⟩

theorem Exits.concerns (exits : move.Exits pid) : move.Concerns pid := by
  cases move with
  | remove _ _ _ | leave _ => exact exits
  | _ => exact exits.elim

theorem Fills.concerns (fills : move.Fills pid address) : move.Concerns pid := by
  cases move with
  | upkeep | pageOut _ => trivial
  | pageIn _ _ _ _ _ => exact ⟨fills.1, fun first => (fills.2 first).1⟩
  | overwrite _ _ _ => exact ⟨fills.1, fills.2.2⟩
  | register _ _ _ => exact fills.1
  | _ => exact fills.elim

theorem Copies.concerns (copies : move.Copies pid address) : move.Concerns pid := by
  rcases copies with fills | rfl | rfl
  · exact fills.concerns
  · trivial
  · rfl

theorem Concerns.keepsMappings (concerns : move.Concerns pid) (different : other ≠ pid) :
    move.KeepsMappings other := by
  intro address
  constructor
  · rintro rfl
    exact different concerns
  · rintro rfl
    exact different concerns

theorem Fills.keepsMappings (fills : move.Fills pid address) (other : Pid) :
    move.KeepsMappings other := by
  intro place
  constructor
  · rintro rfl
    cases fills.2.2
  · rintro rfl
    exact fills

theorem Fills.keepsAccount (fills : move.Fills pid address) (other : Pid) :
    move.KeepsAccount other := by
  refine ⟨?_, ?_, ?_, ?_⟩
  · rintro rfl
    exact fills
  · rintro rfl
    exact fills
  · exact fun place => (fills.keepsMappings other place).1
  · rintro _ _ rfl
    exact fills.elim

end Move

section Paths

variable {before after : Machine} {pid other : Pid} {address place : VirtAddr}

/-- A process that is not concerned keeps its pages. -/
theorem Path.keepsPage_of_concerns (path : Path (Move.Concerns pid) before after)
    (sound : before.Sound) (different : other ≠ pid) (address : VirtAddr) :
    before.KeepsPage after other address :=
  path.keepsPage sound (fun _ => different) (fun _ => different) (fun same => different same.1)
    fun _ _ brings => different (brings.2 rfl)

/-- A page that was touched is the same one after it was brought in. -/
theorem Path.keepsPage_of_brings {kind : PageKind}
    (path : Path (Move.Brings pid address kind false) before after) (sound : before.Sound) :
    before.KeepsPage after pid address := by
  refine path.keepsPage sound ?_ Move.not_brings_remove ?_ ?_
  · rintro _ (room | ⟨_, same⟩)
    · exact room
    · cases same
  · rintro (room | ⟨_, same⟩)
    · exact room
    · cases same
  · rintro _ _ (room | ⟨_, same⟩)
    · exact room
    · cases same

/-- The copy of one page leaves all other pages alone. -/
theorem Path.keepsPage_of_copies (path : Path (Move.Copies pid address) before after)
    (sound : before.Sound) (elsewhere : ¬(other = pid ∧ place = address)) :
    before.KeepsPage after other place := by
  refine path.keepsPage sound ?_ ?_ ?_ ?_
  · rintro kind (fills | same | same)
    · exact elsewhere ⟨fills.1, fills.2.1⟩
    · cases same
    · cases same
      exact elsewhere ⟨rfl, rfl⟩
  · rintro kind (fills | same | same)
    · exact fills
    · cases same
    · cases same
  · rintro (fills | same | same)
    · exact elsewhere ⟨fills.1, fills.2.1⟩
    · cases same
    · cases same
  · rintro frame kind (fills | same | same)
    · exact elsewhere (fills.2 rfl)
    · cases same
    · cases same

theorem Machine.stackPointer?_of_concerns (path : Path (Move.Concerns pid) before after)
    (different : other ≠ pid) : after.stackPointer? other = before.stackPointer? other := by
  induction path with
  | refl => rfl
  | tail _ stepped inductionHypothesis =>
      obtain ⟨move, concerns, step⟩ := stepped
      rw [← inductionHypothesis]
      apply step.stackPointer?
      · rintro rfl
        exact different concerns
      · rintro rfl
        exact different concerns
      · rintro rfl
        exact different concerns

end Paths

/-- A mapping is one of the same pages and the same file, made after others were. -/
structure Mapping.CopyOf (copy source : Mapping) (next : MappingId) : Prop where
  start : copy.start = source.start
  pageCount : copy.pageCount = source.pageCount
  file : copy.file = source.file
  later : next ≤ copy.id

namespace Machine

variable {before state after : Machine} {pid child parent : Pid} {address : VirtAddr} {page : Page}
  {copies : MappingCopies} {region : FileRegion} {base : FileId → Nat}

/-! ## Anonymous pages -/

/-- A page with a known past is in memory already, or it is brought in, or it stays out. -/
theorem ends_makeResident_known (sound : before.Sound)
    (registered : before.page? pid address = some page) :
    (makeResident pid address before).Ends
      (fun _ after => Path (Move.Brings pid address page.kind page.isUntouched) before after ∧
        (after.frame? pid address).isSome = true)
      (fun _ after => Path Move.MakesRoom before after)
      (fun fault => fault.isCorruption = false) := by
  have whole := Address.pageDown_eq_self_iff.2 (sound.frames.located registered).2
  refine (ends_makeResident sound pid address).imp ?_ (fun _ _ path => path)
    (fun _ stopped => stopped)
  rw [whole]
  intro _ after result
  rcases result with ⟨rfl, resident⟩ | ⟨-, broughtIn⟩
  · exact ⟨.refl after, resident⟩
  · obtain ⟨frame, kind, first, settled, inHand, holding, step, held⟩ := broughtIn
    -- Making room leaves the page as it was.
    obtain ⟨now, found, sameKind, sameFirst⟩ := step.page_of_pageIn
    have keeps : before.KeepsPage settled pid address :=
      holding.path.keepsPage sound (fun _ => id) (fun _ => id) id fun _ _ => id
    have touched := keeps.isUntouched registered found
    obtain ⟨kept, also, continues, -⟩ := keeps.present page registered
    rw [found, Option.some.injEq] at also
    subst also
    rw [← sameKind, continues.kind, ← sameFirst, touched] at step
    refine ⟨(holding.path.mono fun _ room => .inl room).snoc step (.inr ⟨frame, rfl⟩), ?_⟩
    rw [held]
    rfl

/-- A page that was just registered for the copy is brought in and filled. -/
theorem ends_fillPage {contents : PageData} (sound : before.Sound)
    (registered : before.page? pid address = some page) (kind : page.kind = .anonymous) :
    (do
      makeResident pid address
      let machine ← Action.get
      let copy ← Action.require .badAddress (machine.findPage? pid address)
      let frame ← Action.require .badAddress copy.frame
      setResident (machine.resident.write frame contents) : Action Machine Unit) before |>.Ends
      (fun _ after => Path (Move.Fills pid address) before after ∧
        (∃ copy, after.page? pid address = some copy ∧ page.Continues copy ∧
          copy.isUntouched = false) ∧
        after.contents? pid address = some contents)
      (fun _ after => Path (Move.Fills pid address) before after)
      (fun fault => fault.isCorruption = false) := by
  have whole := Address.pageDown_eq_self_iff.2 (sound.frames.located registered).2
  rw [Action.ends_bind]
  refine (ends_makeResident_known sound registered).imp ?_
    (fun _ _ path => path.mono fun _ room => room.fills pid address) (fun _ stopped => stopped)
  intro _ filled result
  obtain ⟨path, resident⟩ := result
  have fills : Path (Move.Fills pid address) before filled := by
    refine path.mono fun move brings => ?_
    rcases brings with room | ⟨frame, rfl⟩
    · exact room.fills pid address
    · exact ⟨kind, fun _ => ⟨rfl, rfl⟩⟩
  have soundFilled := path.sound sound
  simp only [Action.ends_bind, Action.ends_get, Action.ends_require, setResident,
    Action.ends_orHalt, Action.ends_modify]
  rw [findPage?_eq_page?, whole]
  refine ⟨fun copy found => ⟨fun frame held => ?_, fun _ => fills⟩, fun _ => fills⟩
  have owner := soundFilled.frames.owner?_of_held found held
  obtain ⟨occupied, written⟩ := ResidentSet.exists_write_eq_ok
    (soundFilled.frames.resident.contents?_isSome owner) contents
  refine Action.of_result_eq_ok written ?_
  obtain ⟨same, also, continues⟩ := path.exists_page? sound registered Move.not_brings_remove
  rw [found, Option.some.injEq] at also
  subst also
  have copyKind := continues.kind.trans kind
  have placed := soundFilled.slots.placed pid address copy found
  refine ⟨fills.snoc (.overwrite owner found written) ⟨rfl, rfl, copyKind⟩,
    ⟨copy, found, continues, ?_⟩, contents?_of_written placed found copyKind held written⟩
  cases fresh : copy.isUntouched with
  | false => rfl
  | true =>
      rw [placed.frame_eq_none fresh] at held
      cases held

/-- The bytes of an anonymous page that was touched are copied to a page of the other process. -/
theorem ends_copyAnonymousPage (sound : before.Sound)
    (registered : before.page? parent address = some page) (kind : page.kind = .anonymous)
    (touched : page.isUntouched = false) :
    (copyAnonymousPage child parent address before).Ends
      (fun _ after => Path (Move.Fills child address) before after ∧
        (∃ copy, after.page? child address = some copy ∧ copy.address = page.address ∧
          copy.writable = page.writable ∧ copy.marker = page.marker ∧ copy.kind = .anonymous ∧
          copy.isUntouched = false) ∧
        after.contents? child address = before.contents? parent address)
      (fun _ after => Path (Move.Fills child address) before after)
      (fun fault => fault.isCorruption = false) := by
  obtain ⟨atAddress, aligned⟩ := sound.frames.located registered
  have whole := Address.pageDown_eq_self_iff.2 aligned
  unfold copyAnonymousPage
  rw [Action.ends_bind]
  refine (ends_makeResident_known sound registered).imp ?_
    (fun _ _ path => path.mono fun _ room => room.fills child address) (fun _ stopped => stopped)
  intro _ source result
  obtain ⟨path, -⟩ := result
  rw [kind, touched] at path
  have toSource := path.mono fun _ brings => brings.fills child address
  have soundSource := path.sound sound
  have keeps := path.keepsPage_of_brings sound
  rw [Action.ends_bind, Action.ends_get, Action.ends_bind, Action.ends_require]
  refine ⟨fun now found => ?_, fun _ => toSource⟩
  rw [Action.ends_bind, Action.ends_require]
  refine ⟨fun frame held => ?_, fun _ => toSource⟩
  rw [findPage?_eq_page?, whole] at found
  obtain ⟨same, also, continues, -⟩ := keeps.present page registered
  rw [found, Option.some.injEq] at also
  subst also
  have placed := soundSource.slots.placed parent address now found
  obtain ⟨contents, holds⟩ := Option.isSome_iff_exists.1
    (soundSource.frames.resident.contents?_isSome (soundSource.frames.owner?_of_held found held))
  have held' : before.contents? parent address = some contents := by
    rw [← keeps.contents, contents?_of_page found,
      contentsOf?_of_held (continues.kind.trans kind) placed held, holds]
  rw [Action.ends_bind, Action.ends_orHalt]
  refine Action.of_result_eq_ok (ResidentSet.read_eq_ok_iff.2 holds) ?_
  rw [Action.ends_bind]
  unfold registerPage
  split
  case isFalse => exact toSource
  case isTrue =>
    have noMapping : ∀ mapping, (Page.create address now.writable now.marker
        (.untouched (.anonymous none))).mapping? = some mapping → source.Admits child mapping := by
      intro mapping mapped
      cases mapped
    refine (ends_insertPage rfl rfl (Address.offset_pageDown address) noMapping).imp ?_ ?_
      (fun _ no => no.elim)
    · intro _ reserved result
      obtain ⟨step, pages⟩ := result
      have toReserved : Path (Move.Fills child address) before reserved :=
        toSource.snoc step ⟨rfl, whole, rfl⟩
      have atChild := pages child address
      rw [if_pos ⟨rfl, whole⟩] at atChild
      refine (ends_fillPage (toReserved.sound sound) atChild rfl).imp ?_
        (fun _ _ path => toReserved.trans path) (fun _ stopped => stopped)
      intro _ after result
      obtain ⟨path, ⟨copy, found', copied, touched'⟩, holds'⟩ := result
      refine ⟨toReserved.trans path, ⟨copy, found', ?_, ?_, ?_, copied.kind, touched'⟩, ?_⟩
      · rw [copied.address, atAddress]
        exact whole
      · exact copied.writable.trans continues.writable
      · exact copied.marker.trans continues.marker
      · rw [holds', held']
    · intro _ after result
      rw [result.1]
      exact toSource

/-! ## Parts of files -/

/-- Any page of a mapping may follow another one in the same process. -/
theorem Sound.admits_joined {mapping : Mapping} (sound : before.Sound)
    (mapped : before.mapping? pid address = some mapping) : before.Admits pid mapping := by
  obtain ⟨page, registered, belongs⟩ := Option.bind_eq_some_iff.1 mapped
  refine ⟨sound.mappings pid address page mapping registered belongs, ?_⟩
  intro other place found atPlace sameId
  exact sound.apart _ _ _ _ _ _ atPlace mapped sameId

/-- The part of a file behind a page was copied for a process that has the mappings in `copies`. -/
structure CopiedRegion (child : Pid) (base : FileId → Nat) (copies : MappingCopies)
    (region : FileRegion) (answer : FileRegion × MappingCopies) (copy : Mapping)
    (state after : Machine) : Prop where
  step : Step .refer state after
  part : answer.1 = { region with mapping := copy }
  found : answer.2[region.mapping.start]? = some copy
  kept : ∀ (start : VirtAddr) (other : Mapping), copies[start]? = some other →
    answer.2[start]? = some other
  /-- A mapping is copied once. -/
  fresh : ∀ (start : VirtAddr) (other : Mapping), answer.2[start]? = some other →
    copies[start]? = some other ∨ start = region.mapping.start ∧ other = copy ∧
      copy.CopyOf region.mapping state.store.nextMapping
  /-- The mapping is referred to once more, or it is made with one reference. -/
  referred : copy ∈ state.mappings child ∧
      BackingStore.retain copy state.store = .done () after.store ∨
    BackingStore.createMapping region.mapping.start region.mapping.pageCount region.mapping.file 1
      state.store = .done copy after.store
  accounts : after.store.Accounts base (copy :: state.mappings child)
  admits : after.Admits child copy

/-- The copy of a mapping is found under its first page, or it is made and kept there. -/
theorem ends_copyRegion (sound : state.Sound) (accounted : state.Accounted child base)
    (live : ∀ (start : VirtAddr) (copy : Mapping), copies[start]? = some copy →
      copy ∈ state.mappings child) (region : FileRegion) :
    (onStore (copyRegion copies region) state).Ends
      (fun answer after => ∃ copy, CopiedRegion child base copies region answer copy state after)
      (fun _ after => after = state) (fun _ => False) := by
  simp only [onStore, Action.ends_onPart, copyRegion]
  cases known : copies[region.mapping.start]? with
  | some copy =>
      have member := live _ copy known
      obtain ⟨address, mapped⟩ := (mem_mappings_iff sound.frames).1 member
      have step := Step.retain (rfl : BackingStore.retain copy state.store = .done () _)
      exact ⟨copy, step, rfl, known, fun _ _ => id, fun _ _ => .inl, .inl ⟨member, rfl⟩,
        accounted.retain member rfl, (step.sound sound).admits_joined mapped⟩
  | none =>
      simp only [Action.ends_bind, Action.ends_pure]
      refine (BackingStore.ends_createMapping.and Outcome.ends_self).imp ?_ ?_ (fun _ no => no.1)
      · intro copy store made
        obtain ⟨⟨same, -⟩, done⟩ := made
        have lookup (start : VirtAddr) : (copies.insert region.mapping.start copy)[start]? =
            if region.mapping.start = start then some copy else copies[start]? := by
          rw [Std.ExtTreeMap.getElem?_insert]
          simp
        refine ⟨copy, .createMapping done, rfl, (lookup _).trans (if_pos rfl), ?_, ?_, .inr done,
          (accounted.create Nat.one_pos done).2, sound.admits_new done child⟩
        · intro start other earlier
          refine (lookup start).trans ((if_neg ?_).trans earlier)
          rintro rfl
          rw [known] at earlier
          cases earlier
        · intro start other later
          rw [lookup] at later
          split at later
          case isTrue here =>
            cases later
            refine .inr ⟨here.symm, rfl, ?_⟩
            rw [same]
            exact ⟨rfl, rfl, rfl, Nat.le_refl _⟩
          case isFalse => exact .inl later
      · intro _ store same
        rw [same.1]

/-- A page that was never touched is registered for the copy, where it has no page. -/
theorem ends_insertCopy {writable : Bool} {marker : PageMarker} {initializer : Initializer}
    (process : state.stackPointer? child ≠ none) (vacant : state.page? child address = none)
    (aligned : address.offset = 0)
    (admitted : ∀ mapping, (Page.create address writable marker
      (.untouched initializer)).mapping? = some mapping → state.Admits child mapping) :
    (insertPage child (Page.create address writable marker (.untouched initializer)) state).Ends
      (fun _ after =>
        Step (.register child address (Backing.untouched initializer).kind) state after ∧
        after.store = state.store ∧
        ∀ other place, after.page? other place =
          if child = other ∧ address = place then
            some ⟨address, writable, marker, .untouched initializer, none⟩
          else state.page? other place)
      (fun _ _ => False) (fun _ => False) := by
  have whole := Address.pageDown_eq_self_iff.2 aligned
  refine (ends_insertPage rfl rfl (Address.offset_pageDown address) admitted).imp ?_ ?_
    (fun _ no => no)
  · intro _ after result
    obtain ⟨step, pages⟩ := result
    simp only [Page.create, whole] at step pages
    exact ⟨step, step.store_of_register, pages⟩
  · intro _ after result
    refine process (result.2 ?_)
    simp only [Page.create, whole]
    exact vacant

end Machine

end DemandPaging
