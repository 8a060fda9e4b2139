import DemandPaging.Proofs.PageCopy

/-!
The steps of the copy of a process.

Owns:
- `Machine.Copied`, what a page of the copy has of the page it was copied from;
- `Machine.Copying`, how far a process has been copied, and that every round leaves the pages alone
  that were copied before;
- the copy of a whole process, and its removal if it cannot be completed.

Does not own: the steps of the copy of one page (`Machine.ends_copyAnonymousPage` and
`Machine.ends_copyRegion`).

Main statements: `ends_copyPage_round`, what one round of the copy does, and `ends_fork`.
-/

namespace DemandPaging

namespace Machine

variable {origin before state after : Machine} {child parent : Pid} {address : VirtAddr}
  {page copy : Page} {rest : List VirtAddr} {copies more : MappingCopies}

/-- What the copy of a page has of the page as it was when the copy of the process began. -/
structure Copied (origin : Machine) (parent child : Pid) (copies : MappingCopies)
    (page copy : Page) (state : Machine) : Prop where
  address : copy.address = page.address
  writable : copy.writable = page.writable
  marker : copy.marker = page.marker
  kind : copy.kind = page.kind
  untouched : page.kind = .anonymous → page.isUntouched = true → copy.backing = page.backing
  touched : page.kind = .anonymous → page.isUntouched = false → copy.isUntouched = false ∧
    ∃ bytes, origin.contents? parent page.address = some bytes ∧
      state.contents? child page.address = some bytes
  file : ∀ region, page.region? = some region → ∃ mapping : Mapping,
    copies[region.mapping.start]? = some mapping ∧
      copy.backing = .untouched (.file { region with mapping })

/-- A page without a file that was not touched is copied as it is. -/
theorem Copied.of_untouched {loader : Option Loader}
    (backed : page.backing = .untouched (.anonymous loader)) (address : copy.address = page.address)
    (writable : copy.writable = page.writable) (marker : copy.marker = page.marker)
    (backing : copy.backing = page.backing) :
    origin.Copied parent child copies page copy state := by
  refine ⟨address, writable, marker, ?_, fun _ _ => backing, ?_, ?_⟩
  · rw [Page.kind, Page.kind, backing]
  · intro _ touched
    rw [Page.isUntouched, backed] at touched
    cases touched
  · intro region ofFile
    rw [Page.region?, backed] at ofFile
    cases ofFile

/-- A page without a file that was touched is copied with its bytes. -/
theorem Copied.of_touched (sound : origin.Sound)
    (registered : origin.page? parent page.address = some page) (kind : page.kind = .anonymous)
    (touched : page.isUntouched = false) (address : copy.address = page.address)
    (writable : copy.writable = page.writable) (marker : copy.marker = page.marker)
    (kindOfCopy : copy.kind = .anonymous) (touchedCopy : copy.isUntouched = false)
    (holds : state.contents? child page.address = origin.contents? parent page.address) :
    origin.Copied parent child copies page copy state := by
  refine ⟨address, writable, marker, kindOfCopy.trans kind.symm, ?_, ?_, ?_⟩
  · intro _ untouched
    rw [touched] at untouched
    cases untouched
  · intro _ _
    obtain ⟨bytes, held⟩ := sound.exists_contents? registered kind touched
    exact ⟨touchedCopy, bytes, held, holds.trans held⟩
  · intro region ofFile
    rw [Page.region?_eq_none_iff.2 kind] at ofFile
    cases ofFile

theorem Copied.of_keeps (copied : origin.Copied parent child copies page copy state)
    (registered : state.page? child page.address = some copy)
    (keeps : state.KeepsPage after child page.address)
    (kept : ∀ (start : VirtAddr) (mapping : Mapping), copies[start]? = some mapping →
      more[start]? = some mapping) :
    ∃ now, after.page? child page.address = some now ∧
      origin.Copied parent child more page now after := by
  obtain ⟨now, found, continues, same⟩ := keeps.present copy registered
  refine ⟨now, found, continues.address.trans copied.address,
    continues.writable.trans copied.writable, continues.marker.trans copied.marker,
    continues.kind.trans copied.kind, ?_, ?_, ?_⟩
  · intro kind fresh
    have backed := copied.untouched kind fresh
    rw [same (by rw [Page.isUntouched, backed]; exact fresh), backed]
  · intro kind touched
    obtain ⟨touchedCopy, bytes, held, holds⟩ := copied.touched kind touched
    exact ⟨continues.touched touchedCopy, bytes, held, keeps.contents.trans holds⟩
  · intro region ofFile
    obtain ⟨mapping, known, backed⟩ := copied.file region ofFile
    refine ⟨mapping, kept _ _ known, ?_⟩
    rw [same (by rw [Page.isUntouched, backed]; rfl), backed]

/-- A process has been copied up to some addresses that are left. The copies of mappings are kept
by the first pages of the mappings. -/
structure Copying (origin : Machine) (child parent : Pid) (rest : List VirtAddr)
    (copies : MappingCopies) (state : Machine) : Prop where
  path : Path (Move.Concerns child) origin state
  process : state.stackPointer? child ≠ none
  accounted : state.Accounted child origin.store.files.handles
  made : ∀ (start : VirtAddr) (copy : Mapping), copies[start]? = some copy → ∃ source,
    origin.mapping? parent start = some source ∧ source.start = start ∧
      copy.CopyOf source origin.store.nextMapping
  live : ∀ (start : VirtAddr) (copy : Mapping), copies[start]? = some copy →
    copy ∈ state.mappings child
  distinct : rest.Nodup
  left : ∀ address ∈ rest, origin.page? parent address ≠ none
  vacant : ∀ address, address ∈ rest ∨ origin.page? parent address = none →
    state.page? child address = none
  copied : ∀ address page, address ∉ rest → origin.page? parent address = some page →
    ∃ copy, state.page? child address = some copy ∧
      origin.Copied parent child copies page copy state

/-- One more page is copied, and no other page of the copy changes. -/
theorem Copying.next (copying : origin.Copying child parent (address :: rest) copies state)
    (sound : origin.Sound) (registered : origin.page? parent address = some page)
    (path : Path (Move.Concerns child) state after)
    (elsewhere : ∀ place, address ≠ place → state.KeepsPage after child place)
    (copied : ∃ copy, after.page? child address = some copy ∧
      origin.Copied parent child more page copy after)
    (accounted : after.Accounted child origin.store.files.handles)
    (kept : ∀ (start : VirtAddr) (copy : Mapping), copies[start]? = some copy →
      more[start]? = some copy)
    (made : ∀ (start : VirtAddr) (copy : Mapping), more[start]? = some copy → ∃ source,
      origin.mapping? parent start = some source ∧ source.start = start ∧
        copy.CopyOf source origin.store.nextMapping)
    (live : ∀ (start : VirtAddr) (copy : Mapping), more[start]? = some copy →
      copy ∈ after.mappings child) :
    origin.Copying child parent rest more after := by
  have distinct := List.nodup_cons.1 copying.distinct
  refine ⟨copying.path.trans path, ?_, accounted, made, live, distinct.2,
    fun place member => copying.left place (List.mem_cons_of_mem _ member), ?_, ?_⟩
  · intro missing
    obtain ⟨copy, found, -⟩ := copied
    obtain ⟨space, atChild, -⟩ := space_of_page? found
    rw [stackPointer?, atChild] at missing
    cases missing
  · intro place without
    have different : address ≠ place := by
      rintro rfl
      rcases without with member | none
      · exact distinct.1 member
      · rw [registered] at none
        cases none
    apply (elsewhere place different).absent
    exact copying.vacant place (without.imp_left (List.mem_cons_of_mem _))
  · intro place other outside atParent
    by_cases here : address = place
    · subst here
      rw [registered, Option.some.injEq] at atParent
      subst atParent
      exact copied
    · have notLeft : place ∉ address :: rest := by
        rw [List.mem_cons, not_or]
        exact ⟨Ne.symm here, outside⟩
      obtain ⟨copy, found, same⟩ := copying.copied place other notLeft atParent
      obtain ⟨rfl, -⟩ := sound.frames.located atParent
      exact same.of_keeps found (elsewhere _ here) kept

/-! ## One round -/

/-- What is left after a page could not be copied: the copy has pages of mappings only for which it
is accounted. -/
structure CopyFailed (origin : Machine) (child : Pid) (after : Machine) : Prop where
  path : Path (Move.Concerns child) origin after
  accounted : after.Accounted child origin.store.files.handles

theorem Copying.failed_of_fills (copying : origin.Copying child parent rest copies state)
    (sound : origin.Sound) (path : Path (Move.Fills child address) state after) :
    origin.CopyFailed child after :=
  ⟨copying.path.trans (path.mono fun _ fills => fills.concerns),
    path.accounted (copying.path.sound sound) copying.accounted fun _ fills =>
      fills.keepsAccount child⟩

/-- A page that belongs to no mapping was copied. -/
theorem Copying.next_of_fills
    (copying : origin.Copying child parent (address :: rest) copies state) (sound : origin.Sound)
    (registered : origin.page? parent address = some page)
    (path : Path (Move.Fills child address) state after)
    (copied : ∃ copy, after.page? child address = some copy ∧
      origin.Copied parent child copies page copy after) :
    origin.Copying child parent rest copies after := by
  have soundState := copying.path.sound sound
  obtain ⟨concerns, accounted⟩ := copying.failed_of_fills sound path
  refine copying.next sound registered (path.mono fun _ fills => fills.concerns) ?_ copied accounted
    (fun _ _ => id) copying.made ?_
  · intro place different
    exact (path.mono fun _ => .inl).keepsPage_of_copies soundState fun same => different same.2.symm
  · intro start copy known
    have same := region?_of_path path soundState fun _ fills => fills.keepsMappings child
    refine (perm_mappings_of_same soundState.frames (path.sound soundState).frames ?_).mem_iff.2
      (copying.live start copy known)
    intro place
    rw [mapping?_eq_map, same, mapping?_eq_map]

/-- A page of a file was copied as a page of the copy of its mapping. -/
theorem Copying.next_of_region {region : FileRegion} {mapping : Mapping} {middle : Machine}
    {answer : FileRegion × MappingCopies}
    (copying : origin.Copying child parent (address :: rest) copies state) (sound : origin.Sound)
    (whole : origin.MappingsWhole parent)
    (registered : origin.page? parent address = some page) (ofFile : page.region? = some region)
    (result : CopiedRegion child origin.store.files.handles copies region answer mapping state
      middle)
    (step : Step (.register child address .file) middle after)
    (pages : ∀ other place, after.page? other place =
      if child = other ∧ address = place then
        some ⟨address, page.writable, page.marker, .untouched (.file { region with mapping }), none⟩
      else middle.page? other place) :
    origin.Copying child parent rest answer.2 after := by
  have soundState := copying.path.sound sound
  have soundMiddle := result.step.sound soundState
  have soundAfter := step.sound soundMiddle
  have lookup : ∀ place, after.mapping? child place =
      if address = place then some mapping else state.mapping? child place := by
    intro place
    rw [mapping?, pages]
    simp only [true_and]
    split
    · rfl
    · have same := region?_of_step result.step soundState.frames
        (by simp [Move.KeepsMappings] : Move.KeepsMappings child .refer) place
      rw [← mapping?, mapping?_eq_map, same, mapping?_eq_map]
  have absent : state.mapping? child address = none := by
    rw [mapping?, copying.vacant address (.inl List.mem_cons_self)]
    rfl
  have perm := perm_mappings_of_added address soundState.frames soundAfter.frames absent lookup
  have path : Path (Move.Copies child address) state after :=
    (Path.single result.step (.inr (.inl rfl))).snoc step (.inr (.inr rfl))
  have atStart : origin.mapping? parent region.mapping.start = some region.mapping := by
    have mapped : origin.mapping? parent address = some region.mapping := by
      rw [mapping?, registered, Option.bind_some, Page.mapping?, ofFile]
      rfl
    obtain ⟨-, covers, members⟩ := whole.members mapped
    exact members _ covers.start
  refine copying.next sound registered (path.mono fun _ copies => copies.concerns) ?_ ?_ ?_
    result.kept ?_ ?_
  · intro place different
    exact path.keepsPage_of_copies soundState fun same => different same.2.symm
  · refine ⟨_, (pages child address).trans (if_pos ⟨rfl, rfl⟩), ?_⟩
    have isFile : page.kind = .file := Page.kind_of_mapping? (congrArg _ ofFile)
    refine ⟨(sound.frames.located registered).1.symm, rfl, rfl, isFile.symm, ?_, ?_, ?_⟩
    · intro kind
      rw [isFile] at kind
      cases kind
    · intro kind
      rw [isFile] at kind
      cases kind
    · intro other also
      rw [ofFile, Option.some.injEq] at also
      subst also
      exact ⟨mapping, result.found, rfl⟩
  · rw [Accounted, step.store_of_register]
    exact result.accounts.perm perm.symm
  · intro start other known
    rcases result.fresh start other known with earlier | ⟨rfl, rfl, copyOf⟩
    · exact copying.made start other earlier
    · refine ⟨region.mapping, atStart, rfl, copyOf.start, copyOf.pageCount, copyOf.file, ?_⟩
      exact Nat.le_trans (copying.path.fileCount sound).2 copyOf.later
  · intro start other known
    rw [perm.mem_iff]
    rcases result.fresh start other known with earlier | ⟨-, rfl, -⟩
    · exact List.mem_cons_of_mem _ (copying.live start other earlier)
    · exact List.mem_cons_self

/-- What the copy of one page did: it registered a page that belongs to no mapping and filled it if
need be, or it registered a page of the copy of a mapping. -/
inductive CopyRound (origin : Machine) (child parent : Pid) (copies : MappingCopies)
    (address : VirtAddr) (state : Machine) : MappingCopies → Machine → Prop where
  | filled {page : Page} {after : Machine} (registered : origin.page? parent address = some page)
      (path : Path (Move.Fills child address) state after)
      (copied : ∃ copy, after.page? child address = some copy ∧
        origin.Copied parent child copies page copy after) :
      CopyRound origin child parent copies address state copies after
  | mapped {page : Page} {region : FileRegion} {mapping : Mapping} {middle after : Machine}
      {answer : FileRegion × MappingCopies} (registered : origin.page? parent address = some page)
      (ofFile : page.region? = some region)
      (result : CopiedRegion child origin.store.files.handles copies region answer mapping state
        middle)
      (step : Step (.register child address .file) middle after)
      (pages : ∀ other place, after.page? other place =
        if child = other ∧ address = place then
          some ⟨address, page.writable, page.marker, .untouched (.file { region with mapping }),
            none⟩
        else middle.page? other place) :
      CopyRound origin child parent copies address state answer.2 after

/-- One page is copied, or the copy fails before the page belongs to a mapping. -/
theorem ends_copyPage_round (sound : origin.Sound) (different : parent ≠ child)
    (copying : origin.Copying child parent (address :: rest) copies state) :
    (copyPage child parent copies address state).Ends
      (origin.CopyRound child parent copies address state)
      (fun _ after => Path (Move.Fills child address) state after)
      (fun fault => fault.isCorruption = false) := by
  have soundState := copying.path.sound sound
  obtain ⟨page, registered⟩ := Option.ne_none_iff_exists'.1
    (copying.left address List.mem_cons_self)
  obtain ⟨atAddress, aligned⟩ := sound.frames.located registered
  have vacant := copying.vacant address (.inl List.mem_cons_self)
  have keeps := copying.path.keepsPage_of_concerns sound different address
  obtain ⟨now, found, continues, same⟩ := keeps.present page registered
  have fresh := keeps.isUntouched registered found
  unfold copyPage
  rw [Action.ends_bind, Action.ends_get, Action.ends_bind, Action.ends_require,
    findPage?_eq_page?, Address.pageDown_eq_self_iff.2 aligned, found]
  refine ⟨fun target isNow => ?_, fun missing => by cases missing⟩
  cases isNow
  have placed : now.address = address := continues.address.trans atAddress
  rcases backed : now.backing with (loader | region) | image? | region
  case untouched.anonymous =>
      have untouched : page.isUntouched = true := by
        rw [← fresh, Page.isUntouched, backed]
        rfl
      obtain rfl := same untouched
      have noMapping : ∀ mapping, (Page.create address now.writable now.marker
          (.untouched (.anonymous loader))).mapping? = some mapping →
          state.Admits child mapping := by
        intro mapping mapped
        cases mapped
      rw [Action.ends_bind, placed]
      refine (ends_insertCopy copying.process vacant aligned noMapping).imp ?_
        (fun _ _ no => no.elim) (fun _ no => no.elim)
      intro _ after result
      obtain ⟨step, -, pages⟩ := result
      exact .filled registered (Path.single step ⟨rfl, rfl, rfl⟩)
        ⟨_, (pages child address).trans (if_pos ⟨rfl, rfl⟩),
          .of_untouched backed placed.symm rfl rfl backed.symm⟩
  case anonymous =>
      have kind : now.kind = .anonymous := by
        rw [Page.kind, backed]
        rfl
      have touched : now.isUntouched = false := by
        rw [Page.isUntouched, backed]
        rfl
      rw [Action.ends_bind]
      refine (ends_copyAnonymousPage soundState found kind touched).imp ?_
        (fun _ _ path => path) (fun _ stopped => stopped)
      intro _ after result
      obtain ⟨path, ⟨copy, atChild, copyAddress, writable, marker, copyKind, touchedCopy⟩, holds⟩ :=
        result
      subst atAddress
      exact .filled registered path ⟨copy, atChild, .of_touched sound registered
        (continues.kind.symm.trans kind) (fresh.symm.trans touched)
        (copyAddress.trans continues.address) (writable.trans continues.writable)
        (marker.trans continues.marker) copyKind touchedCopy (holds.trans keeps.contents)⟩
  case untouched.file | file =>
      -- Both kinds are copied as pages of the copy's own mapping, not yet touched.
      have ofFile : page.region? = some region := by
        rw [← continues.region?, Page.region?, backed]
        rfl
      rw [Action.ends_bind]
      refine (ends_copyRegion soundState copying.accounted copying.live region).imp ?_ ?_
        (fun _ no => no.elim)
      · rintro ⟨copyOfRegion, more⟩ middle ⟨mapping, result⟩
        have sameRegion := result.part
        dsimp only at sameRegion ⊢
        subst sameRegion
        have admitted : ∀ other, (Page.create address now.writable now.marker
            (.untouched (.file { region with mapping }))).mapping? = some other →
            middle.Admits child other := by
          intro other mapped
          cases mapped
          exact result.admits
        have process : middle.stackPointer? child ≠ none := by
          rw [result.step.stackPointer? (by simp) (by simp) (by simp)]
          exact copying.process
        have vacantMiddle : middle.page? child address = none :=
          result.step.page?_eq_none soundState.frames vacant (by simp)
        rw [Action.ends_bind, placed]
        refine (ends_insertCopy process vacantMiddle aligned admitted).imp ?_
          (fun _ _ no => no.elim) (fun _ no => no.elim)
        intro _ after inserted
        obtain ⟨step, -, pages⟩ := inserted
        rw [continues.writable, continues.marker] at pages
        exact .mapped registered ofFile result step pages
      · intro _ after unchanged
        rw [unchanged]
        exact .refl state

/-- One page is copied, or the copy fails. -/
theorem ends_copyPage (sound : origin.Sound) (whole : origin.MappingsWhole parent)
    (different : parent ≠ child)
    (copying : origin.Copying child parent (address :: rest) copies state) :
    (copyPage child parent copies address state).Ends (origin.Copying child parent rest)
      (fun _ after => origin.CopyFailed child after)
      (fun fault => fault.isCorruption = false) := by
  refine (ends_copyPage_round sound different copying).imp ?_
    (fun _ _ path => copying.failed_of_fills sound path) (fun _ stopped => stopped)
  intro more after round
  cases round with
  | filled registered path copied => exact copying.next_of_fills sound registered path copied
  | mapped registered ofFile result step pages =>
      exact copying.next_of_region sound whole registered ofFile result step pages

/-! ## The whole process -/

/-- The copy of a process begins without pages. -/
theorem Copying.begin {space : AddressSpace} (sound : before.Sound)
    (found : before.spaces[parent]? = some space) (step : Step (.arrive child) before after) :
    before.Copying child parent (space.pages.toList.map Page.address) ∅ after := by
  have soundSpace := (sound.frames.spaces parent space found).1
  have registered {address : VirtAddr} {page : Page}
      (atParent : before.page? parent address = some page) :
      address ∈ space.pages.toList.map Page.address := by
    rw [page?_of_space found] at atParent
    obtain ⟨member, rfl⟩ := soundSpace.mem_toList_iff.1 atParent
    exact List.mem_map_of_mem member
  have vacant : ∀ address, after.page? child address = none := by
    intro address
    cases step.pageChange sound.frames with
    | still _ _ pages =>
        cases step with
        | arrive => rw [pages, page?, sound.frames.space_of_next]; rfl
    | moved unseen => exact unseen.elim
  have noMappings : after.mappings child = [] := by
    rw [List.eq_nil_iff_forall_not_mem]
    intro mapping member
    obtain ⟨address, mapped⟩ := (mem_mappings_iff (step.sound sound).frames).1 member
    rw [mapping?, vacant] at mapped
    cases mapped
  refine ⟨Path.single step rfl, ?_, ?_, ?_, ?_, soundSpace.nodup_addresses, ?_,
    fun address _ => vacant address, ?_⟩
  · cases step with
    | arrive => simp [stackPointer?]
  · rw [Accounted, noMappings]
    cases step with
    | arrive => exact BackingStore.accounts_nil before.store
  · intro start copy known
    simp at known
  · intro start copy known
    simp at known
  · intro address listed
    obtain ⟨page, member, rfl⟩ := List.mem_map.1 listed
    rw [page?_of_space found, soundSpace.mem_toList_iff.2 ⟨member, rfl⟩]
    simp
  · intro address page outside atParent
    exact absurd (registered atParent) outside

/-- All pages of a process are copied to one that has none, or the copy fails. -/
theorem ends_copyPages {space : AddressSpace} (sound : before.Sound)
    (whole : before.MappingsWhole parent) (different : parent ≠ child)
    (found : before.spaces[parent]? = some space) (step : Step (.arrive child) before state) :
    (copyPages child parent state).Ends
      (fun _ after => ∃ copies, before.Copying child parent [] copies after)
      (fun _ after => before.CopyFailed child after)
      (fun fault => fault.isCorruption = false) := by
  have begun := Copying.begin sound found step
  have same : state.spaces[parent]? = some space := by
    cases step with
    | arrive => rw [spaces_insert rfl, if_neg (Ne.symm different), found]
  simp only [copyPages, Action.ends_bind, Machine.space, Action.ends_require]
  refine ⟨fun target isSpace => ?_, fun missing => by rw [same] at missing; cases missing⟩
  rw [same, Option.some.injEq] at isSpace
  subst isSpace
  have loop : ((space.pages.toList.map Page.address).foldlM (copyPage child parent) ∅ state).Ends
      (before.Copying child parent []) (fun _ after => before.CopyFailed child after)
      (fun fault => fault.isCorruption = false) := by
    apply Action.ends_foldlM (before.Copying child parent)
    · intro address rest copies reached copying
      exact ends_copyPage sound whole different copying
    · exact begun
  exact loop.imp (fun copies _ copying => ⟨copies, copying⟩) (fun _ _ failed => failed)
    (fun _ stopped => stopped)

/-- The stack pointer of the copy is set. -/
theorem Copying.of_setStackPointer (copying : origin.Copying child parent rest copies state)
    (sound : origin.Sound) (step : Step (.setStackPointer child) state after)
    (process : after.stackPointer? child ≠ none) :
    origin.Copying child parent rest copies after := by
  have soundState := copying.path.sound sound
  have keeps (address : VirtAddr) : state.KeepsPage after child address :=
    step.keepsPage soundState nofun nofun nofun nofun
  have keepsAccount : Move.KeepsAccount child (.setStackPointer child) :=
    ⟨nofun, nofun, nofun, nofun⟩
  refine ⟨copying.path.snoc step rfl, process, step.accounted soundState keepsAccount
    copying.accounted, copying.made, ?_, copying.distinct, copying.left, ?_, ?_⟩
  · intro start copy known
    refine (perm_mappings_of_same soundState.frames (step.sound soundState).frames ?_).mem_iff.2
      (copying.live start copy known)
    intro place
    rw [mapping?_eq_map, region?_of_step step soundState.frames (fun _ => ⟨nofun, nofun⟩),
      mapping?_eq_map]
  · intro address without
    exact (keeps address).absent (copying.vacant address without)
  · intro address page outside atParent
    obtain ⟨copy, found, copied⟩ := copying.copied address page outside atParent
    obtain ⟨rfl, -⟩ := sound.frames.located atParent
    exact copied.of_keeps found (keeps _) fun _ _ => id

/-! ## The mappings of the copy -/

/-- The parts of files behind the pages of the copy are those of the original, in the copies of the
mappings. -/
theorem Copying.region?_eq (copying : origin.Copying child parent [] copies after)
    (address : VirtAddr) :
    after.region? child address = (origin.region? parent address).bind fun region =>
      copies[region.mapping.start]?.map fun mapping => { region with mapping } := by
  cases registered : origin.page? parent address with
  | none =>
      rw [region?, copying.vacant address (.inr registered), region?, registered]
      rfl
  | some page =>
      obtain ⟨copy, found, copied⟩ := copying.copied address page List.not_mem_nil registered
      rw [region?, found, Option.bind_some, region?, registered, Option.bind_some]
      cases ofFile : page.region? with
      | none =>
          exact Page.region?_eq_none_iff.2 (copied.kind.trans (Page.region?_eq_none_iff.1 ofFile))
      | some region =>
          obtain ⟨mapping, known, backed⟩ := copied.file region ofFile
          rw [Page.region?, backed, Option.bind_some, known]
          rfl

theorem Copying.exists_copy (copying : origin.Copying child parent [] copies after)
    (whole : origin.MappingsWhole parent) {source : Mapping}
    (mapped : origin.mapping? parent address = some source) :
    ∃ copy : Mapping, copies[source.start]? = some copy ∧
      copy.CopyOf source origin.store.nextMapping := by
  obtain ⟨region, atParent, rfl⟩ := exists_region?_of_mapping? mapped
  obtain ⟨page, registered, ofFile⟩ := Option.bind_eq_some_iff.1 atParent
  obtain ⟨_, -, copied⟩ := copying.copied address page List.not_mem_nil registered
  obtain ⟨copy, known, -⟩ := copied.file region ofFile
  obtain ⟨first, atStart, -, same⟩ := copying.made _ _ known
  obtain ⟨-, covers, members⟩ := whole.members mapped
  rw [members _ covers.start, Option.some.injEq] at atStart
  subst atStart
  exact ⟨copy, known, same⟩

/-- The copy of a process whose mappings are whole has whole mappings. -/
theorem Copying.mappingsWhole (copying : origin.Copying child parent [] copies after)
    (whole : origin.MappingsWhole parent) : after.MappingsWhole child := by
  intro address region atChild
  rw [copying.region?_eq, Option.bind_eq_some_iff] at atChild
  obtain ⟨source, atParent, copied⟩ := atChild
  obtain ⟨mapping, known, rfl⟩ := Option.map_eq_some_iff.1 copied
  obtain ⟨copy, alsoKnown, same⟩ := copying.exists_copy whole (mapping?_of_region? atParent)
  rw [known, Option.some.injEq] at alsoKnown
  subst alsoKnown
  obtain ⟨aligned, covers, offset, length, least, pages⟩ := whole address source atParent
  have hasPage (index : Nat) (place : VirtAddr) :
      mapping.HasPage index place ↔ source.mapping.HasPage index place := by
    rw [Mapping.HasPage, Mapping.HasPage, same.start, same.pageCount]
  obtain ⟨index, hasIndex⟩ := covers
  refine ⟨same.start ▸ aligned, ⟨index, (hasPage index address).2 hasIndex⟩, offset, length,
    same.pageCount ▸ least, fun index place hasPlace => ?_⟩
  rw [copying.region?_eq, pages index place ((hasPage index place).1 hasPlace), Option.bind_some,
    show (source.mapping.regionAt offset length index).mapping = source.mapping from rfl, known,
    Option.map_some, Mapping.regionAt, Mapping.regionAt, same.pageCount]

/-- Different mappings have different copies: they have different first pages. -/
theorem Copying.copy_injective (copying : origin.Copying child parent [] copies after)
    (whole : origin.MappingsWhole parent) {place : VirtAddr} {left right : Mapping}
    (leftAt : origin.mapping? parent address = some left)
    (rightAt : origin.mapping? parent place = some right)
    (same : copies[left.start]? = copies[right.start]?) : left = right := by
  obtain ⟨copy, known, ofLeft⟩ := copying.exists_copy whole leftAt
  obtain ⟨other, alsoKnown, ofRight⟩ := copying.exists_copy whole rightAt
  rw [← same, known, Option.some.injEq] at alsoKnown
  subst alsoKnown
  obtain ⟨-, coversLeft, leftPages⟩ := whole.members leftAt
  obtain ⟨-, coversRight, rightPages⟩ := whole.members rightAt
  have atStart := leftPages _ coversLeft.start
  rw [← ofLeft.start, ofRight.start, rightPages _ coversRight.start, Option.some.injEq] at atStart
  exact atStart.symm

/-- The copy has as many mappings of a file as the original. -/
theorem Copying.countOf_mappings (copying : origin.Copying child parent [] copies after)
    (sound : origin.Sound) (whole : origin.MappingsWhole parent) (file : FileId) :
    Mapping.countOf (after.mappings child) file =
      Mapping.countOf (origin.mappings parent) file := by
  have soundAfter := copying.path.sound sound
  let copyOf (mapping : Mapping) : Mapping := copies[mapping.start]?.getD mapping
  have known {mapping : Mapping} (member : mapping ∈ origin.mappings parent) :
      copies[mapping.start]? = some (copyOf mapping) ∧
        (copyOf mapping).CopyOf mapping origin.store.nextMapping := by
    obtain ⟨address, mapped⟩ := (mem_mappings_iff sound.frames).1 member
    obtain ⟨copy, found, same⟩ := copying.exists_copy whole mapped
    have isCopy : copyOf mapping = copy := by
      show copies[mapping.start]?.getD mapping = copy
      rw [found]
      rfl
    rw [isCopy]
    exact ⟨found, same⟩
  have perm : (after.mappings child).dedup.Perm ((origin.mappings parent).dedup.map copyOf) := by
    refine (List.perm_ext_iff_of_nodup (List.nodup_dedup _) ?_).2 fun mapping => ?_
    · refine (List.nodup_dedup _).map_on fun left leftMember right rightMember same => ?_
      rw [List.mem_dedup] at leftMember rightMember
      obtain ⟨address, leftAt⟩ := (mem_mappings_iff sound.frames).1 leftMember
      obtain ⟨place, rightAt⟩ := (mem_mappings_iff sound.frames).1 rightMember
      apply copying.copy_injective whole leftAt rightAt
      rw [(known leftMember).1, (known rightMember).1, same]
    · rw [List.mem_dedup, List.mem_map, mem_mappings_iff soundAfter.frames]
      constructor
      · rintro ⟨address, mapped⟩
        rw [mapping?_eq_map, copying.region?_eq] at mapped
        obtain ⟨copied, atChild, rfl⟩ := Option.map_eq_some_iff.1 mapped
        obtain ⟨region, atParent, copied⟩ := Option.bind_eq_some_iff.1 atChild
        obtain ⟨copy, found, rfl⟩ := Option.map_eq_some_iff.1 copied
        have member : region.mapping ∈ origin.mappings parent :=
          (mem_mappings_iff sound.frames).2 ⟨address, mapping?_of_region? atParent⟩
        refine ⟨region.mapping, List.mem_dedup.2 member, ?_⟩
        rw [(known member).1, Option.some.injEq] at found
        exact found
      · rintro ⟨source, member, rfl⟩
        rw [List.mem_dedup] at member
        obtain ⟨address, mapped⟩ := (mem_mappings_iff sound.frames).1 member
        obtain ⟨region, atParent, rfl⟩ := exists_region?_of_mapping? mapped
        refine ⟨address, ?_⟩
        rw [mapping?_eq_map, copying.region?_eq, atParent, Option.bind_some, (known member).1]
        rfl
  rw [Mapping.countOf, perm.countP_eq, List.countP_map, Mapping.countOf]
  refine List.countP_congr fun mapping member => ?_
  rw [List.mem_dedup] at member
  simp [(known member).2.file]

/-! ## Creating the copy -/

/-- A process is copied to the next one, or the copy is removed again and leaves no handle
behind. -/
theorem ends_fork (sound : before.Sound) (whole : ∀ pid, before.MappingsWhole pid) (parent : Pid) :
    (fork parent before).Ends
      (fun child after => child = ⟨before.nextPid⟩ ∧
        (∃ copies, before.Copying child parent [] copies after) ∧
        after.stackPointer? child = before.stackPointer? parent ∧
        ∀ pid, after.MappingsWhole pid)
      (fun _ after => Path (Move.Concerns ⟨before.nextPid⟩) before after ∧
        after.spaces[(⟨before.nextPid⟩ : Pid)]? = none ∧
        (∀ file, after.store.files.handles file = before.store.files.handles file) ∧
        ∀ pid, after.MappingsWhole pid)
      (fun fault => fault.isCorruption = false) := by
  have wholeOf {after : Machine} (path : Path (Move.Concerns ⟨before.nextPid⟩) before after)
      (wholeChild : after.MappingsWhole ⟨before.nextPid⟩) (pid : Pid) :
      after.MappingsWhole pid := by
    by_cases same : pid = ⟨before.nextPid⟩
    · rw [same]
      exact wholeChild
    · exact (whole pid).of_path path sound fun _ concerns => concerns.keepsMappings same
  unfold fork
  rw [Action.ends_bind, space, Action.ends_require]
  refine ⟨fun space found => ?_, fun _ => ⟨.refl before, sound.frames.space_of_next,
    fun _ => rfl, whole⟩⟩
  have different : parent ≠ ⟨before.nextPid⟩ := by
    rintro rfl
    exact Nat.lt_irrefl _ (sound.frames.spaces _ space found).2
  have ofParent : before.stackPointer? parent = some space.stackPointer := by
    rw [stackPointer?, found]
    rfl
  rw [Action.ends_bind]
  refine (ends_createProcess before).imp ?_ (fun _ _ no => no.elim) (fun _ stopped => stopped)
  intro child created result
  obtain ⟨rfl, arrive, -⟩ := result
  rw [Action.ends_bind, Action.ends_attempt]
  refine (ends_copyPages sound (whole parent) different found arrive).imp ?_ ?_
    (fun _ stopped => stopped)
  · intro _ copied result
    obtain ⟨copies, copying⟩ := result
    dsimp only
    have keptParent : copied.stackPointer? parent = some space.stackPointer := by
      rw [stackPointer?_of_concerns copying.path different, ofParent]
    rw [Action.ends_bind, Machine.space, Action.ends_require]
    refine ⟨fun source atParent => ?_, fun missing => ?_⟩
    · have samePointer : source.stackPointer = space.stackPointer := by
        rw [stackPointer?, atParent] at keptParent
        exact Option.some.inj keptParent
      rw [Action.ends_bind, samePointer]
      refine (ends_setStackPointer copied ⟨before.nextPid⟩ space.stackPointer).imp ?_ ?_
        (fun _ no => no.elim)
      · intro _ after result
        obtain ⟨step, pointer⟩ := result
        have copyingAfter := copying.of_setStackPointer sound step (by simp [pointer])
        exact ⟨rfl, ⟨copies, copyingAfter⟩, pointer.trans ofParent.symm,
          wholeOf copyingAfter.path (copyingAfter.mappingsWhole (whole parent))⟩
      · intro _ after result
        exact absurd result.2 copying.process
    · rw [stackPointer?, missing] at keptParent
      cases keptParent
  · intro error failed result
    dsimp only
    rw [Action.ends_bind]
    have soundFailed := result.path.sound sound
    refine (ends_exit soundFailed ⟨before.nextPid⟩).imp ?_ (fun _ _ no => no.elim)
      (fun _ stopped => stopped)
    intro _ after left
    obtain ⟨removal, gone⟩ := left
    -- The copy that failed is removed again, with whatever it had.
    have path := result.path.trans (removal.mono fun _ exits => exits.concerns)
    have accounted := removal.accounted soundFailed result.accounted fun _ exits =>
      exits.keepsAccount
    exact ⟨path, gone, accounted.of_gone gone, wholeOf path (.of_gone gone)⟩

end Machine

end DemandPaging
