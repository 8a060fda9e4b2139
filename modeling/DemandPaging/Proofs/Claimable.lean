import DemandPaging.Proofs.PageFill
import DemandPaging.Proofs.UserPages

/-!
When a page can be brought in.

Owns:
- `Page.fill`, the contents of a page made in a zero-filled frame, and whether they can be made;
- `Machine.Claimable`, when an absent page can be brought in;
- that a page whose contents cannot be made leaves its frame free.

Does not own: what the contents are (`Backing.incoming`), and what a page becomes that is brought in
(`Page.ClaimedTo`).

Main statement: `Sound.ends_makeResident_fill`, bringing a page in ends as taking a frame and making
the contents of the page end.
-/

namespace DemandPaging

/-- Make the contents of a page in a zero-filled frame. -/
def Page.fill (page : Page) (store : BackingStore) : Outcome (Transfer BackingStore) Backing :=
  page.backing.bringIn page.address ⟨store, Block.zero⟩

/-- The contents of a page can be made. -/
def Page.CanFill (page : Page) (store : BackingStore) : Prop :=
  ∃ backing transfer, page.fill store = .done backing transfer

/-- A page below the kernel that is not mapped yet can be mapped. -/
theorem PageTable.exists_map_eq_ok {table : PageTable} {page : VirtAddr} {frame : PhysAddr}
    (permission : Permission) (aligned : page.offset = 0) (frameAligned : frame.offset = 0)
    (user : page.toNat < kernelBase) (unmapped : table.view? page = none) :
    ∃ result, table.map page frame permission = .ok result := by
  have absent : page ∉ table.entries := by
    rw [Std.ExtTreeMap.mem_iff_isSome_getElem?]
    simpa [view?] using unmapped
  have notKernel : page.isKernel = false := by
    rw [Address.isKernel, decide_eq_false (Nat.not_le_of_lt user)]
  unfold map
  rw [if_neg (by simp [aligned, frameAligned]), notKernel, if_neg Bool.false_ne_true,
    if_neg absent]
  exact ⟨_, rfl⟩

namespace Machine

variable {before settled machine : Machine} {pid : Pid} {address : VirtAddr} {page : Page}
  {space : AddressSpace} {frame : PhysAddr}

/-- A page that is not in memory can be brought in: there is a frame for it, or a page that can be
evicted, and its contents can be made. -/
def Claimable (machine : Machine) (page : Page) : Prop :=
  ∃ frame held, takeFrame machine = .done frame held ∧ page.CanFill held.store

/-- A free frame is taken as it is. -/
theorem takeFrame_of_free (sound : machine.Sound) (free : 0 < machine.freeFrames) :
    ∃ frame taken, machine.resident.acquire = some (frame, taken) ∧
      takeFrame machine = .done frame { machine with resident := taken } := by
  cases acquired : machine.resident.acquire with
  | none =>
      rw [freeFrames, sound.frames.resident.freeCount_of_exhausted acquired] at free
      exact absurd free (Nat.lt_irrefl 0)
  | some loan =>
      refine ⟨loan.1, loan.2, rfl, ?_⟩
      simp only [takeFrame, Action.bind_apply, Action.get, acquired]
      rfl

/-- Where a frame is free, a page can be brought in whenever its contents can be made. -/
theorem claimable_iff_of_free (sound : machine.Sound) (free : 0 < machine.freeFrames) :
    machine.Claimable page ↔ page.CanFill machine.store := by
  obtain ⟨frame, taken, -, takes⟩ := takeFrame_of_free sound free
  constructor
  · rintro ⟨_, held, same, fills⟩
    rw [takes] at same
    cases same
    exact fills
  · exact fun fills => ⟨frame, _, takes, fills⟩

/-- Making the contents of a page ended with an error, which leaves the files and the swap area as
they were and a frame free. -/
structure FillFails (held : Machine) (page : Page) (error : Errno) (after : Machine) : Prop where
  failed : ∃ transfer, page.fill held.store = .failed error transfer
  store : after.store = held.store
  free : 0 < after.freeFrames

/-- With a frame in hand, bringing a page in ends as making its contents ends. -/
theorem ends_pageIn_fill (sound : settled.Sound) (user : settled.UserPages)
    (found : settled.spaces[pid]? = some space)
    (registered : space.pages.at? page.address = some page) (absent : page.frame = none)
    {taken : ResidentSet} (acquired : settled.resident.acquire = some (frame, taken)) :
    (pageIn pid space page frame { settled with resident := taken }).Ends
      (fun _ _ => page.CanFill settled.store)
      (fun error after => settled.FillFails page error after)
      (fun fault => page.fill settled.store = .halted fault) := by
  have known := (page?_of_space found page.address).trans registered
  have inHand := sound.frames.resident.taken acquired
  have soundSpace := (sound.frames.spaces pid space found).1
  obtain ⟨table, mapped⟩ := PageTable.exists_map_eq_ok page.permission
    (sound.frames.located known).2 inHand.aligned (user pid page.address page known)
    (soundSpace.view?_of_absent fun other atPage => by
      rw [registered, Option.some.injEq] at atPage
      rw [← atPage, absent])
  obtain ⟨linked, link⟩ := inHand.exists_link_eq_ok ⟨pid, page.address⟩
  obtain ⟨-, -, -, contents⟩ := sound.frames.resident.occupy acquired link
  have inPool : (linked.contents? frame).isSome = true := by
    rw [contents]
    exact inHand.inPool
  obtain ⟨bytes, atFrame⟩ := Option.isSome_iff_exists.1 inPool
  have read : linked.read frame = .ok bytes := ResidentSet.read_eq_ok_iff.2 atFrame
  simp only [pageIn, mapped, Action.ends_bind, Action.ends_get, setResident, Action.ends_orHalt,
    link]
  refine Action.of_result_eq_ok rfl ?_
  simp only [Action.ends_modify, Action.ends_attempt, bringIn, Action.ends_bind, Action.ends_get,
    Action.ends_orHalt, read]
  refine Action.of_result_eq_ok rfl ?_
  have ends := ends_bringIn_backing sound known absent bytes
  -- What the frame held before does not matter.
  have alike := page.backing.endAlike_bringIn page.address settled.store bytes Block.zero
  cases brought : page.backing.bringIn page.address ⟨settled.store, bytes⟩ with
  | halted fault =>
      rw [brought] at alike
      generalize fills : page.backing.bringIn page.address ⟨settled.store, Block.zero⟩ = fill
        at alike
      cases alike
      exact fills
  | done backing transfer =>
      rw [brought] at alike
      generalize fills : page.backing.bringIn page.address ⟨settled.store, Block.zero⟩ = fill
        at alike
      cases alike
      obtain ⟨resident, written⟩ := ResidentSet.exists_write_eq_ok inPool transfer.bytes
      simp only [setResident, Action.ends_bind, Action.ends_orHalt, written, Action.ends_modify,
        Action.ends_pure, setSpace]
      exact Action.of_result_eq_ok rfl ⟨_, _, fills⟩
  | failed error transfer =>
      rw [brought] at alike ends
      generalize fills : page.backing.bringIn page.address ⟨settled.store, Block.zero⟩ = fill
        at alike
      cases alike
      obtain ⟨dirty, written⟩ := ResidentSet.exists_write_eq_ok inPool transfer.bytes
      obtain ⟨result, released, spoiled⟩ := sound.frames.resident.abandon acquired link written
      simp only [setResident, Action.ends_bind, Action.ends_orHalt, written, Action.ends_modify,
        Action.ends_fail]
      refine Action.of_result_eq_ok rfl ?_
      refine (ends_releaseFrame released).imp ?_ (fun _ _ no => no.elim) (fun _ no => no.elim)
      rintro _ after rfl
      refine ⟨⟨_, fills⟩, ends, ?_⟩
      show 0 < result.pool.freeCount
      rw [ResidentSet.freeCount_of_write spoiled,
        ← sound.frames.resident.freeCount_of_acquire acquired]
      exact Nat.succ_pos _

/-- A page that is not in memory is brought in if a frame can be taken for it and its contents can
be made. Otherwise this ends as the one or the other ended. -/
theorem Sound.ends_makeResident_fill (sound : before.Sound) (user : before.UserPages)
    (registered : before.page? pid address.pageDown = some page) (absent : page.frame = none) :
    (makeResident pid address before).Ends
      (fun _ _ => before.Claimable page)
      (fun error after => takeFrame before = .failed error after ∨
        ∃ frame held, takeFrame before = .done frame held ∧ held.FillFails page error after)
      (fun fault => takeFrame before = .halted fault ∨
        ∃ frame held, takeFrame before = .done frame held ∧
          page.fill held.store = .halted fault) := by
  have notResident : ¬page.isResident = true := by
    rw [Page.isResident, absent]
    exact Bool.false_ne_true
  simp only [makeResident, Action.ends_bind, Action.ends_get]
  rw [findPage?_eq_page?, registered]
  dsimp only
  rw [if_neg notResident, Action.ends_bind]
  refine ((ends_takeFrame sound).and Outcome.ends_self).imp ?_ (fun _ _ both => .inl both.2)
    (fun _ both => .inl both.2)
  rintro frame held ⟨⟨settled, holding⟩, takes⟩
  obtain ⟨known, -⟩ := holding.path.page?_of_makesRoom sound registered absent
  have soundSettled := holding.path.sound sound
  have userSettled : settled.UserPages := by
    intro other place found atPlace
    obtain ⟨former, first, -⟩ := holding.path.exists_page?_of_after sound atPlace id
    exact user other place former first
  obtain ⟨taken, rfl⟩ : ∃ taken, held = { settled with resident := taken } :=
    ⟨held.resident, holding.inHand⟩
  obtain ⟨space, found, atAddress⟩ := space_of_page? known
  have atPage : space.pages.at? page.address = some page := by
    rw [(soundSettled.frames.located known).1]
    exact atAddress
  simp only [Action.ends_bind, Action.ends_get, found]
  rw [PageRegistry.find?_eq_at?, atAddress]
  refine (ends_pageIn_fill soundSettled userSettled found atPage absent holding.acquired).imp ?_ ?_
    ?_
  · exact fun _ _ fills => ⟨frame, _, takes, fills⟩
  · exact fun _ _ fails => .inr ⟨frame, _, takes, fails.failed, fails.store, fails.free⟩
  · exact fun _ fails => .inr ⟨frame, _, takes, fails⟩

/-- A page that is not in memory can be brought in exactly if it is claimable. -/
theorem Sound.exists_makeResident_iff (sound : before.Sound) (user : before.UserPages)
    (registered : before.page? pid address.pageDown = some page) (absent : page.frame = none) :
    (∃ after, makeResident pid address before = .done () after) ↔ before.Claimable page := by
  have ends := sound.ends_makeResident_fill user registered absent
  constructor
  · rintro ⟨after, came⟩
    rw [came] at ends
    exact ends
  · rintro ⟨frame, held, takes, backing, transfer, fills⟩
    cases outcome : makeResident pid address before with
    | done _ after => exact ⟨after, rfl⟩
    | failed error after =>
        rw [outcome] at ends
        rcases ends with refused | ⟨_, other, same, fails⟩
        · rw [takes] at refused
          cases refused
        · rw [takes] at same
          cases same
          obtain ⟨_, failed⟩ := fails.failed
          rw [fills] at failed
          cases failed
    | halted fault =>
        rw [outcome] at ends
        rcases ends with refused | ⟨_, other, same, fails⟩
        · rw [takes] at refused
          cases refused
        · rw [takes] at same
          cases same
          rw [fills] at fails
          cases fails

end Machine

end DemandPaging
