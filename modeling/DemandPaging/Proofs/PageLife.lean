import DemandPaging.Proofs.Claimable
import DemandPaging.Proofs.Claims
import Mathlib.Data.List.Infix

/-!
The life of a page, from its registration to its removal.

Owns:
- `Event.Registers`, how a page comes into being during an event;
- `Machine.PageLife`, what a page is after a run all along which it was registered, and what becomes
  of it when it is brought in or removed next.

Does not own: the steps on the way (`Machine.Claims`), and when a page can be brought in
(`Sound.ends_makeResident_fill`).

Main statement: `Reachable.page_life`.
-/

namespace DemandPaging

open Machine

section Registration

variable {allowed : Move → Prop} {pid : Pid} {address : VirtAddr} {before after : Machine}

/-- Along some steps a page was registered, and then it was brought in a number of times, some of
them for the first time. -/
structure Machine.ComesToBe (allowed : Move → Prop) (before : Machine) (pid : Pid)
    (address : VirtAddr) (page : Page) (firsts claims : Nat) (after : Machine) : Prop where
  registered : ∃ middle start, Path allowed before middle ∧
    allowed (.register pid address page.kind) ∧
    Step (.register pid address page.kind) middle start ∧
    start.page? pid address = some page ∧
    Claims allowed pid address firsts claims start after
  untouched : page.isUntouched = true
  absent : page.isResident = false

/-- A page is registered untouched and out of memory. -/
theorem Step.page_of_register {kind : PageKind}
    (step : Step (.register pid address kind) before after) :
    ∃ page, after.page? pid address = some page ∧ page.kind = kind ∧ page.isUntouched = true ∧
      page.isResident = false := by
  cases step with
  | @register _ _ space page _ _ found untouched absent _ _ inserted =>
      obtain ⟨-, rfl⟩ := PageRegistry.at?_of_insert inserted
      refine ⟨page, (page?_update found rfl rfl pid page.address).trans (if_pos ⟨rfl, rfl⟩), rfl,
        ?_, ?_⟩
      · rw [Page.isUntouched, untouched]
        rfl
      · rw [Page.isResident, absent]
        rfl

/-- A page that is there at the end of a path, and was not in the beginning, came to be on the
way. -/
theorem Path.exists_comesToBe {now : Page} (path : Path allowed before after)
    (sound : before.Sound) (vacant : before.page? pid address = none)
    (found : after.page? pid address = some now) :
    ∃ page firsts claims,
      before.ComesToBe allowed pid address page firsts claims after ∧
        page.ClaimedTo claims now ∧ firsts = min claims 1 := by
  induction path generalizing now with
  | refl =>
      rw [vacant] at found
      cases found
  | @tail middle after earlier stepped inductionHypothesis =>
      obtain ⟨move, allow, step⟩ := stepped
      have soundMiddle := Path.sound earlier sound
      cases known : middle.page? pid address with
      | none =>
          have registers := step.eq_register soundMiddle.frames known found
          subst registers
          obtain ⟨page, same, kind, untouched, absent⟩ := step.page_of_register
          rw [found, Option.some.injEq] at same
          subst same
          exact ⟨now, 0, 0, ⟨⟨middle, after, earlier, allow, step, found, .refl after⟩, untouched,
            absent⟩, .refl now, rfl⟩
      | some last =>
          obtain ⟨page, firsts, claims, ⟨⟨first, start, reaches, allowsIt, registers, atStart,
            made⟩, untouched, absent⟩, claimedTo, counted⟩ := inductionHypothesis known
          by_cases brings : ∃ frame kind isFirst, move = .pageIn pid address frame kind isFirst
          · obtain ⟨frame, kind, isFirst, rfl⟩ := brings
            obtain ⟨wasUntouched, changed, atEnd, more⟩ := step.claimedTo_of_pageIn known
            rw [found, Option.some.injEq] at atEnd
            subst atEnd
            refine ⟨page, _, _, ⟨⟨first, start, reaches, allowsIt, registers, atStart,
              made.claimed allow step⟩, untouched, absent⟩, claimedTo.trans more, ?_⟩
            rw [← wasUntouched, claimedTo.touched, untouched, Bool.true_and, counted]
            by_cases none : claims = 0
            · simp [none]
            · simp [none]
              omega
          · have notIn : ∀ frame kind isFirst, move ≠ .pageIn pid address frame kind isFirst :=
              fun frame kind isFirst same => brings ⟨frame, kind, isFirst, same⟩
            obtain ⟨changed, atEnd, more⟩ := step.claimedTo soundMiddle known
              (step.ne_remove soundMiddle.frames found) notIn
            rw [found, Option.some.injEq] at atEnd
            subst atEnd
            exact ⟨page, firsts, claims, ⟨⟨first, start, reaches, allowsIt, registers, atStart,
              made.other allow step notIn⟩, untouched, absent⟩, claimedTo.trans more, counted⟩

end Registration

namespace Machine

variable {machine next last : Machine} {event : Event} {rest : List Event} {pid : Pid}
  {address : VirtAddr}

/-- An attempt to bring a page in that failed. The page stays as it was, out of memory, and the next
attempt succeeds as soon as what failed can be done. -/
structure ClaimFails (before : Machine) (pid : Pid) (address : VirtAddr) (page : Page)
    (error : Errno) (after : Machine) : Prop where
  same : after.findPage? pid address = some page
  absent : page.isResident = false
  /-- There was no frame, or the contents of the page could not be made. -/
  cause : takeFrame before = .failed error after ∨
    ∃ frame held, takeFrame before = .done frame held ∧ held.FillFails page error after ∧
      ((∃ last, makeResident pid address after = .done () last) ↔ page.CanFill after.store)
  again : (∃ last, makeResident pid address after = .done () last) ↔ after.Claimable page

/-- What a page is that was registered before some run and ever since, and was brought in a number
of times from its registration on, some of them for the first time. -/
structure PageLife (page : Page) (pid : Pid) (address : VirtAddr) (firsts claims : Nat)
    (last : Machine) (now : Page) : Prop where
  /-- Its address, its writable flag, its marker, its kind and its part of a file never change. -/
  continues : page.Continues now
  reported : last.pageType? pid address = some (page.kind, page.marker)
  /-- It is touched exactly if it was brought in. -/
  touched : now.isUntouched = decide (claims = 0)
  same : claims = 0 → now = page
  /-- Of the times it was brought in only the first made its first contents, and its loader is gone
  since. -/
  once : firsts = min claims 1
  loader : now.loader? = if claims = 0 then page.loader? else none
  absent : now.isUntouched = true → now.isResident = false
  succeeds : ∀ after, makeResident pid address last = .done () after →
    ∃ changed, after.findPage? pid address = some changed ∧ now.Continues changed ∧
      changed.isUntouched = false ∧ changed.isResident = true
  fails : ∀ error after, makeResident pid address last = .failed error after →
    last.ClaimFails pid address now error after
  /-- It goes only with its process or with its mapping. -/
  removed : ∀ event after, Outcome.state? (Event.perform event last) = some after →
    (∃ changed, after.findPage? pid address = some changed ∧ now.Continues changed) ∨
      after.findPage? pid address = none ∧ event.Removes pid page.kind

theorem isUntouched_of_frame {page : Page} (sound : machine.Sound)
    (registered : machine.page? pid address = some page) (fresh : page.isUntouched = true) :
    page.isResident = false := by
  rw [Page.isResident, (sound.slots.placed pid address page registered).frame_eq_none fresh]
  rfl

/-- A page that is not in memory stays as it is when it cannot be brought in. -/
theorem Reachable.claimFails {page : Page} {error : Errno} {after : Machine}
    (reachable : machine.Reachable) (registered : machine.page? pid address.pageDown = some page)
    (failed : makeResident pid address machine = .failed error after) :
    machine.ClaimFails pid address page error after := by
  have sound := reachable.sound
  have reachableAfter : after.Reachable := by
    refine reachable.next (.makeResident pid address) ?_
    show (makeResident pid address machine).state? = some after
    rw [failed]
    rfl
  have absent : page.frame = none := by
    by_contra resident
    have isResident : page.isResident = true := Option.isSome_iff_ne_none.2 resident
    have answered : makeResident pid address machine = .done () machine := by
      simp only [makeResident, Action.bind_apply, Action.get]
      rw [findPage?_eq_page?, registered]
      simp only [isResident, if_true]
      rfl
    rw [failed] at answered
    cases answered
  have path := ends_makeResident sound pid address
  rw [failed] at path
  obtain ⟨same, -⟩ := Path.page?_of_makesRoom path sound registered absent
  have again := reachableAfter.sound.exists_makeResident_iff reachableAfter.userPages same absent
  have cause := sound.ends_makeResident_fill reachable.userPages registered absent
  rw [failed] at cause
  refine ⟨?_, ?_, cause.imp_right ?_, again⟩
  · rw [findPage?_eq_page?, same]
  · rw [Page.isResident, absent]
    rfl
  · rintro ⟨frame, held, takes, fails⟩
    refine ⟨frame, held, takes, fails, again.trans ?_⟩
    exact claimable_iff_of_free reachableAfter.sound fails.free

/-- What is known of a page in a state, whatever happened to it before. -/
theorem Reachable.pageLife_of_claimedTo {page now : Page} {firsts claims : Nat}
    (reachable : last.Reachable) (registered : last.page? pid address.pageDown = some now)
    (untouched : page.isUntouched = true) (claimed : page.ClaimedTo claims now)
    (once : firsts = min claims 1) : PageLife page pid address firsts claims last now where
  continues := claimed.continues
  reported := by
    rw [pageType?, findPage?_eq_page?, registered, Option.map_some, claimed.continues.kind,
      claimed.continues.marker]
  touched := by rw [claimed.touched, untouched, Bool.true_and]
  same := claimed.same untouched
  once := once
  loader := claimed.loader?_eq
  absent := isUntouched_of_frame reachable.sound registered
  succeeds after came := by
    have sound := reachable.sound
    have ends := ends_makeResident sound pid address
    rw [came] at ends
    rcases ends with ⟨rfl, resident⟩ | ⟨absent, frame, kind, first, settled, inHand, holding, step,
      held⟩
    · rw [frame?, registered, Option.bind_some] at resident
      refine ⟨now, by rw [findPage?_eq_page?, registered], .refl now, ?_, resident⟩
      by_contra fresh
      rw [Bool.not_eq_false] at fresh
      have none := isUntouched_of_frame sound registered fresh
      rw [Page.isResident, resident] at none
      cases none
    · rw [frame?, registered, Option.bind_some] at absent
      obtain ⟨known, -⟩ := holding.path.page?_of_makesRoom sound registered absent
      obtain ⟨-, changed, found, more⟩ := step.claimedTo_of_pageIn known
      rw [frame?, found, Option.bind_some] at held
      refine ⟨changed, by rw [findPage?_eq_page?, found], more.continues, ?_, ?_⟩
      · rw [more.touched, decide_eq_false Nat.one_ne_zero, Bool.and_false]
      · rw [Page.isResident, held]
        rfl
  fails error after failed := reachable.claimFails registered failed
  removed event after leaves := by
    rw [findPage?_eq_page?, ← claimed.continues.kind]
    exact event.page?_cases reachable.sound reachable.mappingsWhole registered leaves

/-- A page is registered during an event, and stays registered all along a run after it. It is
touched from the first time on that it is brought in, and never before; its loader completes then
and is gone; an attempt to bring it in that fails leaves it as it was. -/
theorem Reachable.page_life (reachable : machine.Reachable)
    (vacant : machine.findPage? pid address = none)
    (leaves : (event.perform machine).state? = some next) (run : next.after? rest = some last)
    (stays : ∀ past state, past <+: rest → next.after? past = some state →
      (state.findPage? pid address).isSome = true) :
    ∃ page firstsHere claimsHere now,
      machine.ComesToBe (event.Allows machine.nextPid) pid address.pageDown page firstsHere
        claimsHere next ∧
      last.findPage? pid address = some now ∧
      (∃ firsts claims, Claimed pid address.pageDown rest next firsts claims) ∧
      ∀ firsts claims, Claimed pid address.pageDown rest next firsts claims →
        PageLife page pid address (firstsHere + firsts) (claimsHere + claims) last now := by
  have reachableNext := reachable.next event leaves
  have reachableLast := reachableNext.of_after? run
  rw [findPage?_eq_page?] at vacant
  have staysHere : ∀ past state, past <+: rest → next.after? past = some state →
      (state.page? pid address.pageDown).isSome = true := by
    intro past state earlier reached
    rw [← findPage?_eq_page?]
    exact stays past state earlier reached
  obtain ⟨start, atStart⟩ :=
    Option.isSome_iff_exists.1 (staysHere [] next (List.nil_prefix) rfl)
  have leads := Event.leads_of_perform reachable.sound reachable.mappingsWhole leaves
  obtain ⟨page, firstsHere, claimsHere, comes, claimedHere, countedHere⟩ :=
    leads.path.exists_comesToBe reachable.sound vacant atStart
  obtain ⟨firsts, claims, claimed⟩ := reachableNext.exists_claimed run pid address.pageDown
  obtain ⟨now, found, -⟩ := reachableNext.claimedTo atStart run staysHere claimed
  refine ⟨page, firstsHere, claimsHere, now, comes, by rw [findPage?_eq_page?, found],
    ⟨firsts, claims, claimed⟩, fun firsts claims claimed => ?_⟩
  obtain ⟨last, same, claimedTo, counted⟩ := reachableNext.claimedTo atStart run staysHere claimed
  rw [found, Option.some.injEq] at same
  subst same
  refine reachableLast.pageLife_of_claimedTo found comes.untouched (claimedHere.trans claimedTo) ?_
  rw [counted, countedHere, claimedHere.touched, comes.untouched, Bool.true_and]
  by_cases none : claimsHere = 0
  · simp [none]
  · simp [none]
    omega

/-- A page is registered whose first contents are five bytes of a file. -/
def awaiting : Event :=
  .registerPage ⟨1⟩ firstPage true .normal (some (.segment 0 0 5))

/-- The page is brought in while the file is too short, once more when it is long enough, and a
third time after another page drove it out. -/
def loading : List Event :=
  [.makeResident ⟨1⟩ firstPage,
    .changeFiles fun _ inode => { inode with storage := .contents #[1, 2, 3, 4, 5] },
    .makeResident ⟨1⟩ firstPage, .registerPage ⟨1⟩ secondPage true .normal none,
    .makeResident ⟨1⟩ secondPage, .makeResident ⟨1⟩ firstPage]

theorem page_life_loading :
    (((tinyWithFile.inhabited.after? (awaiting :: loading.take 1)).bind fun state =>
      state.findPage? ⟨1⟩ firstPage).map Page.isUntouched) = some true ∧
    ∃ last now, tinyWithFile.inhabited.after? (awaiting :: loading) = some last ∧
      last.findPage? ⟨1⟩ firstPage = some now ∧ now.isUntouched = false ∧ now.loader? = none := by
  refine ⟨by decide +kernel, ?_⟩
  have runs : ((tinyWithFile.inhabited.after? (awaiting :: loading)).map fun last =>
      (last.findPage? ⟨1⟩ firstPage).map Page.isUntouched) = some (some false) := by decide +kernel
  have present : ∀ past ∈ loading.inits, ((tinyWithFile.inhabited.after? (awaiting :: past)).all
      fun state => (state.findPage? ⟨1⟩ firstPage).isSome) = true := by decide +kernel
  obtain ⟨last, reached, touched⟩ := Option.map_eq_some_iff.1 runs
  obtain ⟨next, leaves, run⟩ := Option.bind_eq_some_iff.1 reached
  have reachable : tinyWithFile.inhabited.Reachable :=
    reachable_tinyWithFile.next .createProcess rfl
  have vacant : tinyWithFile.inhabited.findPage? ⟨1⟩ firstPage = none := by
    rw [findPage?_eq_page?]
    exact vacant_inhabited ..
  obtain ⟨page, firstsHere, claimsHere, now, -, found, ⟨firsts, claims, claimed⟩, life⟩ :=
    reachable.page_life vacant leaves run fun past state earlier reached => by
      have here := present past ((List.mem_inits past loading).2 earlier)
      rw [after?, leaves, Option.bind_some, reached] at here
      exact here
  obtain ⟨same, -, touchedIff, -, -, loader, -⟩ := life firsts claims claimed
  rw [found, Option.map_some, Option.some.injEq] at touched
  have brought : claimsHere + claims ≠ 0 := by
    rw [touchedIff] at touched
    exact of_decide_eq_false touched
  exact ⟨last, now, reached, found, touched, loader.trans (if_neg brought)⟩

end Machine

end DemandPaging
