import DemandPaging.Proofs.Contents
import DemandPaging.Proofs.Lifetime

/-!
How often a page is brought in, and what it is by then.

Owns:
- `Page.loader?`, the loader that a page has as long as it was never touched;
- `Claims`, steps along which a page is brought in a number of times, and `Machine.Claimed`, a run
  of events along such steps;
- `Page.ClaimedTo`, what became of a page that was brought in a number of times.

Does not own: when a page can be brought in (`Machine.Sound.exists_makeResident_iff`).

Main statement: `Reachable.claimedTo`, a page is touched exactly when it was brought in, and its
first contents are made the first time only.
-/

namespace DemandPaging

open Machine

/-- The loader that is to supply the first contents of a page. A page that was touched has none. -/
def Backing.loader? : Backing → Option Loader
  | untouched (.anonymous loader) => loader
  | untouched (.file _) | anonymous _ | file _ => none

def Page.loader? (page : Page) : Option Loader := page.backing.loader?

theorem Page.loader?_of_touched {page : Page} (touched : page.isUntouched = false) :
    page.loader? = none := by
  unfold Page.loader?
  unfold Page.isUntouched at touched
  match backed : page.backing with
  | .untouched _ =>
      rw [backed] at touched
      cases touched
  | .anonymous _ | .file _ => rfl

/-- What a page becomes that is brought in a number of times. -/
structure Page.ClaimedTo (page : Page) (claims : Nat) (changed : Page) : Prop where
  continues : page.Continues changed
  /-- The page was touched before, or it was brought in. -/
  touched : changed.isUntouched = (page.isUntouched && decide (claims = 0))
  /-- An untouched page stays as it is until it is brought in. -/
  same : page.isUntouched = true → claims = 0 → changed = page

namespace Page.ClaimedTo

variable {page changed last : Page} {claims more : Nat}

theorem refl (page : Page) : page.ClaimedTo 0 page :=
  ⟨.refl page, by simp, fun _ _ => rfl⟩

theorem trans (first : page.ClaimedTo claims changed) (second : changed.ClaimedTo more last) :
    page.ClaimedTo (claims + more) last where
  continues := first.continues.trans second.continues
  touched := by
    simp only [second.touched, first.touched, Bool.and_assoc, Nat.add_eq_zero_iff,
      Bool.decide_and]
  same untouched none := by
    obtain ⟨rfl, rfl⟩ := Nat.add_eq_zero_iff.1 none
    have sameFirst := first.same untouched rfl
    rw [second.same (sameFirst ▸ untouched) rfl, sameFirst]

/-- The loader of a page is with it until it is brought in, and gone from then on. -/
theorem loader?_eq (claimed : page.ClaimedTo claims changed) :
    changed.loader? = if claims = 0 then page.loader? else none := by
  cases fresh : page.isUntouched with
  | false =>
      have touched : changed.isUntouched = false := by rw [claimed.touched, fresh, Bool.false_and]
      rw [loader?_of_touched touched, loader?_of_touched fresh, ite_self]
  | true =>
      by_cases none : claims = 0
      · rw [claimed.same fresh none, if_pos none]
      · rw [if_neg none]
        apply loader?_of_touched
        rw [claimed.touched, decide_eq_false none, Bool.and_false]

end Page.ClaimedTo

/-! ## Steps -/

section Steps

variable {before after : Machine} {move : Move} {pid : Pid} {address : VirtAddr} {page : Page}

/-- A page that was brought in is touched. -/
theorem Step.claimedTo_of_pageIn {frame : PhysAddr} {kind : PageKind} {first : Bool}
    (step : Step (.pageIn pid address frame kind first) before after)
    (registered : before.page? pid address = some page) :
    page.isUntouched = first ∧
      ∃ changed, after.page? pid address = some changed ∧ page.ClaimedTo 1 changed := by
  cases step with
  | pageIn found known _ _ _ _ _ brought =>
      rw [page?_of_space found, known, Option.some.injEq] at registered
      subst registered
      refine ⟨rfl, _, (page?_update found rfl rfl pid _).trans (if_pos ⟨rfl, rfl⟩), ?_⟩
      refine ⟨.of_bringIn brought _, ?_, fun _ one => ?_⟩
      · rw [decide_eq_false Nat.one_ne_zero, Bool.and_false]
        exact Backing.isUntouched_touched _
      · exact absurd one Nat.one_ne_zero

/-- Any other step leaves a page as touched or untouched as it was. -/
theorem Step.claimedTo (step : Step move before after) (sound : before.Sound)
    (registered : before.page? pid address = some page)
    (stays : ∀ kind, move ≠ .remove pid address kind)
    (notIn : ∀ frame kind first, move ≠ .pageIn pid address frame kind first) :
    ∃ changed, after.page? pid address = some changed ∧ page.ClaimedTo 0 changed := by
  by_cases changes : after.page? pid address = before.page? pid address
  · exact ⟨page, changes.trans registered, .refl page⟩
  · obtain ⟨changed, found, continues⟩ :=
      step.exists_page? sound.frames registered (stays page.kind)
    rcases step.move_of_page? sound registered stays changes with
      ⟨frame, -, held⟩ | ⟨frame, kind, first, same⟩
    · -- A page that is saved is in a frame, and an untouched page is in none.
      have touched : page.isUntouched = false := by
        by_contra fresh
        rw [Bool.not_eq_false] at fresh
        rw [frame?, registered, Option.bind_some,
          (sound.slots.placed pid address page registered).frame_eq_none fresh] at held
        cases held
      refine ⟨changed, found, continues, ?_, fun fresh => ?_⟩
      · rw [touched, Bool.false_and]
        exact continues.touched touched
      · rw [touched] at fresh
        cases fresh
    · exact absurd same (notIn frame kind first)

end Steps

/-! ## Paths -/

/-- Allowed steps along which a page is brought in a number of times, some of them for the first
time. -/
inductive Claims (allowed : Move → Prop) (pid : Pid) (address : VirtAddr) :
    Nat → Nat → Machine → Machine → Prop where
  | refl (machine : Machine) : Claims allowed pid address 0 0 machine machine
  /-- The page is brought in. -/
  | claimed {firsts claims : Nat} {before middle after : Machine} {frame : PhysAddr}
      {kind : PageKind} {first : Bool}
      (earlier : Claims allowed pid address firsts claims before middle)
      (allow : allowed (.pageIn pid address frame kind first))
      (step : Step (.pageIn pid address frame kind first) middle after) :
      Claims allowed pid address (firsts + first.toNat) (claims + 1) before after
  | other {firsts claims : Nat} {before middle after : Machine} {move : Move}
      (earlier : Claims allowed pid address firsts claims before middle) (allow : allowed move)
      (step : Step move middle after)
      (notIn : ∀ frame kind first, move ≠ .pageIn pid address frame kind first) :
      Claims allowed pid address firsts claims before after

section Paths

variable {allowed : Move → Prop} {pid : Pid} {address : VirtAddr} {firsts claims : Nat}
  {before after : Machine} {page : Page}

theorem Claims.path (claimed : Claims allowed pid address firsts claims before after) :
    Path allowed before after := by
  induction claimed with
  | refl machine => exact .refl machine
  | claimed _ allow step inductionHypothesis => exact inductionHypothesis.snoc step allow
  | other _ allow step _ inductionHypothesis => exact inductionHypothesis.snoc step allow

theorem Path.exists_claims (path : Path allowed before after) (pid : Pid) (address : VirtAddr) :
    ∃ firsts claims, Claims allowed pid address firsts claims before after := by
  induction path with
  | refl => exact ⟨0, 0, .refl before⟩
  | tail _ stepped inductionHypothesis =>
      obtain ⟨firsts, claims, earlier⟩ := inductionHypothesis
      obtain ⟨move, allow, step⟩ := stepped
      by_cases brings : ∃ frame kind first, move = .pageIn pid address frame kind first
      · obtain ⟨frame, kind, first, rfl⟩ := brings
        exact ⟨_, _, earlier.claimed allow step⟩
      · exact ⟨firsts, claims, earlier.other allow step fun frame kind first same =>
          brings ⟨frame, kind, first, same⟩⟩

/-- A page along steps that do not remove it, or that register no other page in its place. -/
theorem Claims.claimedTo (claimed : Claims allowed pid address firsts claims before after)
    (sound : before.Sound) (registered : before.page? pid address = some page)
    (alone : ¬allowed (.remove pid address page.kind) ∨
      ∀ kind, ¬allowed (.register pid address kind))
    {changed : Page} (found : after.page? pid address = some changed) :
    page.ClaimedTo claims changed ∧ firsts = if page.isUntouched then min claims 1 else 0 := by
  induction claimed generalizing changed with
  | refl machine =>
      rw [registered, Option.some.injEq] at found
      subst found
      exact ⟨.refl page, by simp⟩
  | @claimed firsts claims _ middle after frame kind first earlier allow step inductionHypothesis =>
      obtain ⟨now, known, -⟩ := step.page_of_pageIn
      obtain ⟨claimedTo, counted⟩ := inductionHypothesis sound registered known
      obtain ⟨isFirst, last, atLast, more⟩ := step.claimedTo_of_pageIn known
      rw [found, Option.some.injEq] at atLast
      subst atLast
      refine ⟨claimedTo.trans more, ?_⟩
      rw [← isFirst, claimedTo.touched, counted]
      cases page.isUntouched with
      | false => rfl
      | true =>
          by_cases none : claims = 0
          · simp [none]
          · simp [none]
            omega
  | @other firsts claims _ middle after move earlier allow step notIn inductionHypothesis =>
      have path := earlier.path
      have soundMiddle := path.sound sound
      obtain ⟨now, known⟩ := path.exists_page?_between sound registered alone step allow found
      obtain ⟨claimedTo, counted⟩ := inductionHypothesis sound registered known
      obtain ⟨last, atLast, more⟩ :=
        step.claimedTo soundMiddle known (step.ne_remove soundMiddle.frames found) notIn
      rw [found, Option.some.injEq] at atLast
      subst atLast
      exact ⟨claimedTo.trans more, counted⟩

end Paths

/-! ## Runs -/

namespace Machine

variable {machine last : Machine} {events : List Event} {pid : Pid} {address : VirtAddr}
  {page : Page} {firsts claims : Nat}

/-- A run of events along steps that bring a page in a number of times, some of them for the first
time. -/
def Claimed (pid : Pid) (address : VirtAddr) : List Event → Machine → Nat → Nat → Prop
  | [], _, firsts, claims => firsts = 0 ∧ claims = 0
  | event :: rest, machine, firsts, claims => ∃ next firstsHere claimsHere firstsLater claimsLater,
    (event.perform machine).state? = some next ∧
      Claims (event.Allows machine.nextPid) pid address firstsHere claimsHere machine next ∧
      Claimed pid address rest next firstsLater claimsLater ∧
      firsts = firstsHere + firstsLater ∧ claims = claimsHere + claimsLater

theorem Reachable.exists_claimed (reachable : machine.Reachable)
    (run : machine.after? events = some last) (pid : Pid) (address : VirtAddr) :
    ∃ firsts claims, Claimed pid address events machine firsts claims := by
  induction events generalizing machine with
  | nil => exact ⟨0, 0, rfl, rfl⟩
  | cons event rest inductionHypothesis =>
      obtain ⟨next, leaves, run⟩ := Option.bind_eq_some_iff.1 run
      obtain ⟨firstsLater, claimsLater, later⟩ :=
        inductionHypothesis (reachable.next event leaves) run
      have leads := Event.leads_of_perform reachable.sound reachable.mappingsWhole leaves
      obtain ⟨firstsHere, claimsHere, here⟩ := leads.path.exists_claims pid address
      exact ⟨_, _, next, firstsHere, claimsHere, firstsLater, claimsLater, leaves, here, later,
        rfl, rfl⟩

/-- A page that is registered all along a run is touched exactly when it was touched before or it
was brought in, and of the times it is brought in only the first one makes its first contents. -/
theorem Reachable.claimedTo (reachable : machine.Reachable)
    (registered : machine.page? pid address = some page)
    (run : machine.after? events = some last)
    (stays : ∀ past state, past <+: events → machine.after? past = some state →
      (state.page? pid address).isSome = true)
    (claimed : Claimed pid address events machine firsts claims) :
    ∃ changed, last.page? pid address = some changed ∧ page.ClaimedTo claims changed ∧
      firsts = if page.isUntouched then min claims 1 else 0 := by
  induction events generalizing machine page firsts claims with
  | nil =>
      cases run
      obtain ⟨rfl, rfl⟩ := claimed
      exact ⟨page, registered, .refl page, by simp⟩
  | cons event rest inductionHypothesis =>
      obtain ⟨next, leaves, run⟩ := Option.bind_eq_some_iff.1 run
      obtain ⟨_, firstsHere, claimsHere, firstsLater, claimsLater, also, here, later, rfl, rfl⟩ :=
        claimed
      rw [leaves, Option.some.injEq] at also
      subst also
      rw [forall_states_cons leaves] at stays
      obtain ⟨now, known⟩ := Option.isSome_iff_exists.1 (stays.2 [] next List.nil_prefix rfl)
      have sound := reachable.sound
      have earlier := Event.lt_nextPid_of_page? sound registered
      have alone : ¬event.Allows machine.nextPid (.remove pid address page.kind) ∨
          ∀ kind, ¬event.Allows machine.nextPid (.register pid address kind) := by
        by_cases removes : event.Removes pid page.kind
        · exact .inr (removes.not_allows_register pid)
        · exact .inl fun allow => removes (Event.removes_of_allows earlier allow)
      obtain ⟨claimedHere, countedHere⟩ := here.claimedTo sound registered alone known
      obtain ⟨changed, found, claimedLater, countedLater⟩ :=
        inductionHypothesis (reachable.next event leaves) known run stays.2 later
      refine ⟨changed, found, claimedHere.trans claimedLater, ?_⟩
      rw [countedHere, countedLater, claimedHere.touched]
      cases page.isUntouched with
      | false => rfl
      | true =>
          by_cases none : claimsHere = 0
          · simp [none]
          · simp [none]
            omega

end Machine

end DemandPaging
