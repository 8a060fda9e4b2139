import DemandPaging.Proofs.Marks
import Mathlib.Data.List.DropRight

/-!
How long a page that is brought in stays in memory.

Owns:
- `Machine.Shifted`, what bringing a page in does to owners, queue, marks and the number of free
  frames;
- `Machine.Lasts`, after how many more pages that are brought in a page is driven out;
- `Machine.grace`, for how many pages a page lasts that is brought in next, itself included.

Does not own: for how many pages a fault asks (`Machine.stackGap`).

A page lasts while there is a free frame, or a frame before its own whose page was not accessed.
Each page that is brought in uses up exactly one of the two: the pool loses a frame, or the clock
takes the first frame whose page was not accessed, and the frames that it passed on the way lose
their marks and count from then on.

Main statements: `BroughtIn.lasts` and `Lasts.broughtIn`.
-/

namespace DemandPaging

namespace Machine

/-- The number of frames up to the last one whose page was not accessed. -/
def ahead (machine : Machine) (frames : List PhysAddr) : Nat :=
  (frames.rdropWhile machine.wasAccessed).length

/-- For how many pages, brought in one after the other, the first of them stays in memory. -/
def grace (machine : Machine) : Nat :=
  let spared := machine.freeFrames + machine.ahead machine.resident.queue
  if spared = 0 then machine.resident.queue.length else spared

/-- A page stays in memory while fewer than a number of other pages are brought in, and then it is
driven out. Without any left it is out already. -/
def Lasts (machine : Machine) (owner : FrameOwner) : Nat → Prop
  | 0 => ∀ frame, machine.resident.owner? frame ≠ some owner
  | more + 1 => ∃ frame earlier later, machine.resident.owner? frame = some owner ∧
      machine.resident.queue = earlier ++ frame :: later ∧
      machine.wasAccessed frame = false ∧ machine.freeFrames + machine.ahead earlier = more

variable {before asked settled after : Machine} {pid : Pid} {address : VirtAddr}
  {frame : PhysAddr} {owner : FrameOwner}

/-! ## The frames ahead -/

theorem ahead_eq_zero_iff {machine : Machine} {frames : List PhysAddr} :
    machine.ahead frames = 0 ↔ ∀ frame ∈ frames, machine.wasAccessed frame = true := by
  rw [ahead, List.length_eq_zero_iff, List.rdropWhile_eq_nil_iff]

/-- Frames of which the last was not accessed all count, whatever follows. -/
theorem ahead_append {machine : Machine} {first : List PhysAddr}
    (whole : first.rdropWhile machine.wasAccessed = first) (second : List PhysAddr) :
    machine.ahead (first ++ second) = first.length + machine.ahead second := by
  unfold ahead
  induction second using List.reverseRecOn with
  | nil => simp [whole]
  | append_singleton rest last inductionHypothesis =>
      rw [← List.append_assoc, List.rdropWhile_concat, List.rdropWhile_concat]
      split
      case isTrue => exact inductionHypothesis
      case isFalse => simp

theorem rdropWhile_of_unaccessed {machine : Machine} {frames : List PhysAddr}
    (unaccessed : ∀ frame ∈ frames, machine.wasAccessed frame = false) :
    frames.rdropWhile machine.wasAccessed = frames := by
  rw [List.rdropWhile_eq_self_iff]
  intro nonempty
  rw [unaccessed _ (List.getLast_mem nonempty)]
  exact Bool.false_ne_true

theorem ahead_congr {frames : List PhysAddr}
    (marks : ∀ frame ∈ frames, after.wasAccessed frame = before.wasAccessed frame) :
    after.ahead frames = before.ahead frames := by
  unfold ahead
  induction frames using List.reverseRecOn with
  | nil => rfl
  | append_singleton rest last inductionHypothesis =>
      rw [List.rdropWhile_concat, List.rdropWhile_concat, marks last (by simp)]
      split
      case isTrue =>
        exact inductionHypothesis fun other listed => marks other (by simp [listed])
      case isFalse => rfl

/-- When the clock takes the first frame whose page was not accessed and clears the marks before it,
one frame less is ahead. -/
theorem ahead_of_first {earlier rest : List PhysAddr} (here : before.wasAccessed frame = false)
    (cleared : ∀ other ∈ earlier, after.wasAccessed other = false)
    (same : ∀ other ∈ rest, after.wasAccessed other = before.wasAccessed other) :
    before.ahead (earlier ++ frame :: rest) = after.ahead (earlier ++ rest) + 1 := by
  have whole : (earlier ++ [frame]).rdropWhile before.wasAccessed = earlier ++ [frame] := by
    rw [List.rdropWhile_concat, here]
    exact if_neg Bool.false_ne_true
  calc before.ahead (earlier ++ frame :: rest)
      = before.ahead ((earlier ++ [frame]) ++ rest) := by simp
    _ = earlier.length + 1 + before.ahead rest := by rw [ahead_append whole]; simp
    _ = earlier.length + after.ahead rest + 1 := by rw [ahead_congr same]; omega
    _ = after.ahead (earlier ++ rest) + 1 := by
        rw [ahead_append (rdropWhile_of_unaccessed cleared)]

/-! ## Changes that move no page -/

theorem grace_congr (resident : after.resident = before.resident)
    (marks : ∀ frame, after.wasAccessed frame = before.wasAccessed frame) :
    after.grace = before.grace := by
  unfold grace freeFrames
  rw [resident, ahead_congr fun frame _ => marks frame]

theorem Lasts.congr {left : Nat} (lasts : before.Lasts owner left)
    (resident : after.resident = before.resident)
    (marks : ∀ frame, after.wasAccessed frame = before.wasAccessed frame) :
    after.Lasts owner left := by
  cases left with
  | zero =>
      intro frame
      rw [resident]
      exact lasts frame
  | succ more =>
      obtain ⟨frame, earlier, later, owns, queue, unaccessed, spared⟩ := lasts
      refine ⟨frame, earlier, later, ?_, ?_, ?_, ?_⟩
      · rw [resident, owns]
      · rw [resident, queue]
      · rw [marks, unaccessed]
      · rw [freeFrames, resident, ahead_congr fun frame _ => marks frame, ← spared, freeFrames]

/-! ## What the steps do -/

/-- Whose page a frame holds, and whether it was accessed, is as it was. -/
theorem wasAccessed_congr (owners : after.resident.owner? frame = before.resident.owner? frame)
    (marks : ∀ owner, before.resident.owner? frame = some owner →
      marked after.spaces owner = marked before.spaces owner) :
    after.wasAccessed frame = before.wasAccessed frame := by
  unfold wasAccessed
  rw [owners]
  cases owns : before.resident.owner? frame with
  | none => rfl
  | some owner => exact marks owner owns

/-- A page loses its frame: the frame is free and off the queue. -/
structure Vacated (before : Machine) (frame : PhysAddr) (after : Machine) : Prop where
  free : after.freeFrames = before.freeFrames + 1
  queue : after.resident.queue = before.resident.queue.filter fun queued => queued ≠ frame
  owners : ∀ other, after.resident.owner? other =
    if frame = other then none else before.resident.owner? other
  marks : ∀ other, frame ≠ other → after.wasAccessed other = before.wasAccessed other

theorem vacated_of_pageOut (owned : before.FramesOwned)
    (step : Step (.pageOut frame) before after) : before.Vacated frame after := by
  cases step with
  | @pageOut _ pid space page _ old bytes backing store table resident found registered held
      read saved unmapped released =>
      have known := (page?_of_space found page.address).trans registered
      have owns := owned.owner?_of_held known held
      obtain ⟨-, queue, owners, -⟩ := owned.resident.of_release owns released
      refine ⟨owned.resident.freeCount_of_release owns released, queue, owners,
        fun other different => ?_⟩
      have atOther : resident.owner? other = before.resident.owner? other :=
        (owners other).trans (if_neg different)
      refine wasAccessed_congr atOther fun owner owns' => ?_
      have views := (owned.spaces pid space found).1.view?_of_unmap registered held unmapped
      refine (marked_update found views owner).trans (if_neg fun same => different ?_)
      have differ := owned.ownersDiffer
      apply differ.injective frame other owner _ owns'
      rw [owns, same.1, same.2, Address.pageDown_eq_self_iff.2 (differ.aligned _ _ owns')]

/-- A page gets a free frame: the frame is last in the queue and was not accessed. -/
structure Occupied (before : Machine) (owner : FrameOwner) (frame : PhysAddr) (after : Machine) :
    Prop where
  free : before.freeFrames = after.freeFrames + 1
  unqueued : frame ∉ before.resident.queue
  queue : after.resident.queue = before.resident.queue ++ [frame]
  owners : ∀ other, after.resident.owner? other =
    if frame = other then some owner else before.resident.owner? other
  fresh : after.wasAccessed frame = false
  marks : ∀ other, frame ≠ other → after.wasAccessed other = before.wasAccessed other

theorem occupied_of_pageIn {kind : PageKind} {first : Bool} (owned : before.FramesOwned)
    (step : Step (.pageIn pid address frame kind first) before after) :
    before.Occupied ⟨pid, address⟩ frame after := by
  cases step with
  | @pageIn _ _ space page _ bytes backing transfer table taken linked resident found registered
      absent acquired mapped link read brought written =>
      have inHand := owned.resident.taken acquired
      obtain ⟨-, queue, linkedOwners, -⟩ := owned.resident.occupy acquired link
      obtain ⟨-, -, sameQueue, -⟩ := ResidentSet.of_write written
      have owners (other : PhysAddr) : resident.owner? other =
          if frame = other then some ⟨pid, page.address⟩ else before.resident.owner? other := by
        rw [← linkedOwners, ResidentSet.owner?_of_write written]
      have aligned := (owned.located ((page?_of_space found page.address).trans registered)).2
      have marks (pages : PageRegistry) (owner : FrameOwner) :
          marked (before.spaces.insert pid { space with table, pages }) owner =
            if pid = owner.pid ∧ page.address = owner.address.pageDown then false
            else marked before.spaces owner :=
        marked_update found (PageTable.view?_of_map inHand.physical mapped) owner
      refine ⟨?_, inHand.unqueued, sameQueue.trans queue, owners, ?_, ?_⟩
      · have freeCount := owned.resident.freeCount_of_acquire acquired
        rw [← (inHand.of_link link).2.2, ← ResidentSet.freeCount_of_write written] at freeCount
        exact freeCount.symm
      · unfold wasAccessed
        dsimp only
        rw [owners, if_pos rfl, Option.any_some, marks,
          if_pos ⟨rfl, (Address.pageDown_eq_self_iff.2 aligned).symm⟩]
      · intro other different
        have atOther : resident.owner? other = before.resident.owner? other :=
          (owners other).trans (if_neg different)
        refine wasAccessed_congr atOther fun owner owns => ?_
        refine (marks _ owner).trans (if_neg fun same => ?_)
        have atOwner := (owned.owner_iff other owner.pid owner.address).1 owns
        have ownerAligned := owned.ownersDiffer.aligned _ _ owns
        rw [← Address.pageDown_eq_self_iff.2 ownerAligned, ← same.1, ← same.2, frame?,
          page?_of_space found, registered, Option.bind_some, absent] at atOwner
        cases atOwner

/-! ## Bringing a page in -/

/-- Where the frame of a page that was brought in came from. -/
inductive Turn (before : Machine) (frame : PhysAddr) (after : Machine) : Prop where
  | loaned (free : before.freeFrames = after.freeFrames + 1)
      (unqueued : frame ∉ before.resident.queue)
      (queue : after.resident.queue = before.resident.queue ++ [frame])
      (marks : ∀ other, frame ≠ other → after.wasAccessed other = before.wasAccessed other)
  /-- The clock took it. -/
  | evicted {asked : Machine} (exhausted : before.freeFrames = 0) (free : after.freeFrames = 0)
      (passed : before.Passed frame asked)
      (queue : after.resident.queue =
        before.resident.queue.filter (fun queued => queued ≠ frame) ++ [frame])
      (marks : ∀ other, frame ≠ other → after.wasAccessed other = asked.wasAccessed other)

/-- A page was brought into a frame, which is now the last of the queue. -/
structure Shifted (before : Machine) (owner : FrameOwner) (frame : PhysAddr) (after : Machine) :
    Prop where
  owners : ∀ other, after.resident.owner? other =
    if frame = other then some owner else before.resident.owner? other
  fresh : after.wasAccessed frame = false
  turn : before.Turn frame after

theorem BroughtIn.shifted (sound : before.Sound)
    (broughtIn : before.BroughtIn pid address after) :
    ∃ frame, before.Shifted ⟨pid, address⟩ frame after := by
  obtain ⟨frame, kind, first, settled, inHand, holding, step, -⟩ := broughtIn
  have soundSettled := holding.path.sound sound
  have occupied := occupied_of_pageIn soundSettled.frames step
  refine ⟨frame, ?_⟩
  cases holding with
  | loaned _ same _ =>
      subst same
      exact ⟨occupied.owners, occupied.fresh,
        .loaned occupied.free occupied.unqueued occupied.queue occupied.marks⟩
  | @evicted asked owner exhausted chosen evicting _ _ =>
      have soundAsked := chosen.path.sound sound
      have vacated := vacated_of_pageOut soundAsked.frames evicting
      have sameResident : asked.resident = before.resident := by rw [chosen.same]
      have noneFree : before.freeFrames = 0 :=
        sound.frames.resident.freeCount_of_exhausted exhausted
      have noneAsked : asked.freeFrames = 0 := by
        rw [freeFrames, sameResident]
        exact noneFree
      refine ⟨fun other => ?_, occupied.fresh,
        .evicted noneFree ?_ (chosen.passed sound) ?_ fun other different => ?_⟩
      · rw [occupied.owners, vacated.owners, sameResident]
        split <;> rfl
      · have freed := vacated.free
        have loaned := occupied.free
        omega
      · rw [occupied.queue, vacated.queue, sameResident]
      · rw [occupied.marks other different, vacated.marks other different]

/-- If the clock took the first frame whose page was not accessed, one frame less is ahead of the
frames behind it, and the others stay in their order. -/
theorem ahead_of_passed {earlier rest later : List PhysAddr}
    (nodup : (earlier ++ frame :: (rest ++ later)).Nodup)
    (here : before.wasAccessed frame = false)
    (passed : ∀ other, asked.wasAccessed other =
      (before.wasAccessed other && decide (other ∉ earlier)))
    (marks : ∀ other, frame ≠ other → after.wasAccessed other = asked.wasAccessed other) :
    before.ahead (earlier ++ frame :: rest) = after.ahead (earlier ++ rest) + 1 ∧
      (earlier ++ frame :: (rest ++ later)).filter (fun queued => queued ≠ frame) =
        earlier ++ (rest ++ later) := by
  obtain ⟨-, nodupRest, apart⟩ := List.nodup_append.1 nodup
  obtain ⟨unlisted, -⟩ := List.nodup_cons.1 nodupRest
  have notEarlier : ∀ other ∈ earlier, other ≠ frame := fun other listed =>
    apart other listed frame List.mem_cons_self
  have notLater : ∀ other ∈ rest ++ later, other ≠ frame := fun other listed same =>
    unlisted (same ▸ listed)
  constructor
  · apply ahead_of_first here
    · intro other listed
      rw [marks other (notEarlier other listed).symm, passed]
      simp [listed]
    · intro other listed
      have listed' : other ∈ rest ++ later := List.mem_append_left later listed
      have unpassed : other ∉ earlier := fun also =>
        apart other also other (List.mem_cons_of_mem frame listed') rfl
      rw [marks other (notLater other listed').symm, passed]
      simp [unpassed]
  · rw [List.filter_append, List.filter_cons_of_neg (by simp),
      List.filter_eq_self.2 fun other listed => by simpa using notEarlier other listed,
      List.filter_eq_self.2 fun other listed => by simpa using notLater other listed]

/-- A page that is brought in lasts for the grace of the machine. -/
theorem BroughtIn.lasts (sound : before.Sound)
    (broughtIn : before.BroughtIn pid address after) :
    after.Lasts ⟨pid, address⟩ before.grace := by
  obtain ⟨frame, shifted⟩ := broughtIn.shifted sound
  have owns : after.resident.owner? frame = some ⟨pid, address⟩ := by
    rw [shifted.owners, if_pos rfl]
  cases shifted.turn with
  | loaned free unqueued queue marks =>
      -- The frame is last in the queue, and the frames before it are as they were.
      have sameAhead : after.ahead before.resident.queue = before.ahead before.resident.queue := by
        apply ahead_congr
        intro other listed
        exact marks other fun same => unqueued (same ▸ listed)
      have spared : before.grace =
          after.freeFrames + after.ahead before.resident.queue + 1 := by
        unfold grace
        dsimp only
        rw [free, ← sameAhead, if_neg (by omega)]
        omega
      rw [spared]
      exact ⟨frame, before.resident.queue, [], owns, queue, shifted.fresh, rfl⟩
  | @evicted asked exhausted free passed queue marks =>
      cases passed with
      | first earlier later queued accessed here cleared =>
          -- The frames that the clock passed lost their marks, so now they are ahead as well.
          have nodup := sound.frames.resident.nodup
          have ends : earlier ++ frame :: later = earlier ++ frame :: (later ++ []) := by simp
          rw [queued, ends] at nodup queue
          obtain ⟨less, filtered⟩ := ahead_of_passed nodup here cleared marks
          have spared : before.grace = after.freeFrames + after.ahead (earlier ++ later) + 1 := by
            unfold grace
            dsimp only
            rw [queued, exhausted, free, less, if_neg (by omega)]
            omega
          rw [spared]
          refine ⟨frame, earlier ++ later, [], owns, ?_, shifted.fresh, rfl⟩
          rw [queue, filtered, List.append_nil]
      | front later queued accessed cleared =>
          -- Nothing was spared, and without any mark the whole queue is ahead.
          have nodup := sound.frames.resident.nodup
          rw [queued, List.nodup_cons] at nodup
          have different : ∀ other ∈ later, other ≠ frame := fun other listed same =>
            nodup.1 (same ▸ listed)
          have whole : after.ahead later = later.length := by
            rw [ahead, rdropWhile_of_unaccessed]
            intro other listed
            rw [marks other (different other listed).symm, cleared]
          have spared : before.grace = after.freeFrames + after.ahead later + 1 := by
            unfold grace
            dsimp only
            rw [exhausted, ahead_eq_zero_iff.2 accessed, if_pos rfl, queued, free, whole,
              List.length_cons]
            omega
          rw [spared]
          refine ⟨frame, later, [], owns, ?_, shifted.fresh, rfl⟩
          rw [queue, queued, List.filter_cons_of_neg (by simp),
            List.filter_eq_self.2 fun other listed => by simpa using different other listed]

/-- The frame that the clock takes comes before another one whose page was not accessed, or it is
that one. -/
theorem eq_or_exists_of_first {earlier later ahead behind : List PhysAddr} {kept : PhysAddr}
    (same : earlier ++ frame :: later = ahead ++ kept :: behind)
    (accessed : ∀ other ∈ earlier, before.wasAccessed other = true)
    (here : before.wasAccessed kept = false) :
    (frame = kept ∧ earlier = ahead) ∨
      ∃ rest, ahead = earlier ++ frame :: rest ∧ later = rest ++ kept :: behind := by
  rcases List.append_eq_append_iff.1 same with ⟨between, atAhead, rest⟩ | ⟨between, atEarlier, rest⟩
  · cases between with
    | nil =>
        rw [List.nil_append, List.cons.injEq] at rest
        exact .inl ⟨rest.1, by rw [atAhead, List.append_nil]⟩
    | cons next others =>
        rw [List.cons_append, List.cons.injEq] at rest
        exact .inr ⟨others, by rw [atAhead, rest.1], rest.2⟩
  · cases between with
    | nil =>
        rw [List.nil_append, List.cons.injEq] at rest
        exact .inl ⟨rest.1.symm, by rw [atEarlier, List.append_nil]⟩
    | cons next others =>
        rw [List.cons_append, List.cons.injEq] at rest
        have listed : kept ∈ earlier := by rw [atEarlier, rest.1]; simp
        rw [accessed kept listed] at here
        cases here

theorem Shifted.lasts_zero {kept : FrameOwner}
    (shifted : before.Shifted owner frame after) (different : owner ≠ kept)
    (held : ∀ other, before.resident.owner? other = some kept → frame = other) :
    after.Lasts kept 0 := by
  intro other owns
  rw [shifted.owners] at owns
  split at owns
  case isTrue => exact different (Option.some.inj owns)
  case isFalse elsewhere => exact elsewhere (held other owns)

/-- Every other page that is brought in shortens the stay of a page by one. -/
theorem Lasts.broughtIn {kept : FrameOwner} {left : Nat} (lasts : before.Lasts kept left)
    (sound : before.Sound) (broughtIn : before.BroughtIn pid address after)
    (different : (⟨pid, address⟩ : FrameOwner) ≠ kept) : after.Lasts kept (left - 1) := by
  obtain ⟨frame, shifted⟩ := broughtIn.shifted sound
  cases left with
  | zero =>
      apply shifted.lasts_zero different
      intro other owns
      exact absurd owns (lasts other)
  | succ more =>
      obtain ⟨place, ahead, behind, owns, queued, unaccessed, spared⟩ := lasts
      have listed : place ∈ before.resident.queue := by rw [queued]; simp
      have keeps (elsewhere : frame ≠ place) : after.resident.owner? place = some kept := by
        rw [shifted.owners, if_neg elsewhere, owns]
      rw [Nat.add_sub_cancel]
      cases shifted.turn with
      | loaned free unqueued queue marks =>
          have elsewhere : frame ≠ place := fun same => unqueued (same ▸ listed)
          have sameAhead : after.ahead ahead = before.ahead ahead := by
            apply ahead_congr
            intro other inAhead
            exact marks other fun same => unqueued (by rw [same, queued]; simp [inAhead])
          have still : more = after.freeFrames + after.ahead ahead + 1 := by omega
          rw [still]
          refine ⟨place, ahead, behind ++ [frame], keeps elsewhere, ?_, ?_, rfl⟩
          · rw [queue, queued, List.append_assoc, List.cons_append]
          · rw [marks place elsewhere, unaccessed]
      | @evicted asked exhausted free passed queue marks =>
          cases passed with
          | front later queued' accessed cleared =>
              -- The page itself was not accessed, so the first round did not pass its frame.
              rw [accessed place listed] at unaccessed
              cases unaccessed
          | first earlier later queued' accessed here cleared =>
              have same := queued'.symm.trans queued
              rcases eq_or_exists_of_first same accessed unaccessed with
                ⟨taken, rfl⟩ | ⟨rest, rfl, rfl⟩
              · -- The clock took the frame of the page, and no other frame was ahead of it.
                have noneAhead := ahead_eq_zero_iff.2 accessed
                have spent : more = 0 := by omega
                rw [spent]
                apply shifted.lasts_zero different
                intro other owns'
                rw [taken]
                exact sound.frames.ownersDiffer.injective _ _ _ owns owns'
              · -- The clock took a frame ahead of the page, and those it passed stay ahead.
                have nodup := sound.frames.resident.nodup
                rw [queued'] at nodup queue
                have elsewhere : frame ≠ place := by
                  intro taken
                  have unlisted := (List.nodup_cons.1 (List.nodup_append.1 nodup).2.1).1
                  exact unlisted (by rw [taken]; simp)
                obtain ⟨less, filtered⟩ := ahead_of_passed nodup here cleared marks
                have still : more = after.freeFrames + after.ahead (earlier ++ rest) + 1 := by
                  omega
                rw [still]
                refine ⟨place, earlier ++ rest, behind ++ [frame], keeps elsewhere, ?_, ?_, rfl⟩
                · rw [queue, filtered]
                  simp
                · rw [marks place elsewhere, cleared, unaccessed, Bool.false_and]

/-- A page that lasts is in memory, unless there is nothing left of its stay. -/
theorem Lasts.frame?_isSome_iff {left : Nat} (lasts : before.Lasts ⟨pid, address⟩ left)
    (owned : before.FramesOwned) : (before.frame? pid address).isSome = true ↔ 0 < left := by
  cases left with
  | zero =>
      have absent : before.frame? pid address = none := by
        rw [Option.eq_none_iff_forall_ne_some]
        intro frame held
        exact lasts frame ((owned.owner_iff ..).2 held)
      simp [absent]
  | succ more =>
      obtain ⟨frame, -, -, owns, -⟩ := lasts
      rw [(owned.owner_iff ..).1 owns]
      simp

end Machine

end DemandPaging
