import DemandPaging.Proofs.Clock

/-!
Which frame the clock takes, and whom it asks.

Owns:
- `ResidentSet.Question.recorded`, a question that keeps the list of the owners that were asked;
- `ResidentSet.Marks`, the owners whose pages were accessed, as a state that every question looks up
  and clears;
- `ResidentSet.Selects`, a choice with the questions that led to it.

Does not own: where the marks of pages are kept (`Machine.testAndClearAccessed`).

The owners may answer as they like, and every answer may change the next one. Nothing but the order
of the queue and the two rounds is up to the clock.

Main statement: `clock_selects`.
-/

namespace DemandPaging

namespace ResidentSet

variable {State : Type} {ask : Question State} {owner? : PhysAddr → Option FrameOwner}
  {set : ResidentSet} {entries earlier later : List (PhysAddr × FrameOwner)}
  {victim : PhysAddr × FrameOwner}

/-! ## Questions -/

/-- The same question, next to a list of the owners that it was put to so far. -/
def Question.recorded (ask : Question State) : Question (State × List FrameOwner) :=
  fun owner state =>
    let answer := ask owner state.1
    (answer.1, answer.2, state.2 ++ [owner])

/-- The owners whose pages were accessed. -/
abbrev Marks : Type := FrameOwner → Bool

namespace Marks

/-- The marks without those of some owners. -/
def without (marks : Marks) (owners : List FrameOwner) : Marks := fun owner =>
  marks owner && decide (owner ∉ owners)

/-- An owner answers whether it is marked, and loses its mark. -/
def testAndClear : Question Marks := fun owner marks => (marks owner, marks.without [owner])

@[simp]
theorem without_nil (marks : Marks) : marks.without [] = marks := by
  funext owner
  simp [without]

theorem without_without (marks : Marks) (first second : List FrameOwner) :
    (marks.without first).without second = marks.without (first ++ second) := by
  funext owner
  simp [without, Bool.and_assoc, not_or]

/-- An owner that is not marked loses nothing. -/
theorem testAndClear_of_unmarked {marks : Marks} {owner : FrameOwner}
    (unmarked : marks owner = false) : testAndClear owner marks = (false, marks) := by
  have same : marks.without [owner] = marks := by
    funext other
    by_cases here : other = owner
    · simp [without, here, unmarked]
    · simp [without, here]
  rw [testAndClear, unmarked, same]

end Marks

/-! ## The search -/

/-- Owners are asked in turn, and all of them answer yes. -/
inductive Passes (ask : Question State) : List FrameOwner → State → State → Prop where
  | nil (state : State) : Passes ask [] state state
  | cons {owner : FrameOwner} {rest : List FrameOwner} {before middle after : State}
      (answer : ask owner before = (true, middle)) (passes : Passes ask rest middle after) :
      Passes ask (owner :: rest) before after

/-- Owners that always answer yes and change nothing are passed, however many they are. -/
theorem passes_of_always {state : State} (always : ∀ owner, ask owner state = (true, state))
    (owners : List FrameOwner) : Passes ask owners state state := by
  induction owners with
  | nil => exact .nil state
  | cons owner rest inductionHypothesis => exact .cons (always owner) inductionHypothesis

/-- Marked owners are passed and lose their marks, if none of them is asked twice. -/
theorem passes_testAndClear {owners : List FrameOwner} {marks : Marks} (distinct : owners.Nodup)
    (marked : ∀ owner ∈ owners, marks owner = true) :
    Passes Marks.testAndClear owners marks (marks.without owners) := by
  induction owners generalizing marks with
  | nil =>
      rw [Marks.without_nil]
      exact .nil marks
  | cons owner rest inductionHypothesis =>
      obtain ⟨fresh, distinctRest⟩ := List.nodup_cons.1 distinct
      have answer : Marks.testAndClear owner marks = (true, marks.without [owner]) := by
        rw [Marks.testAndClear, marked owner List.mem_cons_self]
      have markedRest : ∀ other ∈ rest, marks.without [owner] other = true := by
        intro other listed
        have different : other ≠ owner := by
          rintro rfl
          exact fresh listed
        simp [Marks.without, marked other (List.mem_cons_of_mem _ listed), different]
      have passes := inductionHypothesis distinctRest markedRest
      rw [Marks.without_without] at passes
      exact .cons answer passes

/-- The search goes on behind the frames whose owners it passes, and has asked these. -/
theorem firstUnaccessed_of_passes {before after : State}
    (owned : ∀ entry ∈ entries, owner? entry.1 = some entry.2)
    (passes : Passes ask (entries.map Prod.snd) before after) (asked : List FrameOwner)
    (others : List PhysAddr) :
    firstUnaccessed owner? ask.recorded (entries.map Prod.fst ++ others) (before, asked) =
      firstUnaccessed owner? ask.recorded others (after, asked ++ entries.map Prod.snd) := by
  induction entries generalizing before asked with
  | nil =>
      cases passes
      rw [List.map_nil, List.map_nil, List.nil_append, List.append_nil]
  | cons entry rest inductionHypothesis =>
      cases passes with
      | @cons _ _ _ middle _ answer passes =>
          have answered : ask.recorded entry.2 (before, asked) =
              (true, middle, asked ++ [entry.2]) := by
            rw [Question.recorded, answer]
          have searched := inductionHypothesis
            (fun other listed => owned other (List.mem_cons_of_mem _ listed)) passes
            (asked ++ [entry.2])
          rw [List.append_assoc] at searched
          simp only [List.map_cons, List.cons_append, firstUnaccessed,
            owned entry List.mem_cons_self, answered]
          exact searched

/-- The search stops at a frame whose owner answers no. -/
theorem firstUnaccessed_of_answer {before after : State} {frame : PhysAddr} {owner : FrameOwner}
    (owns : owner? frame = some owner) (answer : ask owner before = (false, after))
    (asked : List FrameOwner) (others : List PhysAddr) :
    firstUnaccessed owner? ask.recorded (frame :: others) (before, asked) =
      .ok (some frame, after, asked ++ [owner]) := by
  have answered : ask.recorded owner (before, asked) = (false, after, asked ++ [owner]) := by
    rw [Question.recorded, answer]
  simp only [firstUnaccessed, owns, answered]

/-- Keeping the list of the owners that are asked changes neither what the search finds nor what it
leaves. -/
theorem firstUnaccessed_recorded (frames : List PhysAddr) (state : State)
    (asked : List FrameOwner) :
    (firstUnaccessed owner? ask.recorded frames (state, asked)).map
        (fun result => (result.1, result.2.1)) =
      firstUnaccessed owner? ask frames state := by
  induction frames generalizing state asked with
  | nil => rfl
  | cons frame rest inductionHypothesis =>
      simp only [firstUnaccessed]
      cases owner? frame with
      | none => rfl
      | some owner =>
          dsimp only [Question.recorded]
          cases ask owner state with
          | mk accessed middle =>
              cases accessed with
              | false => rfl
              | true => exact inductionHypothesis middle _

/-- Whatever the owners answer, the search asks at most one owner for each frame, and finds one of
the frames or none. -/
theorem exists_asked_of_firstUnaccessed {frames : List PhysAddr} (ask : Question State)
    (owned : ∀ frame ∈ frames, (owner? frame).isSome = true) (state : State)
    (asked : List FrameOwner) :
    ∃ found after more, firstUnaccessed owner? ask.recorded frames (state, asked) =
      .ok (found, after, asked ++ more) ∧ more.length ≤ frames.length ∧
        ∀ frame, found = some frame → frame ∈ frames := by
  induction frames generalizing state asked with
  | nil => exact ⟨none, state, [], by rw [List.append_nil]; rfl, Nat.le_refl 0, nofun⟩
  | cons frame rest inductionHypothesis =>
      obtain ⟨owner, owns⟩ := Option.isSome_iff_exists.1 (owned frame List.mem_cons_self)
      cases answer : ask owner state with
      | mk accessed middle =>
          cases accessed with
          | false =>
              exact ⟨some frame, middle, [owner], firstUnaccessed_of_answer owns answer asked rest,
                Nat.succ_le_succ (Nat.zero_le _), fun other same =>
                  Option.some.inj same ▸ List.mem_cons_self⟩
          | true =>
              obtain ⟨found, after, more, searched, few, member⟩ := inductionHypothesis
                (fun other listed => owned other (List.mem_cons_of_mem _ listed)) middle
                (asked ++ [owner])
              have ownedHere : ∀ entry ∈ [(frame, owner)], owner? entry.1 = some entry.2 := by
                simpa using owns
              have passed := firstUnaccessed_of_passes ownedHere (.cons answer (.nil middle)) asked
                rest
              refine ⟨found, after, owner :: more, ?_, Nat.succ_le_succ few, fun other same =>
                List.mem_cons_of_mem frame (member other same)⟩
              rw [List.append_cons, ← searched]
              exact passed

/-! ## The choice -/

theorem owner?_of_mem_victims {entry : PhysAddr × FrameOwner} (listed : entry ∈ set.victims) :
    set.owner? entry.1 = some entry.2 := by
  obtain ⟨frame, -, found⟩ := List.mem_filterMap.1 listed
  obtain ⟨owner, owns, rfl⟩ := Option.map_eq_some_iff.1 found
  exact owns

/-- If every frame of the queue has an owner, no frame is left out. -/
theorem map_fst_victims (owned : ∀ frame ∈ set.queue, (set.owner? frame).isSome = true) :
    set.victims.map Prod.fst = set.queue := by
  unfold victims
  generalize set.queue = frames at owned
  induction frames with
  | nil => rfl
  | cons frame rest inductionHypothesis =>
      obtain ⟨owner, owns⟩ := Option.isSome_iff_exists.1 (owned frame List.mem_cons_self)
      rw [List.filterMap_cons, owns, Option.map_some, List.map_cons,
        inductionHypothesis fun other listed => owned other (List.mem_cons_of_mem _ listed)]

/-- Frames with different owners are different. -/
theorem nodup_map_fst_victims (distinct : (set.victims.map Prod.snd).Nodup) :
    (set.victims.map Prod.fst).Nodup := by
  rw [List.Nodup, List.pairwise_map] at distinct ⊢
  refine distinct.imp_of_mem fun listed also different same => different ?_
  have owner := owner?_of_mem_victims listed
  rw [same, owner?_of_mem_victims also, Option.some.injEq] at owner
  exact owner.symm

/-- Keeping the list of the owners that are asked does not change the choice. -/
theorem selectVictim_recorded (set : ResidentSet) (ask : Question State) (state : State)
    (asked : List FrameOwner) :
    (set.selectVictim ask.recorded (state, asked)).map
        (fun result => (result.1, result.2.1, result.2.2.1)) =
      set.selectVictim ask state := by
  unfold selectVictim
  rw [← firstUnaccessed_recorded (set.queue ++ set.queue) state asked]
  cases firstUnaccessed set.owner? ask.recorded (set.queue ++ set.queue) (state, asked) with
  | error fault => rfl
  | ok result =>
      obtain ⟨found, after, _⟩ := result
      simp only [bind, Except.bind, Except.map]
      cases found.or set.queue.head? with
      | none => rfl
      | some frame =>
          dsimp only
          cases set.owner? frame <;> rfl

/-- The clock takes a victim off the queue, after it asked some owners in this order. The rest of
the queue keeps its order, and every frame keeps its owner. -/
structure Selects (set : ResidentSet) (ask : Question State) (state : State)
    (asked : List FrameOwner) (victim : PhysAddr × FrameOwner)
    (rest : List (PhysAddr × FrameOwner)) (after : State) : Prop where
  selected : set.selectVictim ask state =
    .ok (some victim, { set with queue := rest.map Prod.fst }, after)
  recorded : set.selectVictim ask.recorded (state, []) =
    .ok (some victim, { set with queue := rest.map Prod.fst }, after, asked)

/-- The frame that the search finds is the victim, or else the one at the front. -/
theorem selects_of_search {found : Option PhysAddr} {before after : State}
    {asked : List FrameOwner} (owned : ∀ frame ∈ set.queue, (set.owner? frame).isSome = true)
    (distinct : (set.victims.map Prod.snd).Nodup)
    (split : set.victims = earlier ++ victim :: later)
    (searched : firstUnaccessed set.owner? ask.recorded (set.queue ++ set.queue) (before, []) =
      .ok (found, after, asked))
    (choice : found.or set.queue.head? = some victim.1) :
    set.Selects ask before asked victim (earlier ++ later) after := by
  have owner : set.owner? victim.1 = some victim.2 := by
    refine owner?_of_mem_victims ?_
    rw [split]
    exact List.mem_append_right _ List.mem_cons_self
  have remains : set.queue.erase victim.1 = (earlier ++ later).map Prod.fst := by
    have nodup := nodup_map_fst_victims distinct
    rw [split, List.map_append, List.map_cons] at nodup
    have first : victim.1 ∉ earlier.map Prod.fst := fun listed =>
      (List.nodup_append.1 nodup).2.2 _ listed _ List.mem_cons_self rfl
    rw [← map_fst_victims owned, split, List.map_append, List.map_cons,
      List.erase_append_right _ first, List.erase_cons_head, List.map_append]
  have recorded : set.selectVictim ask.recorded (before, []) =
      .ok (some victim, { set with queue := (earlier ++ later).map Prod.fst }, after, asked) := by
    rw [selectVictim, searched]
    simp only [bind, Except.bind, choice, owner, remains]
  refine ⟨?_, recorded⟩
  rw [← selectVictim_recorded set ask before [], recorded]
  rfl

section Choice

variable (owned : ∀ frame ∈ set.queue, (set.owner? frame).isSome = true)
  (distinct : (set.victims.map Prod.snd).Nodup)

include owned

theorem selectVictim_of_empty (empty : set.victims = []) (ask : Question State) (state : State) :
    set.selectVictim ask state = .ok (none, set, state) := by
  have queue := map_fst_victims owned
  rw [empty] at queue
  rw [selectVictim, ← queue]
  rfl

include distinct

/-- Whatever the owners answer, one of the frames is taken after two rounds at most. -/
theorem exists_selects (nonempty : set.victims ≠ []) (ask : Question State) (state : State) :
    ∃ earlier victim later asked after, set.victims = earlier ++ victim :: later ∧
      set.Selects ask state asked victim (earlier ++ later) after ∧
      asked.length ≤ 2 * set.victims.length := by
  have queue := map_fst_victims owned
  have ownedTwice : ∀ frame ∈ set.queue ++ set.queue, (set.owner? frame).isSome = true := by
    intro frame listed
    rw [List.mem_append, or_self] at listed
    exact owned frame listed
  obtain ⟨found, after, asked, searched, few, member⟩ :=
    exists_asked_of_firstUnaccessed ask ownedTwice state []
  obtain ⟨frame, choice, listed⟩ : ∃ frame, found.or set.queue.head? = some frame ∧
      frame ∈ set.queue := by
    cases found with
    | some frame => exact ⟨frame, rfl, by simpa using member frame rfl⟩
    | none =>
        cases frames : set.queue with
        | nil =>
            rw [frames, List.map_eq_nil_iff] at queue
            exact absurd queue nonempty
        | cons frame rest => exact ⟨frame, rfl, List.mem_cons_self⟩
  rw [← queue, List.mem_map] at listed
  obtain ⟨victim, atVictim, rfl⟩ := listed
  obtain ⟨earlier, later, split⟩ := List.append_of_mem atVictim
  refine ⟨earlier, victim, later, asked, after, split,
    selects_of_search owned distinct split searched choice, ?_⟩
  rw [List.length_append, ← queue, List.length_map] at few
  omega

/-- If the front part of the queue is passed and the next owner answers no, its frame is taken. -/
theorem selects_of_passes {before middle after : State}
    (split : set.victims = earlier ++ victim :: later)
    (passes : Passes ask (earlier.map Prod.snd) before middle)
    (answer : ask victim.2 middle = (false, after)) :
    set.Selects ask before ((earlier ++ [victim]).map Prod.snd) victim (earlier ++ later)
      after := by
  have owners (entry : PhysAddr × FrameOwner) (listed : entry ∈ earlier ++ victim :: later) :
      set.owner? entry.1 = some entry.2 := owner?_of_mem_victims (split ▸ listed)
  have choice : (some victim.1).or set.queue.head? = some victim.1 := Option.some_or
  refine selects_of_search owned distinct split ?_ choice
  have queue := map_fst_victims owned
  rw [split, List.map_append, List.map_cons] at queue
  rw [← queue, List.append_assoc, List.cons_append,
    firstUnaccessed_of_passes (fun entry listed => owners entry (List.mem_append_left _ listed))
      passes [] _,
    firstUnaccessed_of_answer
      (owners victim (List.mem_append_right _ List.mem_cons_self)) answer]
  simp

/-- If a whole round is passed and the first owner answers no when it is asked again, the frame at
the front is taken. -/
theorem selects_of_round {before middle after : State} (split : set.victims = victim :: later)
    (passes : Passes ask (set.victims.map Prod.snd) before middle)
    (answer : ask victim.2 middle = (false, after)) :
    set.Selects ask before (set.victims.map Prod.snd ++ [victim.2]) victim later after := by
  have queue := map_fst_victims owned
  have first : set.queue = victim.1 :: later.map Prod.fst := by
    rw [← queue, split, List.map_cons]
  have owner : set.owner? victim.1 = some victim.2 :=
    owner?_of_mem_victims (split ▸ List.mem_cons_self)
  have searched := firstUnaccessed_of_passes (fun entry => owner?_of_mem_victims) passes []
    set.queue
  rw [queue, List.nil_append] at searched
  have front : set.victims = [] ++ victim :: later := split
  have choice : (some victim.1).or set.queue.head? = some victim.1 := Option.some_or
  refine selects_of_search owned distinct front ?_ choice
  rw [searched, first, firstUnaccessed_of_answer owner answer]

/-- If both rounds are passed, the frame at the front is taken. -/
theorem selects_of_rounds {before middle after : State} (split : set.victims = victim :: later)
    (first : Passes ask (set.victims.map Prod.snd) before middle)
    (second : Passes ask (set.victims.map Prod.snd) middle after) :
    set.Selects ask before (set.victims.map Prod.snd ++ set.victims.map Prod.snd) victim later
      after := by
  have queue := map_fst_victims owned
  have owners (entry : PhysAddr × FrameOwner) : entry ∈ set.victims →
      set.owner? entry.1 = some entry.2 := owner?_of_mem_victims
  have searched := firstUnaccessed_of_passes owners first [] (set.queue ++ [])
  rw [← queue, firstUnaccessed_of_passes owners second, List.append_nil, List.nil_append,
    queue] at searched
  have front : set.victims = [] ++ victim :: later := split
  have choice : (none : Option PhysAddr).or set.queue.head? = some victim.1 := by
    rw [← queue, split]
    rfl
  exact selects_of_search owned distinct front searched choice

/-- The clock goes round the queue and takes the first frame whose owner answers that its page was
not accessed. After two rounds it takes the frame at the front.

With a queue of frames that have owners of their own, there is no victim exactly if the queue is
empty, and at most two questions for each frame are asked, whatever the owners answer. If the
answers are marks that every question clears, the victim is the first frame whose owner is not
marked: asked are the owners up to this one, and those before it lose their marks. If all are
marked, all are asked and lose their marks, then the first one is asked again, and its frame is the
victim. If the answer is always yes and nothing is cleared, all are asked twice. -/
theorem clock_selects :
    (set.victims = [] → ∀ {State : Type} (ask : Question State) (state : State),
      set.selectVictim ask state = .ok (none, set, state)) ∧
    (set.victims ≠ [] → ∀ {State : Type} (ask : Question State) (state : State),
      ∃ earlier victim later asked after, set.victims = earlier ++ victim :: later ∧
        set.Selects ask state asked victim (earlier ++ later) after ∧
        asked.length ≤ 2 * set.victims.length) ∧
    (∀ (marks : Marks) earlier victim later, set.victims = earlier ++ victim :: later →
      (∀ entry ∈ earlier, marks entry.2 = true) → marks victim.2 = false →
      set.Selects Marks.testAndClear marks ((earlier ++ [victim]).map Prod.snd) victim
        (earlier ++ later) (marks.without (earlier.map Prod.snd))) ∧
    (∀ (marks : Marks) victim later, set.victims = victim :: later →
      (∀ entry ∈ set.victims, marks entry.2 = true) →
      set.Selects Marks.testAndClear marks (set.victims.map Prod.snd ++ [victim.2]) victim later
        (marks.without (set.victims.map Prod.snd))) ∧
    (∀ {State : Type} (ask : Question State) (state : State) victim later,
      set.victims = victim :: later → (∀ owner, ask owner state = (true, state)) →
      set.Selects ask state (set.victims.map Prod.snd ++ set.victims.map Prod.snd) victim later
        state) := by
  refine ⟨fun empty _ => selectVictim_of_empty owned empty, fun nonempty _ =>
    exists_selects owned distinct nonempty, fun marks earlier victim later split marked unmarked =>
      ?_, fun marks victim later split marked => ?_, fun ask state victim later split always => ?_⟩
  · have distinctEarlier : (earlier.map Prod.snd).Nodup := by
      rw [split, List.map_append] at distinct
      exact (List.nodup_append.1 distinct).1
    refine selects_of_passes owned distinct split
      (passes_testAndClear distinctEarlier (List.forall_mem_map.2 marked))
      (Marks.testAndClear_of_unmarked ?_)
    rw [Marks.without, unmarked, Bool.false_and]
  · refine selects_of_round owned distinct split
      (passes_testAndClear distinct (List.forall_mem_map.2 marked))
      (Marks.testAndClear_of_unmarked ?_)
    simp [Marks.without, split]
  · exact selects_of_rounds owned distinct split (passes_of_always always _)
      (passes_of_always always _)

end Choice

/-- A page of the first process. -/
def firstOwner : FrameOwner := ⟨⟨1⟩, ⟨0x5000, by decide⟩⟩

/-- The page at the same address in the second process. -/
def twinOwner : FrameOwner := ⟨⟨2⟩, ⟨0x5000, by decide⟩⟩

/-- Another page of the first process. -/
def lastOwner : FrameOwner := ⟨⟨1⟩, ⟨0x6000, by decide⟩⟩

/-- A pool of as many frames as there are owners, each occupied by one of them in turn. -/
def occupiedBy (owners : List FrameOwner) : ResidentSet :=
  owners.foldl (fun set owner =>
    match set.acquire with
    | none => set
    | some (frame, taken) => (taken.link frame owner).toOption.getD set)
    (create (FramePool.create owners.length))

/-- Two pages of three were accessed, and the one between them is chosen. Only the page in front of
it loses its mark. -/
theorem clock_selects_twin :
    let set := occupiedBy [firstOwner, twinOwner, lastOwner]
    let marks : Marks := fun owner => decide (owner ≠ twinOwner)
    ∃ first second third, set.victims = [(first, firstOwner), (second, twinOwner),
        (third, lastOwner)] ∧
      set.Selects Marks.testAndClear marks [firstOwner, twinOwner] (second, twinOwner)
        [(first, firstOwner), (third, lastOwner)] (marks.without [firstOwner]) := by
  intro set marks
  have owned : ∀ frame ∈ set.queue, (set.owner? frame).isSome = true := by decide +kernel
  have victims : set.victims = [(⟨0x200000, by decide⟩, firstOwner),
      (⟨0x201000, by decide⟩, twinOwner), (⟨0x202000, by decide⟩, lastOwner)] := by decide +kernel
  have distinct : (set.victims.map Prod.snd).Nodup := by
    rw [victims]
    decide
  obtain ⟨-, -, first, -⟩ := clock_selects owned distinct
  exact ⟨_, _, _, victims, first marks [_] _ [_] victims (by decide) (by decide)⟩

end ResidentSet

end DemandPaging
