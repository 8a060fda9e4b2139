import DemandPaging.ResidentSet
import Mathlib.Logic.Relation

/-!
The choice of a victim.

Owns:
- `ResidentSet.Asked`, any number of questions to owners;
- what the search for a frame whose page was not accessed finds, whatever the owners answer.

Main statement: `exists_selectVictim_eq_ok`, a queue of owned frames yields one of them, and an
empty queue yields none.
-/

namespace DemandPaging

namespace ResidentSet

variable {State : Type} {ask : Question State} {owner? : PhysAddr → Option FrameOwner}

/-- Owners were asked, any number of times. -/
def Asked (ask : Question State) : State → State → Prop :=
  Relation.ReflTransGen fun before after => ∃ owner, after = (ask owner before).2

/-- The search asks owners in turn, and finds one of the frames it was given or none. -/
theorem exists_firstUnaccessed_eq_ok {frames : List PhysAddr}
    (owned : ∀ frame ∈ frames, (owner? frame).isSome = true) (state : State) :
    ∃ found after, firstUnaccessed owner? ask frames state = .ok (found, after) ∧
      Asked ask state after ∧ ∀ frame, found = some frame → frame ∈ frames := by
  induction frames generalizing state with
  | nil => exact ⟨none, state, rfl, .refl, nofun⟩
  | cons frame rest inductionHypothesis =>
      obtain ⟨owner, owns⟩ := Option.isSome_iff_exists.1 (owned frame List.mem_cons_self)
      simp only [firstUnaccessed, owns]
      cases answer : ask owner state with
      | mk accessed after =>
          have asked : Asked ask state after :=
            Relation.ReflTransGen.single ⟨owner, by rw [answer]⟩
          cases accessed with
          | false =>
              refine ⟨some frame, after, rfl, asked, ?_⟩
              intro found same
              cases same
              exact List.mem_cons_self
          | true =>
              obtain ⟨found, last, searched, askedMore, member⟩ := inductionHypothesis
                (fun other listed => owned other (List.mem_cons_of_mem _ listed)) after
              exact ⟨found, last, searched, asked.trans askedMore,
                fun other same => List.mem_cons_of_mem _ (member other same)⟩

/-- A search that finds nothing goes on with the frames that follow. -/
theorem firstUnaccessed_append {frames : List PhysAddr} {state after : State}
    {found : Option PhysAddr}
    (searched : firstUnaccessed owner? ask frames state = .ok (found, after))
    (others : List PhysAddr) :
    firstUnaccessed owner? ask (frames ++ others) state =
      found.elim (firstUnaccessed owner? ask others after)
        fun frame => .ok (some frame, after) := by
  induction frames generalizing state with
  | nil =>
      cases searched
      rfl
  | cons frame rest inductionHypothesis =>
      simp only [List.cons_append, firstUnaccessed] at searched ⊢
      cases owns : owner? frame with
      | none =>
          rw [owns] at searched
          cases searched
      | some owner =>
          rw [owns] at searched
          dsimp only at searched ⊢
          cases answer : ask owner state with
          | mk accessed next =>
              rw [answer] at searched
              cases accessed with
              | false =>
                  cases searched
                  rfl
              | true => exact inductionHypothesis searched

/-- If every queued frame is owned, the clock chooses one of them, unless there is none. -/
theorem exists_selectVictim_eq_ok {set : ResidentSet} (ask : Question State)
    (owned : ∀ frame ∈ set.queue, (set.owner? frame).isSome = true) (state : State) :
    ∃ after, Asked ask state after ∧
      (set.queue = [] ∧ set.selectVictim ask state = .ok (none, set, after) ∨
        ∃ frame owner, frame ∈ set.queue ∧ set.owner? frame = some owner ∧
          set.selectVictim ask state =
            .ok (some (frame, owner), { set with queue := set.queue.erase frame }, after)) := by
  have ownedTwice : ∀ frame ∈ set.queue ++ set.queue, (set.owner? frame).isSome = true := by
    intro frame listed
    rw [List.mem_append, or_self] at listed
    exact owned frame listed
  obtain ⟨found, after, searched, asked, member⟩ :=
    exists_firstUnaccessed_eq_ok ownedTwice state
  refine ⟨after, asked, ?_⟩
  cases chosen : found.or set.queue.head? with
  | none =>
      have empty : set.queue = [] := by
        rw [Option.or_eq_none_iff, List.head?_eq_none_iff] at chosen
        exact chosen.2
      refine .inl ⟨empty, ?_⟩
      simp [selectVictim, searched, chosen, bind, Except.bind]
  | some frame =>
      have listed : frame ∈ set.queue := by
        rw [Option.or_eq_some_iff] at chosen
        rcases chosen with atFound | ⟨-, atHead⟩
        · simpa using member frame atFound
        · exact List.mem_of_head? atHead
      obtain ⟨owner, owns⟩ := Option.isSome_iff_exists.1 (owned frame listed)
      refine .inr ⟨frame, owner, listed, owns, ?_⟩
      simp [selectVictim, searched, chosen, owns, bind, Except.bind]

end ResidentSet

end DemandPaging
