import DemandPaging.SlotMap
import DemandPaging.Proofs.Requests
import Mathlib.Data.Finset.Max
import Mathlib.Data.Finset.Range

/-!
The slots of the swap area as a set of numbers.

Owns:
- that `SlotMap.takenSlots` lists the slots that are taken, and each of them is counted;
- `SlotSet`, a set of numbers below a bound, and how it answers the requests that a map of slots
  answers;
- `SlotMap.toSet`, the set for which a map of slots stands.

Does not own: what the slots hold (`SwapArea.image`).

Main statement: `SlotMap.serves_as_set`.
-/

namespace DemandPaging

/-! ## The slots that are taken -/

theorem SlotWord.onesCount_eq_countP (word : SlotWord) :
    word.onesCount = (List.range slotsPerWord).countP word.getLsbD := by
  have counted (count : Nat) :
      word.cpopNatRec count 0 = (List.range count).countP word.getLsbD := by
    induction count with
    | zero => rfl
    | succ count inductionHypothesis =>
        rw [BitVec.cpopNatRec_succ, BitVec.cpopNatRec_add, inductionHypothesis, List.range_succ,
          List.countP_append, List.countP_singleton]
        cases word.getLsbD count <;> rfl
  rw [onesCount, BitVec.toNat_cpop, counted]

/-- The bits that are set in a row are those of its first word and those of the others. -/
theorem SlotWord.countP_isSet (words : List SlotWord) :
    (List.range (words.length * slotsPerWord)).countP (isSet words) =
      words.foldr (fun word count => word.onesCount + count) 0 := by
  induction words with
  | nil => rfl
  | cons word rest inductionHypothesis =>
      have first : (List.range slotsPerWord).countP (isSet (word :: rest)) = word.onesCount := by
        rw [onesCount_eq_countP]
        refine List.countP_congr fun slot listed => ?_
        have inWord := List.mem_range.1 listed
        rw [isSet, Nat.div_eq_of_lt inWord, Nat.mod_eq_of_lt inWord]
        rfl
      have later : isSet (word :: rest) ∘ (slotsPerWord + ·) = isSet rest := by
        funext slot
        simp [isSet, Nat.add_div_left]
      rw [List.length_cons, Nat.succ_mul, Nat.add_comm, List.range_add, List.countP_append,
        List.countP_map, first, later, inductionHypothesis, List.foldr_cons]

namespace SlotMap

variable {slots : SlotMap} {slot : Nat}

theorem nodup_takenSlots (slots : SlotMap) : slots.takenSlots.Nodup :=
  List.nodup_range.filter _

theorem mem_takenSlots : slot ∈ slots.takenSlots ↔ slots.isTaken slot = true := by
  rw [takenSlots, List.mem_filter, List.mem_range]
  constructor
  · exact And.right
  · intro taken
    refine ⟨?_, taken⟩
    by_contra outside
    have beyond : slots.words.length ≤ slot / slotsPerWord := by
      simp only [slotsPerWord] at *
      omega
    rw [isTaken, SlotWord.isSet, List.getD_eq_getElem?_getD, List.getElem?_eq_none beyond] at taken
    simp at taken

theorem length_takenSlots (slots : SlotMap) : slots.takenSlots.length = slots.takenCount := by
  rw [takenSlots, ← List.countP_eq_length_filter]
  exact SlotWord.countP_isSet slots.words

end SlotMap

/-! ## Requests -/

/-- What may be asked of a map of slots. -/
inductive SlotRequest where
  | allocate
  | release (slot : Nat)
  | isTaken (slot : Nat)

inductive SlotReply where
  /-- The slot that was taken, if one was. -/
  | slot (slot? : Option Nat)
  /-- Whether the slot was taken. -/
  | flag (taken : Bool)
deriving DecidableEq, Repr

def SlotMap.answer (slots : SlotMap) : SlotRequest → SlotReply × SlotMap
  | .allocate =>
    match slots.allocate with
    | some (slot, rest) => (.slot (some slot), rest)
    | none => (.slot none, slots)
  | .release slot =>
    let (wasTaken, rest) := slots.release slot
    (.flag wasTaken, rest)
  | .isTaken slot => (.flag (slots.isTaken slot), slots)

/-- A set of numbers below a bound. -/
@[ext]
structure SlotSet where
  count : Nat
  taken : Finset Nat

namespace SlotSet

/-- The numbers below the bound that are not in the set. -/
def free (set : SlotSet) : Finset Nat := Finset.range set.count \ set.taken

/-- The least number below the bound that is not in the set is added, if there is one. A number that
is given up leaves the set. -/
def answer (set : SlotSet) : SlotRequest → SlotReply × SlotSet
  | .allocate =>
    if nonempty : set.free.Nonempty then
      let least := set.free.min' nonempty
      (.slot (some least), { set with taken := insert least set.taken })
    else
      (.slot none, set)
  | .release slot =>
    (.flag (decide (slot ∈ set.taken)), { set with taken := set.taken.erase slot })
  | .isTaken slot => (.flag (decide (slot ∈ set.taken)), set)

theorem count_answer (set : SlotSet) (request : SlotRequest) :
    (set.answer request).2.count = set.count := by
  cases request with
  | allocate =>
      unfold answer
      dsimp only
      split <;> rfl
  | release _ | isTaken _ => rfl

end SlotSet

namespace SlotMap

variable {slots : SlotMap} {slot : Nat}

/-- The set for which a map of slots stands. -/
def toSet (slots : SlotMap) : SlotSet := ⟨slots.size, slots.takenSlots.toFinset⟩

theorem mem_taken_toSet : slot ∈ slots.toSet.taken ↔ slots.isTaken slot = true := by
  rw [toSet, List.mem_toFinset, mem_takenSlots]

theorem mem_free_toSet :
    slot ∈ slots.toSet.free ↔ slot < slots.size ∧ slots.isTaken slot = false := by
  rw [SlotSet.free, Finset.mem_sdiff, Finset.mem_range, mem_taken_toSet, Bool.not_eq_true]
  rfl

theorem toSet_create (count : Nat) : (create count).toSet = ⟨count, ∅⟩ := by
  ext slot
  · rfl
  · simp [mem_taken_toSet]

theorem toSet_mark_true (inside : slot < slots.size) :
    (slots.mark slot true).toSet =
      { slots.toSet with taken := insert slot slots.toSet.taken } := by
  ext other
  · exact size_mark slots slot true
  · rw [mem_taken_toSet, isTaken_mark, Finset.mem_insert, mem_taken_toSet]
    by_cases same : slot = other
    · simp [same, same ▸ inside]
    · simp [same, Ne.symm same]

theorem toSet_mark_false (inside : slot < slots.size) :
    (slots.mark slot false).toSet =
      { slots.toSet with taken := slots.toSet.taken.erase slot } := by
  ext other
  · exact size_mark slots slot false
  · rw [mem_taken_toSet, isTaken_mark, Finset.mem_erase, mem_taken_toSet]
    by_cases same : slot = other
    · simp [same, same ▸ inside]
    · simp [same, Ne.symm same]

/-- The lowest free slot is the least number that is not in the set. -/
theorem lowestFree?_eq_min' (nonempty : slots.toSet.free.Nonempty) :
    slots.lowestFree? = some (slots.toSet.free.min' nonempty) := by
  obtain ⟨inside, free⟩ := mem_free_toSet.1 (Finset.min'_mem _ nonempty)
  refine lowestFree?_eq_some_iff.2 ⟨inside, free, fun lower less => ?_⟩
  by_contra notTaken
  have lowerFree : lower ∈ slots.toSet.free :=
    mem_free_toSet.2 ⟨Nat.lt_trans less inside, by simpa using notTaken⟩
  exact absurd (Finset.min'_le _ lower lowerFree) (Nat.not_le.2 less)

theorem lowestFree?_eq_none (full : ¬slots.toSet.free.Nonempty) : slots.lowestFree? = none := by
  rw [Option.eq_none_iff_forall_ne_some]
  intro slot lowest
  obtain ⟨inside, free, -⟩ := lowestFree?_eq_some_iff.1 lowest
  exact full ⟨slot, mem_free_toSet.2 ⟨inside, free⟩⟩

theorem isTaken_eq_decide (slots : SlotMap) (slot : Nat) :
    slots.isTaken slot = decide (slot ∈ slots.toSet.taken) := by
  simp [mem_taken_toSet]

/-- A map of slots answers a request as its set does, and stands for the same set afterwards. -/
theorem answer_toSet (slots : SlotMap) (request : SlotRequest) :
    (slots.answer request).1 = (slots.toSet.answer request).1 ∧
      (slots.answer request).2.toSet = (slots.toSet.answer request).2 := by
  cases request with
  | allocate =>
      by_cases nonempty : slots.toSet.free.Nonempty
      · have inside := (mem_free_toSet.1 (Finset.min'_mem _ nonempty)).1
        simp only [answer, allocate, SlotSet.answer, lowestFree?_eq_min' nonempty, nonempty,
          Option.map_some, ↓reduceDIte]
        exact ⟨trivial, toSet_mark_true inside⟩
      · simp only [answer, allocate, SlotSet.answer, lowestFree?_eq_none nonempty, nonempty,
          Option.map_none, ↓reduceDIte]
        exact ⟨trivial, trivial⟩
  | release slot =>
      simp only [answer, release, SlotSet.answer, ← isTaken_eq_decide]
      cases taken : slots.isTaken slot with
      | true => exact ⟨rfl, toSet_mark_false (lt_size_of_isTaken taken)⟩
      | false =>
          have absent : slot ∉ slots.toSet.taken := by simp [mem_taken_toSet, taken]
          refine ⟨rfl, ?_⟩
          rw [Finset.erase_eq_of_notMem absent]
          rfl
  | isTaken slot => exact ⟨congrArg SlotReply.flag (slots.isTaken_eq_decide slot), rfl⟩

/-- However often slots are taken, given up and looked up, by whatever numbers, a map of slots
answers as a set of numbers below their count does, which is empty at first: the slot that is taken
is the least number that is not in the set, and none is if there is no such number; the slots that
are taken are those in the set, and they are counted. -/
theorem serves_as_set (count : Nat) (requests : List SlotRequest) :
    let served := serve answer (create count) requests
    let expected := serve SlotSet.answer ⟨count, ∅⟩ requests
    served.1 = expected.1 ∧
      (∀ slot, served.2.isTaken slot = decide (slot ∈ expected.2.taken)) ∧
      served.2.takenCount = expected.2.taken.card ∧
      ∀ slot ∈ expected.2.taken, slot < count := by
  intro served expected
  obtain ⟨sameReplies, stands, sameCount⟩ := serve_alike
    (fun (slots : SlotMap) (set : SlotSet) => slots.toSet = set ∧ set.count = count)
    (fun slots set alike request => by
      obtain ⟨rfl, sameCount⟩ := alike
      obtain ⟨sameReply, stands⟩ := slots.answer_toSet request
      exact ⟨sameReply, stands, (SlotSet.count_answer _ request).trans sameCount⟩)
    ⟨toSet_create count, rfl⟩ requests
  rw [← stands] at sameCount ⊢
  refine ⟨sameReplies, isTaken_eq_decide _, ?_, fun slot member => ?_⟩
  · rw [← length_takenSlots, toSet, List.toFinset_card_of_nodup (nodup_takenSlots _)]
  · rw [← sameCount]
    exact lt_size_of_isTaken (mem_taken_toSet.1 member)

end SlotMap

end DemandPaging
