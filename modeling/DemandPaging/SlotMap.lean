/-!
Which slots of the swap area are taken.

Owns:
- words of sixty-four slots, one bit each, and rows of such words;
- a fixed number of slots, each free or taken; taking the lowest free one, freeing one by its
  number, and counting.

Does not own: what a slot holds (`SwapArea`).

Slots are taken from the lowest on, so the row ends with the last word in which a slot was ever
taken; however many slots there are after it, they are free. The last word may reach beyond the last
slot. The bits in excess are never set, and the search for a free slot, which goes by whole words,
may end at one of them.

Main statements: `isTaken_mark`, marking changes one slot, and `lowestFree?_eq_some_iff`, the slot
that is taken next is the least one that is free.
-/

namespace DemandPaging

/-- The number of slots in a word. -/
abbrev slotsPerWord : Nat := 64

/-- Sixty-four slots, one bit each. The bit of a slot is set while the slot is taken. -/
abbrev SlotWord : Type := BitVec slotsPerWord

namespace SlotWord

/-- The word whose slots are all taken. -/
def full : SlotWord := BitVec.allOnes slotsPerWord

/-- The word with one bit set or cleared. -/
def mark (word : SlotWord) (index : Nat) (taken : Bool) : SlotWord :=
  if taken then word ||| BitVec.twoPow slotsPerWord index
  else word &&& ~~~BitVec.twoPow slotsPerWord index

/-- The number of bits that are set before the lowest one that is not. -/
def trailingOnes (word : SlotWord) : Nat := (~~~word).ctz.toNat

/-- The number of bits that are set. -/
def onesCount (word : SlotWord) : Nat := word.cpop.toNat

variable {word : SlotWord} {index other : Nat}

theorem getLsbD_mark (inside : index < slotsPerWord) (taken : Bool) :
    (word.mark index taken).getLsbD other =
      if index = other then taken else word.getLsbD other := by
  unfold mark
  by_cases same : index = other
  · subst same
    cases taken <;> simp [inside]
  · cases taken with
    | false =>
        have bounded : word.getLsbD other = true → other < slotsPerWord := BitVec.lt_of_getLsbD
        simpa [same] using bounded
    | true => simp [same]

theorem trailingOnes_full : full.trailingOnes = slotsPerWord := by
  decide +kernel

theorem trailingOnes_lt_iff : word.trailingOnes < slotsPerWord ↔ word ≠ full := by
  have clear_iff : ~~~word = 0 ↔ word = full := by
    constructor
    · intro clear
      rw [← BitVec.not_not (b := word), clear]
      rfl
    · rintro rfl
      rfl
  rw [Ne, ← clear_iff]
  exact BitVec.lt_def.symm.trans BitVec.ctz_lt_iff_ne_zero

/-- The bit after the trailing ones is not set, if there is one. -/
theorem getLsbD_trailingOnes (word : SlotWord) : word.getLsbD word.trailingOnes = false := by
  by_cases inside : word.trailingOnes < slotsPerWord
  · have nonzero : ~~~word ≠ (0 : SlotWord) := BitVec.ctz_lt_iff_ne_zero.1 (BitVec.lt_def.2 inside)
    have set : (~~~word).getLsbD word.trailingOnes = true :=
      BitVec.getLsbD_true_ctz_of_ne_zero nonzero
    simpa [inside] using set
  · exact BitVec.getLsbD_of_ge _ _ (Nat.le_of_not_lt inside)

theorem getLsbD_of_lt_trailingOnes (lower : index < word.trailingOnes) :
    word.getLsbD index = true := by
  have inside : index < slotsPerWord := by
    by_cases isFull : word = full
    · rw [isFull, trailingOnes_full] at lower
      exact lower
    · exact Nat.lt_trans lower (trailingOnes_lt_iff.2 isFull)
  have clear : (~~~word).getLsbD index = false := BitVec.getLsbD_false_of_lt_ctz lower
  simpa [inside] using clear

/-! ## Rows of words -/

/-- Whether the bit of a slot is set in a row of words. No bit is set beyond the end of the row. -/
@[irreducible]
def isSet (words : List SlotWord) (slot : Nat) : Bool :=
  (words.getD (slot / slotsPerWord) 0).getLsbD (slot % slotsPerWord)

/-- A row of words with the bit of a slot set or cleared. The row is continued as far as needed. -/
@[irreducible]
def put (words : List SlotWord) (slot : Nat) (taken : Bool) : List SlotWord :=
  (words ++ List.replicate (slot / slotsPerWord + 1 - words.length) 0).modify
    (slot / slotsPerWord) fun word => word.mark (slot % slotsPerWord) taken

/-- A row may be continued with words that have no bit set. -/
private theorem getD_append_zero (words : List SlotWord) (count position : Nat) :
    (words ++ List.replicate count 0).getD position 0 = words.getD position 0 := by
  simp only [List.getD_eq_getElem?_getD]
  by_cases inside : position < words.length
  · rw [List.getElem?_append_left inside]
  · rw [List.getElem?_append_right (Nat.le_of_not_lt inside),
      List.getElem?_eq_none (Nat.le_of_not_lt inside), List.getElem?_replicate]
    split <;> rfl

theorem isSet_nil (slot : Nat) : isSet [] slot = false := by
  simp [isSet]

theorem isSet_put (words : List SlotWord) (slot other : Nat) (taken : Bool) :
    isSet (put words slot taken) other = if slot = other then taken else isSet words other := by
  let long := words ++ List.replicate (slot / slotsPerWord + 1 - words.length) 0
  have inLong : slot / slotsPerWord < long.length := by
    simp only [long, List.length_append, List.length_replicate]
    omega
  have same : slot = other ↔
      slot / slotsPerWord = other / slotsPerWord ∧ slot % slotsPerWord = other % slotsPerWord := by
    simp only [slotsPerWord]
    omega
  have changed : (put words slot taken).getD (other / slotsPerWord) 0 =
      if slot / slotsPerWord = other / slotsPerWord then
        (long.getD (other / slotsPerWord) 0).mark (slot % slotsPerWord) taken
      else long.getD (other / slotsPerWord) 0 := by
    rw [put, List.getD_eq_getElem?_getD, List.getElem?_modify, List.getD_eq_getElem?_getD]
    split
    case isTrue here => rw [← here, List.getElem?_eq_getElem inLong]; rfl
    case isFalse => simp [long]
  have inWord : slot % slotsPerWord < slotsPerWord := Nat.mod_lt _ (by decide)
  rw [isSet, changed]
  by_cases here : slot / slotsPerWord = other / slotsPerWord
  · rw [if_pos here, getLsbD_mark inWord]
    simp only [same, here, true_and]
    rw [getD_append_zero, isSet]
  · rw [if_neg here, getD_append_zero, isSet, if_neg fun equal => here (same.1 equal).1]

/-- The lowest bit of a row that is not set. It is in the first word that is not full. -/
@[irreducible]
def lowestClear (words : List SlotWord) : Nat :=
  let position := words.findIdx fun word => word != full
  position * slotsPerWord + (words.getD position 0).trailingOnes

/-- The word in which the search ends has a bit that is not set: it is the first that is not full,
or one beyond the end of the row. -/
private theorem trailingOnes_findIdx_lt (words : List SlotWord) :
    (words.getD (words.findIdx fun word => word != full) 0).trailingOnes < slotsPerWord := by
  rw [trailingOnes_lt_iff, List.getD_eq_getElem?_getD]
  by_cases inside : words.findIdx (fun word => word != full) < words.length
  · rw [List.getElem?_eq_getElem inside, Option.getD_some]
    simpa using List.findIdx_getElem (w := inside)
  · rw [List.getElem?_eq_none (Nat.le_of_not_lt inside), Option.getD_none]
    decide

theorem isSet_lowestClear (words : List SlotWord) : isSet words (lowestClear words) = false := by
  have inWord := trailingOnes_findIdx_lt words
  simp only [isSet, lowestClear]
  rw [Nat.mul_comm, Nat.mul_add_div (by decide), Nat.mul_add_mod, Nat.mod_eq_of_lt inWord,
    Nat.div_eq_of_lt inWord, Nat.add_zero]
  exact getLsbD_trailingOnes _

theorem isSet_of_lt_lowestClear {words : List SlotWord} {slot : Nat}
    (lower : slot < lowestClear words) : isSet words slot = true := by
  have inWord := trailingOnes_findIdx_lt words
  simp only [lowestClear] at lower
  rw [isSet]
  rcases Nat.lt_trichotomy (slot / slotsPerWord) (words.findIdx fun word => word != full) with
    earlier | here | later
  · have inside : slot / slotsPerWord < words.length :=
      Nat.lt_of_lt_of_le earlier List.findIdx_le_length
    have isFull : words[slot / slotsPerWord] = full := by
      simpa using List.not_of_lt_findIdx earlier
    rw [List.getD_eq_getElem?_getD, List.getElem?_eq_getElem inside, Option.getD_some, isFull]
    refine getLsbD_of_lt_trailingOnes ?_
    rw [trailingOnes_full]
    exact Nat.mod_lt _ (by decide)
  · rw [here]
    refine getLsbD_of_lt_trailingOnes ?_
    simp only [slotsPerWord] at *
    omega
  · simp only [slotsPerWord] at *
    omega

end SlotWord

/-- A fixed number of slots, each free or taken. -/
structure SlotMap where
  size : Nat
  /-- The bits of the slots, up to the last word in which a slot was ever taken. -/
  words : List SlotWord
  /-- Only slots that exist are taken. -/
  lt_size_of_isSet : ∀ slot, SlotWord.isSet words slot = true → slot < size
deriving DecidableEq, Repr

namespace SlotMap

def create (count : Nat) : SlotMap where
  size := count
  words := []
  lt_size_of_isSet slot set := by simp [SlotWord.isSet_nil] at set

instance : Inhabited SlotMap := ⟨create 0⟩

/-- Whether there is no slot at all. -/
def isEmpty (slots : SlotMap) : Bool := slots.size == 0

/-- Whether the slot with a number is taken. There is no slot at or beyond the end. -/
def isTaken (slots : SlotMap) (slot : Nat) : Bool := SlotWord.isSet slots.words slot

/-- The slots with one of them marked as free or taken. -/
def mark (slots : SlotMap) (slot : Nat) (taken : Bool) : SlotMap :=
  if inside : slot < slots.size then
    { size := slots.size
      words := SlotWord.put slots.words slot taken
      lt_size_of_isSet := fun other set => by
        rw [SlotWord.isSet_put] at set
        split at set
        case isTrue same => exact same ▸ inside
        case isFalse => exact slots.lt_size_of_isSet other set }
  else
    slots

/-- The number of the lowest free slot. -/
def lowestFree? (slots : SlotMap) : Option Nat :=
  let slot := SlotWord.lowestClear slots.words
  if slot < slots.size then some slot else none

/-- Take the lowest free slot. -/
def allocate (slots : SlotMap) : Option (Nat × SlotMap) :=
  slots.lowestFree?.map fun slot => (slot, slots.mark slot true)

/-- Free a slot, and answer whether it was taken. A free slot and one that does not exist are left
alone. -/
def release (slots : SlotMap) (slot : Nat) : Bool × SlotMap :=
  if slots.isTaken slot then (true, slots.mark slot false) else (false, slots)

/-- The number of slots that are taken. -/
def takenCount (slots : SlotMap) : Nat :=
  slots.words.foldr (fun word count => word.onesCount + count) 0

def takenSlots (slots : SlotMap) : List Nat :=
  (List.range (slots.words.length * slotsPerWord)).filter slots.isTaken

@[simp]
theorem isTaken_create (count slot : Nat) : (create count).isTaken slot = false :=
  SlotWord.isSet_nil slot

@[simp]
theorem size_mark (slots : SlotMap) (slot : Nat) (taken : Bool) :
    (slots.mark slot taken).size = slots.size := by
  unfold mark; split <;> rfl

/-- Marking a slot changes whether that one is taken, if it exists, and no other. -/
theorem isTaken_mark (slots : SlotMap) (slot other : Nat) (taken : Bool) :
    (slots.mark slot taken).isTaken other =
      if slot = other ∧ slot < slots.size then taken else slots.isTaken other := by
  unfold mark
  split
  case isFalse outside => simp [outside]
  case isTrue inside =>
    simp only [isTaken, inside, and_true]
    exact SlotWord.isSet_put slots.words slot other taken

/-- The slots that exist are those that can be taken. -/
theorem lt_size_of_isTaken {slots : SlotMap} {slot : Nat} (taken : slots.isTaken slot = true) :
    slot < slots.size :=
  slots.lt_size_of_isSet slot taken

/-- The slot that is taken next is the least one that is free. -/
theorem lowestFree?_eq_some_iff {slots : SlotMap} {slot : Nat} :
    slots.lowestFree? = some slot ↔
      slot < slots.size ∧ slots.isTaken slot = false ∧
        ∀ lower < slot, slots.isTaken lower = true := by
  have free : slots.isTaken (SlotWord.lowestClear slots.words) = false :=
    SlotWord.isSet_lowestClear slots.words
  have below : ∀ lower < SlotWord.lowestClear slots.words, slots.isTaken lower = true :=
    fun _ => SlotWord.isSet_of_lt_lowestClear
  simp only [lowestFree?]
  constructor
  · intro found
    split at found
    · cases found; exact ⟨‹_›, free, below⟩
    · cases found
  · rintro ⟨inside, slotFree, lowerTaken⟩
    have same : SlotWord.lowestClear slots.words = slot := by
      rcases Nat.lt_trichotomy (SlotWord.lowestClear slots.words) slot with less | same | more
      · rw [lowerTaken _ less] at free; cases free
      · exact same
      · rw [below _ more] at slotFree; cases slotFree
    rw [same, if_pos inside]

end SlotMap

end DemandPaging
