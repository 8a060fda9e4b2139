import DemandPaging.FramePool
import Mathlib.Data.List.Basic
import Mathlib.Data.List.Nodup

/-!
The pool of frames as a table from addresses to frames.

Owns:
- `FramePool.frame?`, the frame at an address, and what every operation does to it;
- `FramePool.Sound`, the free list holds each frame that is not on loan exactly once.

Main statements: loaning, taking back and writing keep a pool sound and change one frame, and a
frame that is taken back is the one that is loaned next.
-/

namespace DemandPaging

namespace FramePool

def frame? (pool : FramePool) (address : PhysAddr) : Option PoolFrame :=
  (pool.indexOf? address).bind fun index => pool.frames[index.val]?

def isLoaned (pool : FramePool) (address : PhysAddr) : Bool :=
  (pool.frame? address).any PoolFrame.onLoan

/-- The free list holds exactly the frames that are not on loan, each once. -/
structure Sound (pool : FramePool) : Prop where
  nodup_free : pool.free.Nodup
  mem_free_iff : ∀ index, index ∈ pool.free ↔
    ∃ inPool : index < pool.frames.size, pool.frames[index].onLoan = false

/-! ## Looking up frames -/

theorem frame?_eq (pool : FramePool) (address : PhysAddr) :
    pool.frame? address =
      if base ≤ address.toNat ∧ address.offset = 0 then
        pool.frames[(address.toNat - base) / pageSize]?
      else none := by
  unfold frame? indexOf?
  split
  · split
    · simp_all
    · simp_all
  · rfl

@[simp]
theorem frame?_addressOf (pool : FramePool) (index : Fin pool.frames.size) :
    pool.frame? (pool.addressOf index) = pool.frames[index.val]? := by
  rw [frame?, indexOf?_addressOf, Option.bind_some]

theorem frame?_eq_some_iff {pool : FramePool} {address : PhysAddr} {frame : PoolFrame} :
    pool.frame? address = some frame ↔
      ∃ index : Fin pool.frames.size, pool.addressOf index = address ∧
        pool.frames[index.val]? = some frame := by
  constructor
  · intro found
    obtain ⟨index, atIndex, isFrame⟩ := Option.bind_eq_some_iff.1 found
    exact ⟨index, addressOf_of_indexOf? atIndex, isFrame⟩
  · rintro ⟨index, rfl, isFrame⟩
    rw [frame?_addressOf, isFrame]

theorem addressOf_injective {pool : FramePool} {left right : Fin pool.frames.size}
    (same : pool.addressOf left = pool.addressOf right) : left = right := by
  have found := pool.indexOf?_addressOf left
  rw [same, indexOf?_addressOf] at found
  exact (Option.some.inj found).symm

theorem offset_of_frame? {pool : FramePool} {address : PhysAddr} {frame : PoolFrame}
    (found : pool.frame? address = some frame) : address.offset = 0 := by
  rw [frame?_eq] at found
  split at found
  case isTrue inside => exact inside.2
  case isFalse => cases found

theorem lt_bound_of_frame? {pool : FramePool} {address : PhysAddr} {frame : PoolFrame}
    (found : pool.frame? address = some frame) : address.toNat < PhysAddr.bound := by
  obtain ⟨index, rfl, -⟩ := frame?_eq_some_iff.1 found
  have addressable := pool.addressable
  have inPool := index.isLt
  rw [toNat_addressOf]
  simp only [base, pageSize, PhysAddr.bound] at *
  omega

theorem frame?_update (pool : FramePool) (index : Fin pool.frames.size) (frame : PoolFrame)
    (address : PhysAddr) :
    (pool.update index frame).frame? address =
      if pool.addressOf index = address then some frame else pool.frame? address := by
  rw [frame?_eq, frame?_eq]
  by_cases same : pool.addressOf index = address
  · subst same
    have whole : (base + index.val * pageSize - base) / pageSize = index.val := by
      simp only [base, pageSize]; omega
    have aligned : (pool.addressOf index).offset = 0 := by
      simp only [Address.offset, toNat_addressOf, base, pageSize]; omega
    rw [if_pos ⟨by rw [toNat_addressOf]; omega, aligned⟩, if_pos rfl, toNat_addressOf, whole]
    simp [update]
  · rw [if_neg same]
    split
    case isFalse => rfl
    case isTrue inside =>
      have elsewhere : index.val ≠ (address.toNat - base) / pageSize := by
        intro equal
        apply same
        apply Address.ext_toNat
        rw [toNat_addressOf]
        simp only [Address.offset, base, pageSize] at *
        omega
      simp [update, elsewhere]

theorem read_eq (pool : FramePool) (address : PhysAddr) :
    pool.read address =
      match pool.frame? address with
      | some frame => .ok frame.contents
      | none => .error (.foreignFrame address) := by
  unfold read frame?
  cases pool.indexOf? address with
  | none => rfl
  | some index => simp

theorem read_eq_ok_iff {pool : FramePool} {address : PhysAddr} {contents : PageData} :
    pool.read address = .ok contents ↔
      ∃ frame, pool.frame? address = some frame ∧ frame.contents = contents := by
  rw [read_eq]
  cases pool.frame? address <;> simp

theorem isLoaned_eq_true_iff {pool : FramePool} {address : PhysAddr} :
    pool.isLoaned address = true ↔
      ∃ frame, pool.frame? address = some frame ∧ frame.onLoan = true := by
  simp [isLoaned, Option.any_eq_true]

theorem isLoaned_of_frame? {pool : FramePool} {address : PhysAddr} {frame : PoolFrame}
    (found : pool.frame? address = some frame) : pool.isLoaned address = frame.onLoan := by
  rw [isLoaned, found, Option.any_some]

theorem isLoaned_addressOf (pool : FramePool) {index : Nat}
    (inPool : index < pool.frames.size) :
    pool.isLoaned (pool.addressOf ⟨index, inPool⟩) = pool.frames[index].onLoan := by
  apply isLoaned_of_frame?
  rw [frame?_addressOf, Array.getElem?_eq_getElem inPool]

/-- Loaning a frame, or taking it back, changes whether that frame is on loan and no other. -/
theorem isLoaned_of_loan {pool rest : FramePool} {address : PhysAddr} {frame : PoolFrame}
    {onLoan : Bool}
    (frames : ∀ other, rest.frame? other =
      if address = other then some { frame with onLoan } else pool.frame? other)
    (other : PhysAddr) :
    rest.isLoaned other = if address = other then onLoan else pool.isLoaned other := by
  rw [isLoaned, frames]
  split <;> rfl

/-! ## Writing -/

theorem write_eq_ok {pool : FramePool} {address : PhysAddr} {frame : PoolFrame}
    (found : pool.frame? address = some frame) (contents : PageData) :
    ∃ written, pool.write address contents = .ok written ∧ written.free = pool.free ∧
      written.frames.size = pool.frames.size ∧
      ∀ other, written.frame? other =
        if address = other then some { frame with contents } else pool.frame? other := by
  obtain ⟨index, rfl, isFrame⟩ := frame?_eq_some_iff.1 found
  obtain ⟨inPool, rfl⟩ := Array.getElem?_eq_some_iff.1 isFrame
  refine ⟨pool.update index { pool.frames[index] with contents }, ?_, rfl, by simp [update], ?_⟩
  · simp [write]
  · exact frame?_update pool index _

theorem of_write {pool written : FramePool} {address : PhysAddr} {contents : PageData}
    (wrote : pool.write address contents = .ok written) :
    ∃ frame, pool.frame? address = some frame ∧ written.free = pool.free ∧
      written.frames.size = pool.frames.size ∧
      ∀ other, written.frame? other =
        if address = other then some { frame with contents } else pool.frame? other := by
  have known : ∃ frame, pool.frame? address = some frame := by
    unfold write at wrote
    unfold frame?
    cases atIndex : pool.indexOf? address with
    | none => simp [atIndex] at wrote
    | some index => exact ⟨_, Array.getElem?_eq_getElem index.isLt⟩
  obtain ⟨frame, found⟩ := known
  obtain ⟨same, wrote', free, size, frames⟩ := write_eq_ok found contents
  rw [wrote] at wrote'
  cases wrote'
  exact ⟨frame, found, free, size, frames⟩

theorem write_eq_error {pool : FramePool} {address : PhysAddr}
    (missing : pool.frame? address = none) (contents : PageData) :
    pool.write address contents = .error (.foreignFrame address) := by
  unfold write
  unfold frame? at missing
  cases atIndex : pool.indexOf? address with
  | none => rfl
  | some index => simp [atIndex] at missing

/-! ## Loaning and taking back -/

theorem acquire_eq_none {pool : FramePool} {index : Nat} {others : List Nat}
    (free : pool.free = index :: others) (beyond : pool.frames.size ≤ index) :
    pool.acquire = none := by
  simp [acquire, free, Nat.not_lt.2 beyond]

/-- The frame that is loaned is the first free one, and only that changes. -/
theorem acquire_eq_some {pool : FramePool} {index : Nat} {others : List Nat}
    (free : pool.free = index :: others) (inPool : index < pool.frames.size) :
    ∃ rest, pool.acquire = some (pool.addressOf ⟨index, inPool⟩, rest) ∧ rest.free = others ∧
      rest.frames.size = pool.frames.size ∧
      ∀ other, rest.frame? other =
        if pool.addressOf ⟨index, inPool⟩ = other then
          some { pool.frames[index] with onLoan := true }
        else pool.frame? other := by
  refine ⟨{ pool.update ⟨index, inPool⟩ { pool.frames[index] with onLoan := true } with
    free := others }, ?_, rfl, by simp [update], frame?_update pool ⟨index, inPool⟩ _⟩
  simp [acquire, free, inPool]

/-- A frame that is taken back is the first free one, and only that changes. -/
theorem release_eq_ok {pool : FramePool} {address : PhysAddr} {frame : PoolFrame}
    (found : pool.frame? address = some frame) (loaned : frame.onLoan = true) :
    ∃ rest, pool.release address = .ok rest ∧
      rest.free = (address.toNat - base) / pageSize :: pool.free ∧
      rest.frames.size = pool.frames.size ∧
      ∀ other, rest.frame? other =
        if address = other then some { frame with onLoan := false } else pool.frame? other := by
  obtain ⟨index, rfl, isFrame⟩ := frame?_eq_some_iff.1 found
  obtain ⟨inPool, rfl⟩ := Array.getElem?_eq_some_iff.1 isFrame
  have loaned' : pool.frames[index.val].onLoan = true := loaned
  have place : ((pool.addressOf index).toNat - base) / pageSize = index.val := by
    rw [toNat_addressOf]
    simp only [base, pageSize]
    omega
  refine ⟨{ pool.update index { pool.frames[index] with onLoan := false } with
    free := index.val :: pool.free }, ?_, by rw [place], by simp [update],
    frame?_update pool index _⟩
  simp [release, loaned']

theorem release_eq_error {pool : FramePool} {address : PhysAddr} {frame : PoolFrame}
    (found : pool.frame? address = some frame) (notLoaned : frame.onLoan = false) :
    pool.release address = .error (.doubleFree address) := by
  obtain ⟨index, rfl, isFrame⟩ := frame?_eq_some_iff.1 found
  obtain ⟨inPool, rfl⟩ := Array.getElem?_eq_some_iff.1 isFrame
  have notLoaned' : pool.frames[index.val].onLoan = false := notLoaned
  simp [release, notLoaned']

theorem release_eq_error_of_missing {pool : FramePool} {address : PhysAddr}
    (missing : pool.frame? address = none) :
    pool.release address = .error (.foreignFrame address) := by
  unfold release
  unfold frame? at missing
  cases atIndex : pool.indexOf? address with
  | none => rfl
  | some index => simp [atIndex] at missing

section Sound

variable {pool : FramePool} (sound : pool.Sound)

theorem sound_create (count : Nat) : (create count).Sound where
  nodup_free := List.nodup_range
  mem_free_iff index := by simp [create]

theorem isLoaned_create (count : Nat) (address : PhysAddr) :
    (create count).isLoaned address = false := by
  unfold isLoaned
  rw [frame?_eq]
  split
  · simp only [create, Array.getElem?_replicate]
    split <;> rfl
  · rfl

include sound in
/-- Writing keeps the flags of every frame, so it keeps a pool sound. -/
theorem Sound.write {written : FramePool} {address : PhysAddr} {contents : PageData}
    (wrote : pool.write address contents = .ok written) : written.Sound := by
  unfold FramePool.write at wrote
  split at wrote
  · cases wrote
  case h_2 position _ =>
    cases wrote
    refine ⟨sound.nodup_free, fun index => ?_⟩
    show index ∈ pool.free ↔ _
    rw [sound.mem_free_iff]
    by_cases same : position.val = index
    · subst same; simp [update]
    · simp [update, Array.getElem_set, same]

include sound in
theorem Sound.acquire_eq_none_iff : pool.acquire = none ↔ pool.free = [] := by
  unfold acquire
  cases free : pool.free with
  | nil => simp
  | cons index rest =>
      obtain ⟨inPool, -⟩ := (sound.mem_free_iff index).1 (by rw [free]; exact List.mem_cons_self)
      simp [inPool]

include sound in
/-- The frame that is loaned is the first free one. -/
theorem Sound.of_acquire {address : PhysAddr} {rest : FramePool}
    (acquired : pool.acquire = some (address, rest)) :
    ∃ (index : Fin pool.frames.size) (others : List Nat) (frame : PoolFrame),
      pool.free = index.val :: others ∧ pool.frames[index.val]? = some frame ∧
      frame.onLoan = false ∧ pool.addressOf index = address ∧
      { pool.update index { frame with onLoan := true } with free := others } = rest := by
  unfold FramePool.acquire at acquired
  cases free : pool.free with
  | nil => simp [free] at acquired
  | cons index others =>
      obtain ⟨inPool, notLoaned⟩ :=
        (sound.mem_free_iff index).1 (by rw [free]; exact List.mem_cons_self)
      simp only [free, inPool, ↓reduceDIte, Option.some.injEq, Prod.mk.injEq] at acquired
      exact ⟨⟨index, inPool⟩, others, pool.frames[index], rfl,
        Array.getElem?_eq_getElem inPool, notLoaned, acquired.1, acquired.2⟩

include sound in
/-- A loaned frame was free, and only that changes. -/
theorem Sound.acquire {address : PhysAddr} {rest : FramePool}
    (acquired : pool.acquire = some (address, rest)) :
    rest.Sound ∧ rest.frames.size = pool.frames.size ∧
      rest.freeCount + 1 = pool.freeCount ∧
      ∃ frame, pool.frame? address = some frame ∧ frame.onLoan = false ∧
        ∀ other, rest.frame? other =
          if address = other then some { frame with onLoan := true } else pool.frame? other := by
  obtain ⟨index, others, frame, free, isFrame, notLoaned, rfl, rfl⟩ := sound.of_acquire acquired
  obtain ⟨inPool, rfl⟩ := Array.getElem?_eq_some_iff.1 isFrame
  have nodup := sound.nodup_free
  rw [free, List.nodup_cons] at nodup
  refine ⟨⟨nodup.2, fun other => ?_⟩, by simp [update], by simp [freeCount, free],
    pool.frames[index], by simp, notLoaned, frame?_update pool index _⟩
  show other ∈ others ↔ _
  have member := sound.mem_free_iff other
  rw [free, List.mem_cons] at member
  by_cases same : index.val = other
  · subst same; simp [update, nodup.1]
  · simp only [update, Array.size_set, Array.getElem_set, same, if_false]
    rw [← member]
    simp [Ne.symm same]

include sound in
/-- A frame on loan can be taken back, only that changes, and it is loaned next. -/
theorem Sound.release {address : PhysAddr} (loaned : pool.isLoaned address = true) :
    ∃ rest frame, pool.release address = .ok rest ∧ rest.Sound ∧
      rest.frames.size = pool.frames.size ∧ rest.freeCount = pool.freeCount + 1 ∧
      rest.acquire = some (address, pool) ∧ pool.frame? address = some frame ∧
      frame.onLoan = true ∧
      ∀ other, rest.frame? other =
        if address = other then some { frame with onLoan := false } else pool.frame? other := by
  obtain ⟨frame, found, onLoan⟩ := isLoaned_eq_true_iff.1 loaned
  obtain ⟨index, rfl, isFrame⟩ := frame?_eq_some_iff.1 found
  obtain ⟨inPool, rfl⟩ := Array.getElem?_eq_some_iff.1 isFrame
  have onLoan' : pool.frames[index.val].onLoan = true := onLoan
  have notFree : index.val ∉ pool.free := by
    intro free
    obtain ⟨inPool, notLoaned⟩ := (sound.mem_free_iff _).1 free
    simp [onLoan'] at notLoaned
  refine ⟨{ pool.update index { pool.frames[index] with onLoan := false } with
    free := index.val :: pool.free }, pool.frames[index], ?_, ⟨?_, fun other => ?_⟩,
    by simp [update], by simp [freeCount], ?_, found, onLoan, frame?_update pool index _⟩
  · simp [FramePool.release, onLoan']
  · exact List.nodup_cons.2 ⟨notFree, sound.nodup_free⟩
  · rw [List.mem_cons, sound.mem_free_iff]
    by_cases same : index.val = other
    · subst same; simp [update]
    · simp [update, Array.getElem_set, same, Ne.symm same]
  · have back : ({ pool.frames[index.val] with onLoan := true } : PoolFrame) =
        pool.frames[index.val] := by
      rw [← onLoan']
    simp [FramePool.acquire, update, addressOf, back]

include sound in
theorem Sound.release_of_acquire {address : PhysAddr} {rest : FramePool}
    (acquired : pool.acquire = some (address, rest)) : rest.release address = .ok pool := by
  obtain ⟨index, others, frame, free, isFrame, notLoaned, rfl, rfl⟩ := sound.of_acquire acquired
  obtain ⟨inPool, rfl⟩ := Array.getElem?_eq_some_iff.1 isFrame
  let rest : FramePool :=
    { pool.update index { pool.frames[index] with onLoan := true } with free := others }
  have inRest : index.val < rest.frames.size := by simp [rest, update]
  have place : rest.indexOf? (pool.addressOf index) = some ⟨index.val, inRest⟩ :=
    indexOf?_addressOf rest ⟨index.val, inRest⟩
  have back : ({ pool.frames[index.val] with onLoan := false } : PoolFrame) =
      pool.frames[index.val] := by
    rw [← show pool.frames[index.val].onLoan = false from notLoaned]
  show rest.release (pool.addressOf index) = _
  unfold FramePool.release
  rw [place]
  simp [rest, update, ← free, back]

include sound in
/-- A frame that is loaned, written and taken back leaves nothing behind but its bytes. -/
theorem Sound.release_of_acquire_write {address : PhysAddr} {rest written : FramePool}
    {contents : PageData} (acquired : pool.acquire = some (address, rest))
    (wrote : rest.write address contents = .ok written) :
    ∃ result, written.release address = .ok result ∧
      pool.write address contents = .ok result := by
  obtain ⟨index, others, frame, free, isFrame, notLoaned, rfl, rfl⟩ := sound.of_acquire acquired
  obtain ⟨inPool, rfl⟩ := Array.getElem?_eq_some_iff.1 isFrame
  let rest : FramePool :=
    { pool.update index { pool.frames[index] with onLoan := true } with free := others }
  have inRest : index.val < rest.frames.size := by simp [rest, update]
  have place : rest.indexOf? (pool.addressOf index) = some ⟨index.val, inRest⟩ :=
    indexOf?_addressOf rest ⟨index.val, inRest⟩
  have wrote' : rest.write (pool.addressOf index) contents = .ok written := wrote
  unfold FramePool.write at wrote'
  rw [place] at wrote'
  cases wrote'
  let after := rest.update ⟨index.val, inRest⟩ { rest.frames[index.val] with contents }
  have inAfter : index.val < after.frames.size := by simp [after, rest, update]
  have placeAfter : after.indexOf? (pool.addressOf index) = some ⟨index.val, inAfter⟩ :=
    indexOf?_addressOf after ⟨index.val, inAfter⟩
  have notLoaned' : pool.frames[index.val].onLoan = false := notLoaned
  refine ⟨pool.update index { pool.frames[index] with contents }, ?_, ?_⟩
  · show after.release (pool.addressOf index) = _
    unfold FramePool.release
    rw [placeAfter]
    simp [after, rest, update, free, notLoaned']
  · simp [FramePool.write]

end Sound

/-! ## Counting -/

theorem Sound.freeCount_add_length {pool : FramePool} (sound : pool.Sound)
    {loaned : List PhysAddr} (nodup : loaned.Nodup)
    (complete : ∀ address, address ∈ loaned ↔ pool.isLoaned address = true) :
    pool.freeCount + loaned.length = pool.capacity := by
  let onLoan (index : Fin pool.frames.size) : Bool := pool.frames[index].onLoan
  let all := List.finRange pool.frames.size
  have distinct : all.Nodup := List.nodup_finRange _
  have freePerm : pool.free.Perm ((all.filter fun index => !onLoan index).map Fin.val) := by
    rw [List.perm_ext_iff_of_nodup sound.nodup_free
      ((distinct.filter _).map fun _ _ => Fin.ext)]
    intro index
    rw [sound.mem_free_iff]
    constructor
    · rintro ⟨inPool, notLoaned⟩
      exact List.mem_map.2 ⟨⟨index, inPool⟩, by simp [all, onLoan, notLoaned], rfl⟩
    · intro member
      obtain ⟨position, listed, rfl⟩ := List.mem_map.1 member
      exact ⟨position.isLt, by simpa [onLoan] using (List.mem_filter.1 listed).2⟩
  have loanedPerm : loaned.Perm ((all.filter onLoan).map pool.addressOf) := by
    rw [List.perm_ext_iff_of_nodup nodup
      ((distinct.filter _).map fun _ _ => addressOf_injective)]
    intro address
    rw [complete, isLoaned_eq_true_iff]
    constructor
    · rintro ⟨frame, found, isOnLoan⟩
      obtain ⟨index, rfl, isFrame⟩ := frame?_eq_some_iff.1 found
      obtain ⟨inPool, rfl⟩ := Array.getElem?_eq_some_iff.1 isFrame
      exact List.mem_map.2
        ⟨index, List.mem_filter.2 ⟨List.mem_finRange index, isOnLoan⟩, rfl⟩
    · intro member
      obtain ⟨index, listed, rfl⟩ := List.mem_map.1 member
      exact ⟨pool.frames[index], by simp, (List.mem_filter.1 listed).2⟩
  calc pool.freeCount + loaned.length
      = (all.filter fun index => !onLoan index).length + (all.filter onLoan).length := by
        rw [freeCount, freePerm.length_eq, loanedPerm.length_eq, List.length_map, List.length_map]
    _ = all.length := by rw [Nat.add_comm, ← List.length_eq_length_filter_add]
    _ = pool.capacity := List.length_finRange

end FramePool

end DemandPaging
