import DemandPaging.Proofs.FramePool
import DemandPaging.Proofs.Requests

/-!
The pool of frames and a ledger of what it was asked for.

Owns:
- `FrameRequest`, what may be asked of a pool, with whatever addresses, and how a pool answers;
- `LoanLedger`, the frames on loan and the bytes last written to each, noted from requests and
  replies alone, and the replies that it expects;
- `FramePool.Upholds`, the pool is as the ledger says.

Does not own: in which order frames are loaned (`FramePool.acquire`), and to whom (`ResidentSet`).

Main statement: `FramePool.serves_by_ledger`.
-/

namespace DemandPaging

/-! ## Requests -/

/-- What may be asked of a pool of frames. -/
inductive FrameRequest where
  | acquire
  | release (frame : PhysAddr)
  | read (frame : PhysAddr)
  | write (frame : PhysAddr) (contents : PageData)

inductive FrameReply where
  /-- The frame that was loaned, if one was. -/
  | loaned (frame? : Option PhysAddr)
  /-- The frame was taken back or written. -/
  | done
  | contents (contents : PageData)
  | stopped (fault : Fault)

/-- Answer a request. One that stops the machine leaves the pool as it was. -/
def FramePool.answer (pool : FramePool) : FrameRequest → FrameReply × FramePool
  | .acquire =>
    match pool.acquire with
    | some (frame, rest) => (.loaned (some frame), rest)
    | none => (.loaned none, pool)
  | .release frame =>
    match pool.release frame with
    | .ok rest => (.done, rest)
    | .error fault => (.stopped fault, pool)
  | .read frame =>
    match pool.read frame with
    | .ok contents => (.contents contents, pool)
    | .error fault => (.stopped fault, pool)
  | .write frame contents =>
    match pool.write frame contents with
    | .ok written => (.done, written)
    | .error fault => (.stopped fault, pool)

/-! ## Ledgers -/

/-- What the requests to a pool and its replies tell about its frames. -/
structure LoanLedger where
  /-- The number of frames. -/
  capacity : Nat
  /-- The frames that were loaned and not taken back since. -/
  loaned : List PhysAddr
  /-- What was last written to each frame. -/
  contents : PhysAddr → PageData

namespace LoanLedger

/-- The ledger of a pool of zero-filled frames, of which none is on loan. -/
def blank (capacity : Nat) : LoanLedger := ⟨capacity, [], fun _ => Block.zero⟩

/-- An address is that of one of the frames: page aligned and within the pool. -/
def HasFrame (ledger : LoanLedger) (address : PhysAddr) : Prop :=
  address.offset = 0 ∧ FramePool.base ≤ address.toNat ∧
    address.toNat < FramePool.base + ledger.capacity * pageSize

/-- Note a request and its reply. -/
def note (ledger : LoanLedger) : FrameRequest → FrameReply → LoanLedger
  | .acquire, .loaned (some frame) => { ledger with loaned := frame :: ledger.loaned }
  | .release frame, .done => { ledger with loaned := ledger.loaned.erase frame }
  | .write frame contents, .done =>
    { ledger with contents := fun other =>
        if frame = other then contents else ledger.contents other }
  | _, _ => ledger

@[simp]
theorem capacity_note (ledger : LoanLedger) (request : FrameRequest) (reply : FrameReply) :
    (ledger.note request reply).capacity = ledger.capacity := by
  unfold note
  split <;> rfl

/-- Which replies to a request are right. Any frame that is not on loan may be loaned, and one has
to be if there is one. Only a frame on loan can be taken back. -/
def Expects (ledger : LoanLedger) : FrameRequest → FrameReply → Prop
  | .acquire, reply =>
    (∃ frame, reply = .loaned (some frame) ∧ ledger.HasFrame frame ∧ frame ∉ ledger.loaned) ∨
      reply = .loaned none ∧ ∀ frame, ledger.HasFrame frame → frame ∈ ledger.loaned
  | .release frame, reply =>
    reply = .done ∧ frame ∈ ledger.loaned ∨
      reply = .stopped (.doubleFree frame) ∧ ledger.HasFrame frame ∧ frame ∉ ledger.loaned ∨
      reply = .stopped (.foreignFrame frame) ∧ ¬ledger.HasFrame frame
  | .read frame, reply =>
    reply = .contents (ledger.contents frame) ∧ ledger.HasFrame frame ∨
      reply = .stopped (.foreignFrame frame) ∧ ¬ledger.HasFrame frame
  | .write frame _, reply =>
    reply = .done ∧ ledger.HasFrame frame ∨
      reply = .stopped (.foreignFrame frame) ∧ ¬ledger.HasFrame frame

end LoanLedger

/-! ## The ledger of a pool -/

namespace FramePool

variable {pool : FramePool} {ledger : LoanLedger} {frame : PhysAddr}

/-- A pool is as a ledger says. -/
structure Upholds (pool : FramePool) (ledger : LoanLedger) : Prop where
  sound : pool.Sound
  capacity : pool.capacity = ledger.capacity
  isLoaned_iff : ∀ frame, pool.isLoaned frame = true ↔ frame ∈ ledger.loaned
  /-- No frame is loaned twice at a time. -/
  nodup : ledger.loaned.Nodup
  contents : ∀ frame state, pool.frame? frame = some state → state.contents = ledger.contents frame

theorem upholds_create (count : Nat) :
    (create count).Upholds (.blank (min count mostFrames)) where
  sound := sound_create count
  capacity := Array.size_replicate
  isLoaned_iff frame := by simp [isLoaned_create, LoanLedger.blank]
  nodup := List.nodup_nil
  contents frame state found := by
    obtain ⟨index, -, isFrame⟩ := frame?_eq_some_iff.1 found
    obtain ⟨-, rfl⟩ := Array.getElem?_eq_some_iff.1 isFrame
    simp [create, LoanLedger.blank]

namespace Upholds

/-- The addresses of frames are the page boundaries within the pool. -/
theorem hasFrame_iff (upholds : pool.Upholds ledger) :
    ledger.HasFrame frame ↔ ∃ state, pool.frame? frame = some state := by
  rw [LoanLedger.HasFrame, ← upholds.capacity, FramePool.capacity]
  constructor
  · rintro ⟨aligned, lower, upper⟩
    have inPool : (frame.toNat - base) / pageSize < pool.frames.size := by
      simp only [base, pageSize] at *
      omega
    refine ⟨pool.frames[(frame.toNat - base) / pageSize], ?_⟩
    rw [frame?_eq, if_pos ⟨lower, aligned⟩, Array.getElem?_eq_getElem inPool]
  · rintro ⟨state, found⟩
    obtain ⟨index, rfl, -⟩ := frame?_eq_some_iff.1 found
    have inPool := index.isLt
    refine ⟨offset_of_frame? found, ?_⟩
    rw [toNat_addressOf]
    simp only [base, pageSize]
    omega

theorem frame?_eq_none (upholds : pool.Upholds ledger) (missing : ¬ledger.HasFrame frame) :
    pool.frame? frame = none := by
  rw [Option.eq_none_iff_forall_ne_some]
  exact fun state found => missing (upholds.hasFrame_iff.2 ⟨state, found⟩)

theorem onLoan_iff (upholds : pool.Upholds ledger) {state : PoolFrame}
    (found : pool.frame? frame = some state) : state.onLoan = true ↔ frame ∈ ledger.loaned := by
  rw [← upholds.isLoaned_iff, isLoaned_of_frame? found]

/-- Whether a frame is on loan does not matter for what it holds. -/
theorem contents_of_loan (upholds : pool.Upholds ledger) {rest : FramePool} {state : PoolFrame}
    {onLoan : Bool} (found : pool.frame? frame = some state)
    (frames : ∀ other, rest.frame? other =
      if frame = other then some { state with onLoan } else pool.frame? other)
    (other : PhysAddr) (left : PoolFrame) (foundLeft : rest.frame? other = some left) :
    left.contents = ledger.contents other := by
  rw [frames] at foundLeft
  split at foundLeft
  case isTrue here =>
    cases foundLeft
    exact upholds.contents other state (here ▸ found)
  case isFalse => exact upholds.contents other left foundLeft

theorem mem_free_iff (upholds : pool.Upholds ledger) (index : Nat) :
    index ∈ pool.free ↔
      ∃ inPool : index < pool.frames.size, pool.addressOf ⟨index, inPool⟩ ∉ ledger.loaned := by
  rw [upholds.sound.mem_free_iff]
  refine exists_congr fun inPool => ?_
  rw [← upholds.isLoaned_iff, isLoaned_addressOf, Bool.not_eq_true]

theorem hasFrame_of_loaned (upholds : pool.Upholds ledger) (loaned : frame ∈ ledger.loaned) :
    ledger.HasFrame frame := by
  obtain ⟨state, found, -⟩ := isLoaned_eq_true_iff.1 ((upholds.isLoaned_iff frame).2 loaned)
  exact upholds.hasFrame_iff.2 ⟨state, found⟩

/-! ### Every request keeps it -/

theorem answer_acquire (upholds : pool.Upholds ledger) :
    ledger.Expects .acquire (pool.answer .acquire).1 ∧
      (pool.answer .acquire).2.Upholds (ledger.note .acquire (pool.answer .acquire).1) := by
  cases acquired : pool.acquire with
  | none =>
      have allLoaned : ∀ frame, ledger.HasFrame frame → frame ∈ ledger.loaned := by
        intro frame has
        obtain ⟨state, found⟩ := upholds.hasFrame_iff.1 has
        obtain ⟨index, rfl, -⟩ := frame?_eq_some_iff.1 found
        by_contra notLoaned
        have free : index.val ∈ pool.free := (upholds.mem_free_iff _).2 ⟨index.isLt, notLoaned⟩
        rw [upholds.sound.acquire_eq_none_iff.1 acquired] at free
        cases free
      simp only [answer, acquired]
      exact ⟨.inr ⟨rfl, allLoaned⟩, upholds⟩
  | some result =>
      obtain ⟨frame, rest⟩ := result
      obtain ⟨sound, size, -, state, found, notLoaned, frames⟩ := upholds.sound.acquire acquired
      have has : ledger.HasFrame frame := upholds.hasFrame_iff.2 ⟨state, found⟩
      have fresh : frame ∉ ledger.loaned := by
        rw [← upholds.onLoan_iff found, notLoaned]
        exact Bool.false_ne_true
      have loans : ∀ other, rest.isLoaned other = true ↔ other ∈ frame :: ledger.loaned := by
        intro other
        rw [isLoaned_of_loan frames, List.mem_cons, ← upholds.isLoaned_iff]
        by_cases here : frame = other
        · simp [here]
        · simp [here, Ne.symm here]
      simp only [answer, acquired]
      constructor
      · exact .inl ⟨frame, rfl, has, fresh⟩
      · exact {
          sound
          capacity := size.trans upholds.capacity
          isLoaned_iff := loans
          nodup := List.nodup_cons.2 ⟨fresh, upholds.nodup⟩
          contents := upholds.contents_of_loan found frames }

theorem answer_release (upholds : pool.Upholds ledger) (frame : PhysAddr) :
    ledger.Expects (.release frame) (pool.answer (.release frame)).1 ∧
      (pool.answer (.release frame)).2.Upholds
        (ledger.note (.release frame) (pool.answer (.release frame)).1) := by
  by_cases has : ledger.HasFrame frame
  case neg =>
    have refused := release_eq_error_of_missing (upholds.frame?_eq_none has)
    simp only [answer, refused]
    exact ⟨.inr (.inr ⟨rfl, has⟩), upholds⟩
  by_cases loaned : frame ∈ ledger.loaned
  case neg =>
    obtain ⟨state, found⟩ := upholds.hasFrame_iff.1 has
    have notLoaned : state.onLoan = false := by
      rwa [← upholds.onLoan_iff found, Bool.not_eq_true] at loaned
    have refused := release_eq_error found notLoaned
    simp only [answer, refused]
    exact ⟨.inr (.inl ⟨rfl, has, loaned⟩), upholds⟩
  obtain ⟨rest, state, released, sound, size, -, -, found, -, frames⟩ :=
    upholds.sound.release ((upholds.isLoaned_iff frame).2 loaned)
  have loans : ∀ other, rest.isLoaned other = true ↔ other ∈ ledger.loaned.erase frame := by
    intro other
    rw [isLoaned_of_loan frames, upholds.nodup.mem_erase_iff, ← upholds.isLoaned_iff]
    by_cases here : frame = other
    · simp [here]
    · simp [here, Ne.symm here]
  simp only [answer, released]
  constructor
  · exact .inl ⟨rfl, loaned⟩
  · exact {
      sound
      capacity := size.trans upholds.capacity
      isLoaned_iff := loans
      nodup := upholds.nodup.erase frame
      contents := upholds.contents_of_loan found frames }

theorem answer_read (upholds : pool.Upholds ledger) (frame : PhysAddr) :
    ledger.Expects (.read frame) (pool.answer (.read frame)).1 ∧
      (pool.answer (.read frame)).2.Upholds
        (ledger.note (.read frame) (pool.answer (.read frame)).1) := by
  by_cases has : ledger.HasFrame frame
  case neg =>
    have refused : pool.read frame = .error (.foreignFrame frame) := by
      rw [read_eq, upholds.frame?_eq_none has]
    simp only [answer, refused]
    exact ⟨.inr ⟨rfl, has⟩, upholds⟩
  obtain ⟨state, found⟩ := upholds.hasFrame_iff.1 has
  have read : pool.read frame = .ok (ledger.contents frame) :=
    read_eq_ok_iff.2 ⟨state, found, upholds.contents frame state found⟩
  simp only [answer, read]
  exact ⟨.inl ⟨rfl, has⟩, upholds⟩

theorem answer_write (upholds : pool.Upholds ledger) (frame : PhysAddr) (contents : PageData) :
    ledger.Expects (.write frame contents) (pool.answer (.write frame contents)).1 ∧
      (pool.answer (.write frame contents)).2.Upholds
        (ledger.note (.write frame contents) (pool.answer (.write frame contents)).1) := by
  by_cases has : ledger.HasFrame frame
  case neg =>
    have refused := write_eq_error (upholds.frame?_eq_none has) contents
    simp only [answer, refused]
    exact ⟨.inr ⟨rfl, has⟩, upholds⟩
  obtain ⟨state, found⟩ := upholds.hasFrame_iff.1 has
  obtain ⟨written, wrote, -, size, frames⟩ := write_eq_ok found contents
  have loans : ∀ other, written.isLoaned other = true ↔ other ∈ ledger.loaned := by
    intro other
    rw [← upholds.isLoaned_iff, isLoaned, frames]
    split
    case isTrue here => rw [← here, isLoaned_of_frame? found, Option.any_some]
    case isFalse => rfl
  have bytes : ∀ other left, written.frame? other = some left →
      left.contents = if frame = other then contents else ledger.contents other := by
    intro other left foundLeft
    rw [frames] at foundLeft
    split at foundLeft
    case isTrue here =>
      cases foundLeft
      rw [if_pos here]
    case isFalse elsewhere =>
      rw [if_neg elsewhere]
      exact upholds.contents other left foundLeft
  simp only [answer, wrote]
  constructor
  · exact .inl ⟨rfl, has⟩
  · exact {
      sound := upholds.sound.write wrote
      capacity := size.trans upholds.capacity
      isLoaned_iff := loans
      nodup := upholds.nodup
      contents := bytes }

/-- A pool replies to a request as its ledger expects, and is as the ledger says after the reply is
noted. -/
theorem answer_expected (upholds : pool.Upholds ledger) (request : FrameRequest) :
    ledger.Expects request (pool.answer request).1 ∧
      (pool.answer request).2.Upholds (ledger.note request (pool.answer request).1) := by
  cases request with
  | acquire => exact upholds.answer_acquire
  | release frame => exact upholds.answer_release frame
  | read frame => exact upholds.answer_read frame
  | write frame contents => exact upholds.answer_write frame contents

end Upholds

/-- However often frames are acquired, released, read and written, by whatever addresses, a pool
replies as a ledger of the requests and replies so far expects: a frame that is acquired is one of
the pool that is not on loan, and there is none only if all are on loan; only a frame on loan can be
released, any other address stops the machine; and a frame holds what was last written to it. The
indices of the frames that are not on loan are free, each once, and no other index is, so the frames
that are free and those on loan add up to all frames. -/
theorem serves_by_ledger (count : Nat) (requests : List FrameRequest) (next : FrameRequest) :
    let served := serve answer (create count) requests
    let pool := served.2
    let ledger := noted LoanLedger.note (.blank (min count mostFrames)) requests served.1
    ledger.Expects next (pool.answer next).1 ∧
      ledger.loaned.Nodup ∧
      (∀ frame ∈ ledger.loaned, ledger.HasFrame frame) ∧
      (∀ frame, pool.isLoaned frame = true ↔ frame ∈ ledger.loaned) ∧
      pool.free.Nodup ∧
      (∀ index, index ∈ pool.free ↔
        ∃ inPool : index < pool.frames.size, pool.addressOf ⟨index, inPool⟩ ∉ ledger.loaned) ∧
      pool.freeCount + ledger.loaned.length = pool.capacity ∧
      pool.capacity = min count mostFrames := by
  intro served pool ledger
  obtain ⟨upholds, sameCapacity⟩ := serve_recorded
    (fun (pool : FramePool) (ledger : LoanLedger) =>
      pool.Upholds ledger ∧ ledger.capacity = min count mostFrames)
    (fun pool ledger ⟨upholds, sameCapacity⟩ request =>
      ⟨(upholds.answer_expected request).2, (ledger.capacity_note ..).trans sameCapacity⟩)
    ⟨upholds_create count, rfl⟩ requests
  refine ⟨(upholds.answer_expected next).1, upholds.nodup, fun frame => upholds.hasFrame_of_loaned,
    upholds.isLoaned_iff, upholds.sound.nodup_free, upholds.mem_free_iff, ?_,
    upholds.capacity.trans sameCapacity⟩
  exact upholds.sound.freeCount_add_length upholds.nodup fun frame =>
    (upholds.isLoaned_iff frame).symm

end FramePool

end DemandPaging
