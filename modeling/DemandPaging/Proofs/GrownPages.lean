import DemandPaging.Proofs.Follows
import DemandPaging.Proofs.Growth

/-!
Where the pages are by which a stack grows.

Owns:
- `Move.RegistersIn`, the steps that register pages at certain addresses only;
- `Settings.GrowsTo`, the pages that the growth of a stack may register under some settings;
- how a fault is decided (`Machine.handleFault_eq`);
- that the events during which faults are handled register no other pages.

Does not own: how many pages a fault adds (`Machine.growth`), and which of them are in memory
afterwards (`Machine.ends_growFrom`).

The limit of a stack is compared with the address of a byte, and the page of that byte is
registered as a whole. So the last byte of a page of growth lies above the bottom of the window, and
its first byte may lie below.

Main statement: `Event.growsTo`.
-/

namespace DemandPaging

/-- Pages are registered as anonymous ones only, and only at certain addresses. -/
def Move.RegistersIn (places : VirtAddr → Prop) (move : Move) : Prop :=
  ∀ pid address kind, move = .register pid address kind → kind = .anonymous ∧ places address

theorem Move.IsUnseen.registersIn {places : VirtAddr → Prop} {move : Move}
    (unseen : move.IsUnseen) : move.RegistersIn places := by
  intro pid address kind same
  rw [same] at unseen
  exact unseen.elim

/-- A page that the growth of a stack may register: its last byte lies above the bottom of the
window. -/
structure Settings.GrowsTo (settings : Settings) (place : VirtAddr) : Prop where
  user : place.isUser = true
  below : place.toNat < stackTop
  window : stackTop - settings.stackLimit < place.toNat + (pageSize - 1)

/-- The settings are never changed. -/
theorem Step.settings {move : Move} {before after : Machine} (step : Step move before after) :
    after.settings = before.settings := by
  cases step with
  | upkeep upkeep => cases upkeep <;> rfl
  | createMapping | retain | outside | setStackPointer | access | pageOut | pageIn | overwrite
  | register | removeAbsent | removeResident | arrive | leave => rfl

theorem Path.settings {allowed : Move → Prop} {before after : Machine}
    (path : Path allowed before after) : after.settings = before.settings := by
  induction path with
  | refl => rfl
  | tail _ stepped inductionHypothesis =>
      obtain ⟨move, -, step⟩ := stepped
      exact step.settings.trans inductionHypothesis

/-- A page that is new at the end of a path was registered on the way. -/
theorem Path.allows_register {allowed : Move → Prop} {before after : Machine} {pid : Pid}
    {place : VirtAddr} {page : Page} (path : Path allowed before after) (sound : before.Sound)
    (vacant : before.page? pid place = none) (found : after.page? pid place = some page) :
    allowed (.register pid place page.kind) := by
  by_contra elsewhere
  obtain ⟨former, known, -⟩ := path.exists_page?_of_after sound found elsewhere
  rw [vacant] at known
  cases known

namespace Machine

open DemandPaging.Action (Takes Follows)

variable {places : VirtAddr → Prop} {settings : Settings}

/-! ## Operations -/

theorem takes_registerPage_in {pid : Pid} {address : VirtAddr}
    (inside : address.isUser = true → places address.pageDown) (writable : Bool)
    (marker : PageMarker) (loader : Option Loader) :
    (registerPage pid address writable marker (.anonymous loader)).Takes
      (Move.RegistersIn places) := by
  constructor
  intro before sound
  unfold registerPage
  split
  case isTrue user =>
    have noMapping : ∀ mapping,
        (Page.create address writable marker (.untouched (.anonymous loader))).mapping? =
          some mapping → before.Admits pid mapping := by
      intro mapping mapped
      cases mapped
    apply (ends_insertPage rfl rfl (Address.offset_pageDown address) noMapping).imp
    · intro _ after inserted
      refine Path.single inserted.1 fun other place kind same => ?_
      cases same
      exact ⟨rfl, inside user⟩
    · intro _ after refused
      rw [refused.1]
      exact .refl before
    · intro _ never
      exact never.elim
  case isFalse => exact .refl before

theorem takes_makeResident_in (pid : Pid) (address : VirtAddr) :
    (makeResident pid address).Takes (Move.RegistersIn places) :=
  (takes_makeResident pid address).mono fun _ unseen => unseen.registersIn

/-- A stack grows from a page upward, so the pages it gains are among those up to the top. -/
theorem takes_growFrom_in {pid : Pid} {pagesToTop : Nat}
    (inside : ∀ pages, 0 < pages → pages ≤ pagesToTop →
      (VirtAddr.stackPage pages).isUser = true → places (VirtAddr.stackPage pages)) :
    (growFrom pid pagesToTop).Takes (Move.RegistersIn places) := by
  induction pagesToTop with
  | zero => exact Takes.pure ()
  | succ pagesAbove inductionHypothesis =>
      have down := Address.pageDown_eq_self_iff.2 (offset_stackPage (pagesAbove + 1))
      apply (Takes.space pid).bind
      intro target
      apply Takes.ite
      · intro _
        exact Takes.pure ()
      · intro _
        have here : (VirtAddr.stackPage (pagesAbove + 1)).isUser = true →
            places (VirtAddr.stackPage (pagesAbove + 1)).pageDown := by
          rw [down]
          exact inside (pagesAbove + 1) (Nat.succ_pos _) (Nat.le_refl _)
        apply (takes_registerPage_in here true .stack none).bind
        intro _
        apply (takes_makeResident_in pid _).bind
        intro _
        exact inductionHypothesis fun pages positive fits =>
          inside pages positive (Nat.le_succ_of_le fits)

/-- The pages from that of a byte in the window upward have their last bytes in the window. -/
theorem growsTo_stackPage {address : VirtAddr} {pages : Nat}
    (inWindow : stackTop - settings.stackLimit < address.toNat) (positive : 0 < pages)
    (fits : pages ≤ (stackTop - address.pageDown.toNat) / pageSize)
    (user : (VirtAddr.stackPage pages).isUser = true) :
    settings.GrowsTo (VirtAddr.stackPage pages) := by
  have down := Address.toNat_pageDown address
  constructor
  · exact user
  · rw [toNat_stackPage]
    simp only [stackTop, pageSize]
    omega
  · rw [toNat_stackPage]
    simp only [stackTop, pageSize] at *
    omega

/-- How a fault is decided: the address comes first, then the process, then its page, and only
without a page the stack. -/
theorem handleFault_eq (pid : Pid) (reason : FaultReason) (machine : Machine) :
    handleFault pid reason machine =
      if reason.code.user && reason.address.isKernel then .failed .invalidAccess machine
      else
        match machine.spaces[pid]? with
        | none => .failed .noSuchEntry machine
        | some _ =>
          match machine.page? pid reason.address.pageDown with
          | some page =>
            if reason.code.write && !page.writable then .failed .invalidAccess machine
            else makeResident pid reason.address machine
          | none =>
            if growsStack machine.settings reason then growStack pid reason.address machine
            else .failed .badAddress machine := by
  unfold handleFault
  split
  case isTrue => rfl
  case isFalse =>
    simp only [Action.bind_apply, space]
    cases found : machine.spaces[pid]? with
    | none => rfl
    | some target =>
        rw [page?_of_space found, ← PageRegistry.find?_eq_at?]
        simp only [Action.require, Action.pure_apply]
        cases target.pages.find? reason.address with
        | some page =>
            dsimp only
            split
            · rfl
            · rfl
        | none =>
            simp only [Action.bind_apply, Action.get]
            split
            · rfl
            · rfl

/-- A fault is handled by bringing in a page that may be accessed, or by growing the stack, or it
is refused. -/
theorem follows_handleFault_of_parts {condition : Machine → Prop} {allowed : Move → Prop}
    {pid : Pid} {reason : FaultReason}
    (brings : ∀ before page, condition before →
      before.page? pid reason.address.pageDown = some page →
      (reason.code.write = true → page.writable = true) →
        (makeResident pid reason.address).Follows condition allowed)
    (grows : ∀ before, condition before → growsStack before.settings reason = true →
      (growStack pid reason.address).Follows condition allowed) :
    (handleFault pid reason).Follows condition allowed := by
  constructor
  intro before sound holds
  rw [handleFault_eq]
  split
  case isTrue => exact ⟨.refl before, holds⟩
  case isFalse =>
    split
    case h_1 => exact ⟨.refl before, holds⟩
    case h_2 =>
      split
      case h_1 page registered =>
        split
        case isTrue => exact ⟨.refl before, holds⟩
        case isFalse permits =>
          have mayWrite : reason.code.write = true → page.writable = true := by
            simpa using permits
          exact (brings before page holds registered mayWrite).ends before sound holds
      case h_2 =>
        split
        case isTrue inWindow => exact (grows before holds inWindow).ends before sound holds
        case isFalse => exact ⟨.refl before, holds⟩

/-- Handling a fault registers pages of the stack only. -/
theorem follows_handleFault (settings : Settings) (pid : Pid) (reason : FaultReason) :
    (handleFault pid reason).Follows (fun machine => machine.settings = settings)
      (Move.RegistersIn settings.GrowsTo) := by
  have follows {action : Action Machine Unit}
      (takes : action.Takes (Move.RegistersIn settings.GrowsTo)) :
      action.Follows (fun machine => machine.settings = settings)
        (Move.RegistersIn settings.GrowsTo) :=
    .of_takes takes (fun _ => id) fun _ _ _ path same => path.settings.trans same
  apply follows_handleFault_of_parts
  · intro _ _ _ _ _
    exact follows (takes_makeResident_in pid reason.address)
  · intro before same grows
    -- Only here the steps depend on the settings.
    rw [same] at grows
    simp only [growsStack, Bool.and_eq_true, decide_eq_true_eq] at grows
    obtain ⟨-, inWindow, -, -⟩ := grows
    apply follows
    apply takes_growFrom_in
    intro pages positive fits user
    exact growsTo_stackPage inWindow positive fits user

/-- Accesses and what they store register pages of the stack only, since they do so by their faults
only. -/
theorem writer_growsTo (settings : Settings) (pid : Pid) :
    Writer (fun machine => machine.settings = settings) (Move.RegistersIn settings.GrowsTo)
      pid where
  handles reason _ := follows_handleFault settings pid reason
  accesses _ _ _ step same := ⟨nofun, step.settings.trans same⟩
  overwrites _ _ _ _ _ _ step same := ⟨nofun, step.settings.trans same⟩

theorem follower_growsTo (settings : Settings) (pid : Pid) :
    Follower (fun machine => machine.settings = settings) (Move.RegistersIn settings.GrowsTo) pid
      false where
  handles reason _ := follows_handleFault settings pid reason
  accesses _ _ _ step same := ⟨nofun, step.settings.trans same⟩

end Machine

/-! ## Events -/

/-- Faults may be handled during an event: it is a fault, or it accesses the memory of a process. -/
def Event.MayFault : Event → Bool
  | handleFault _ _ | readUser _ _ _ | writeUser _ _ _ => true
  | _ => false

namespace Event

open Machine

variable {event : Event} {before after : Machine}

theorem follows_perform (settings : Settings) (faults : event.MayFault = true) :
    event.perform.Follows (fun machine => machine.settings = settings)
      (Move.RegistersIn settings.GrowsTo) := by
  cases event with
  | handleFault pid reason => exact follows_handleFault settings pid reason
  | readUser pid address length =>
      exact ((follower_growsTo settings pid).follows_fetchUser address length).bind fun _ =>
        .of_still (.pure ())
  | writeUser pid address data => exact (writer_growsTo settings pid).follows_writeUser address data
  | _ => cases faults

/-- A page that comes while faults are handled is anonymous, and one of those by which the stack may
grow. -/
theorem growsTo {pid : Pid} {place : VirtAddr} {page : Page} (sound : before.Sound)
    (faults : event.MayFault = true) (leaves : (event.perform before).state? = some after)
    (vacant : before.page? pid place = none) (found : after.page? pid place = some page) :
    page.kind = .anonymous ∧ before.settings.GrowsTo place := by
  have ends := (follows_perform before.settings faults).ends before sound rfl
  have path : Path (Move.RegistersIn before.settings.GrowsTo) before after :=
    ends.leaves (fun _ _ reached => reached.1) (fun _ _ reached => reached.1) after leaves
  exact path.allows_register sound vacant found pid place page.kind rfl

end Event

end DemandPaging
