import DemandPaging.Proofs.MappingGroups

/-!
Every page of every process lies below the kernel.

Owns:
- `Machine.UserPages`, and that no event ends with a page of the kernel;
- `Action.KeepsUserPages`, the same of the operations that register anonymous pages.

Does not own: where mappings of files lie (`Reachable.belowKernel`).

Main statement: `Reachable.userPages`. Page tables refuse to map the addresses of the kernel, so
this is why a registered page can be mapped.
-/

namespace DemandPaging

/-- Every page of every process lies below the kernel. -/
def Machine.UserPages (machine : Machine) : Prop :=
  ∀ pid address page, machine.page? pid address = some page → address.toNat < kernelBase

/-- An operation that registers no page of the kernel, whichever way it ends. -/
structure Action.KeepsUserPages {Value : Type} (action : Action Machine Value) : Prop where
  ends : ∀ before : Machine, before.Sound → before.UserPages →
    (action before).Ends (fun _ after => after.Sound ∧ after.UserPages)
      (fun _ after => after.UserPages) (fun _ => True)

namespace Action.KeepsUserPages

open Machine

variable {Value Result : Type} {action : Action Machine Value} {allowed : Move → Prop}

/-- The records of the machine agree after steps of any kind, so only the pages are left to look
at. -/
theorem of_ends (takes : action.Takes allowed)
    (ends : ∀ before : Machine, before.Sound → before.UserPages →
      (action before).Ends (fun _ after => after.UserPages) (fun _ after => after.UserPages)
        (fun _ => True)) : action.KeepsUserPages := by
  refine ⟨fun before sound user => ?_⟩
  exact ((takes.ends before sound).and (ends before sound user)).imp
    (fun _ _ both => ⟨both.1.sound sound, both.2⟩) (fun _ _ both => both.2) (fun _ _ => trivial)

/-- Where no page is registered, none is a page of the kernel. -/
theorem of_takes (takes : action.Takes allowed)
    (noRegister : ∀ pid address kind, ¬allowed (.register pid address kind)) :
    action.KeepsUserPages := by
  refine of_ends takes fun before sound user => ?_
  have keeps {after : Machine} (path : Path allowed before after) : after.UserPages := by
    intro pid address page registered
    obtain ⟨former, known, -⟩ := path.exists_page?_of_after sound registered (noRegister _ _ _)
    exact user pid address former known
  exact (takes.ends before sound).imp (fun _ _ => keeps) (fun _ _ => keeps) (fun _ _ => trivial)

/-- An operation that takes no steps. -/
theorem of_still (takes : action.Takes fun _ => False) : action.KeepsUserPages :=
  of_takes takes fun _ _ _ => id

theorem bind {first : Action Machine Result} {next : Result → Action Machine Value}
    (keeps : first.KeepsUserPages) (keepsNext : ∀ result, (next result).KeepsUserPages) :
    (first >>= next).KeepsUserPages := by
  refine ⟨fun before sound user => ?_⟩
  rw [ends_bind]
  exact (keeps.ends before sound user).imp
    (fun result middle both => (keepsNext result).ends middle both.1 both.2)
    (fun _ _ stays => stays) (fun _ _ => trivial)

theorem ite {condition : Prop} [Decidable condition] {other : Action Machine Value}
    (yes : condition → action.KeepsUserPages) (no : ¬condition → other.KeepsUserPages) :
    (if condition then action else other).KeepsUserPages := by
  split
  case isTrue holds => exact yes holds
  case isFalse fails => exact no fails

theorem refuse {condition : Prop} [Decidable condition] (error : Errno)
    (keeps : action.KeepsUserPages) :
    (if condition then
      (do let _ : Result ← Action.fail error
          action)
    else action).KeepsUserPages :=
  ite (fun _ => (of_still (.fail error)).bind fun _ => keeps) fun _ => keeps

end Action.KeepsUserPages

namespace Machine

open DemandPaging.Action (Takes KeepsUserPages)

variable {before after machine : Machine}

/-! ## Operations -/

/-- A page that is registered by itself holds a user address. -/
theorem keepsUserPages_registerPage (pid : Pid) (address : VirtAddr) (writable : Bool)
    (marker : PageMarker) (loader : Option Loader) :
    (registerPage pid address writable marker (.anonymous loader)).KeepsUserPages := by
  refine .of_ends (takes_registerPage pid address writable marker loader) fun before _ user => ?_
  unfold registerPage
  split
  case isTrue userAddress =>
    have below : address.pageDown.toNat < kernelBase := by
      rw [Address.isUser, decide_eq_true_eq] at userAddress
      exact Nat.lt_of_le_of_lt (Nat.sub_le ..) userAddress.2
    have ofNoFile :
        (Page.create address writable marker (.untouched (.anonymous loader))).mapping? = none :=
      rfl
    refine (ends_insertPage rfl rfl (Address.offset_pageDown address) fun mapping mapped => ?_).imp
      ?_ ?_ (fun _ no => no.elim)
    · rw [ofNoFile] at mapped
      cases mapped
    · intro _ after inserted other place page registered
      rw [inserted.2] at registered
      split at registered
      case isTrue here => exact here.2 ▸ below
      case isFalse => exact user other place page registered
    · intro _ after refused
      rw [refused.1]
      exact user
  case isFalse => exact user

theorem keepsUserPages_makeResident (pid : Pid) (address : VirtAddr) :
    (makeResident pid address).KeepsUserPages :=
  .of_takes (takes_makeResident pid address) fun _ _ _ => id

theorem keepsUserPages_loadPages (pid : Pid) (file : FileId) (pagesLeft : Nat)
    (segment : Segment) : (loadPages pid file pagesLeft segment).KeepsUserPages := by
  induction pagesLeft generalizing segment with
  | zero => exact .of_still (.pure ())
  | succ pagesAfter inductionHypothesis =>
      refine (keepsUserPages_registerPage ..).bind fun _ => ?_
      refine (KeepsUserPages.of_still (.checked _)).bind fun offset => ?_
      refine (KeepsUserPages.of_still (.checked _)).bind fun zeroBytes => ?_
      refine (KeepsUserPages.of_still (.checked _)).bind fun address => ?_
      exact inductionHypothesis _

theorem keepsUserPages_loadSegment (pid : Pid) (file : FileId) (segment : Segment) :
    (loadSegment pid file segment).KeepsUserPages :=
  (KeepsUserPages.of_still (.checked _)).bind fun _ => .refuse _ (keepsUserPages_loadPages ..)

theorem keepsUserPages_setUpStack (pid : Pid) : (setUpStack pid).KeepsUserPages := by
  refine (keepsUserPages_registerPage ..).bind fun _ => ?_
  refine (keepsUserPages_makeResident ..).bind fun _ => ?_
  refine KeepsUserPages.bind (.of_takes (takes_setStackPointer ..) fun _ _ _ => nofun) fun _ => ?_
  exact .of_still (.pure _)

theorem keepsUserPages_growFrom (pid : Pid) (pagesAbove : Nat) :
    (growFrom pid pagesAbove).KeepsUserPages := by
  induction pagesAbove with
  | zero => exact .of_still (.pure ())
  | succ pagesAbove inductionHypothesis =>
      refine (KeepsUserPages.of_still (.space pid)).bind fun target => ?_
      refine .ite (fun _ => .of_still (.pure ())) fun _ => ?_
      refine (keepsUserPages_registerPage ..).bind fun _ => ?_
      exact (keepsUserPages_makeResident ..).bind fun _ => inductionHypothesis

theorem keepsUserPages_handleFault (pid : Pid) (reason : FaultReason) :
    (handleFault pid reason).KeepsUserPages := by
  refine .refuse _ ((KeepsUserPages.of_still (.space pid)).bind fun target => ?_)
  cases target.pages.find? reason.address with
  | some page =>
      exact .ite (fun _ => .of_still (.fail _)) fun _ => keepsUserPages_makeResident ..
  | none =>
      refine (KeepsUserPages.of_still .get).bind fun machine => ?_
      exact .ite (fun _ => keepsUserPages_growFrom ..) fun _ => .of_still (.fail _)

theorem keepsUserPages_access (pid : Pid) (address : VirtAddr) (write : Bool) :
    (access pid address write).KeepsUserPages :=
  .of_takes (takes_access pid address write) fun _ _ _ => nofun

theorem keepsUserPages_locate (pid : Pid) (address : VirtAddr) (write : Bool) :
    (locate pid address write).KeepsUserPages := by
  refine (KeepsUserPages.of_still (.space pid)).bind fun target => ?_
  refine (keepsUserPages_access pid address write).bind fun answer => ?_
  cases answer with
  | ok location => exact .of_still (.pure _)
  | error code =>
      refine (keepsUserPages_handleFault ..).bind fun _ => ?_
      refine (keepsUserPages_access pid address write).bind fun again => ?_
      cases again with
      | ok location => exact .of_still (.pure _)
      | error _ => exact .of_still (.fail _)

theorem keepsUserPages_locateChunk (pid : Pid) (address : VirtAddr) (write : Bool)
    (chunk : Chunk) : (locateChunk pid address write chunk).KeepsUserPages :=
  (KeepsUserPages.of_still (.require _ _)).bind fun _ => keepsUserPages_locate ..

/-- What is stored goes to a frame, and no page comes. -/
theorem keepsUserPages_writeChunk (pid : Pid) (address : VirtAddr) (data : Array UInt8)
    (chunk : Chunk) : (writeChunk pid address data chunk).KeepsUserPages := by
  refine .of_ends (takes_writeChunk pid address data chunk) fun before sound user => ?_
  simp only [writeChunk, Action.ends_bind, Action.ends_get, Action.ends_orHalt, setResident,
    Action.ends_modify]
  refine ((keepsUserPages_locateChunk pid address true chunk).ends before sound user).imp ?_
    (fun _ _ stays => stays) (fun _ _ => trivial)
  intro location middle located
  exact ⟨fun _ _ => ⟨fun _ _ => located.2, fun _ _ => trivial⟩, fun _ _ => trivial⟩

theorem keepsUserPages_writeUser (pid : Pid) (address : VirtAddr) (data : Array UInt8) :
    (writeUser pid address data).KeepsUserPages := by
  unfold writeUser
  generalize Chunk.split address.offset data.size = chunks
  induction chunks with
  | nil => exact .of_still (.pure ())
  | cons chunk rest inductionHypothesis =>
      exact (keepsUserPages_writeChunk pid address data chunk).bind fun _ => inductionHypothesis

theorem keepsUserPages_fetchUser (pid : Pid) (address : VirtAddr) (length : Nat) :
    (fetchUser pid address length).KeepsUserPages := by
  refine ⟨fun before sound user => ?_⟩
  have ends : (readUser pid address length ⟨before, #[]⟩).Ends
      (fun _ read => read.machine.Sound ∧ read.machine.UserPages)
      (fun _ read => read.machine.UserPages) (fun _ => True) := by
    unfold readUser
    refine Action.ends_forM (fun _ (read : UserRead) =>
      read.machine.Sound ∧ read.machine.UserPages) ?_
      ⟨sound, user⟩
    intro chunk rest read kept
    simp only [readChunk, fetchChunk, Action.ends_bind, Action.ends_onPart, Action.ends_get,
      Action.ends_orHalt, Action.ends_pure, Action.ends_modify]
    refine ((keepsUserPages_locateChunk pid address false chunk).ends _ kept.1 kept.2).imp ?_
      (fun _ _ stays => stays) (fun _ _ => trivial)
    exact fun location middle located => ⟨fun _ _ => located, fun _ _ => trivial⟩
  unfold fetchUser
  cases outcome : readUser pid address length { machine := before } with
  | done _ read => rw [outcome] at ends; exact ends
  | failed error read => rw [outcome] at ends; exact ends
  | halted fault => trivial

/-- The copy of a process has pages at the addresses at which the process has some. -/
theorem Copying.userPages {parent child : Pid} {copies : MappingCopies}
    (copying : before.Copying child parent [] copies after) (sound : before.Sound)
    (user : before.UserPages) : after.UserPages := by
  intro pid address page registered
  by_cases same : pid = child
  · cases known : before.page? parent address with
    | none =>
        rw [same, copying.vacant address (.inr known)] at registered
        cases registered
    | some former => exact user parent address former known
  · obtain ⟨former, known, -⟩ := copying.path.exists_page?_of_after sound registered same
    exact user pid address former known

theorem keepsUserPages_fork (sound : before.Sound) (whole : ∀ pid, before.MappingsWhole pid)
    (user : before.UserPages) (parent : Pid) :
    (fork parent before).Ends (fun _ after => after.UserPages) (fun _ after => after.UserPages)
      (fun _ => True) := by
  refine (ends_fork sound whole parent).imp ?_ ?_ (fun _ _ => trivial)
  · rintro _ after ⟨rfl, ⟨copies, copying⟩, -⟩
    exact copying.userPages sound user
  · rintro _ after ⟨path, gone, -⟩ pid address page registered
    by_cases same : pid = ⟨before.nextPid⟩
    · rw [same, page?, gone] at registered
      cases registered
    · obtain ⟨former, known, -⟩ := path.exists_page?_of_after sound registered same
      exact user pid address former known

end Machine

/-! ## Events -/

namespace Event

open Machine

variable {event : Event} {before after : Machine}

/-- An event registers no page of the kernel. Pages of files are registered as a whole mapping
only. -/
theorem userPages (sound : before.Sound) (whole : ∀ pid, before.MappingsWhole pid)
    (user : before.UserPages) (wholeAfter : ∀ pid, after.MappingsWhole pid)
    (below : after.BelowKernel) (leaves : (event.perform before).state? = some after) :
    after.UserPages := by
  have keeps {Value : Type} {action : Action Machine Value} (keeps : action.KeepsUserPages)
      (ran : (action before).state? = some after) : after.UserPages :=
    (keeps.ends before sound user).leaves (fun _ _ both => both.2) (fun _ _ stays => stays) _ ran
  have path := (leads_of_perform sound whole leaves).path
  have others (noRegister : ∀ pid address,
      ¬event.Allows before.nextPid (.register pid address .anonymous)) : after.UserPages := by
    intro pid address page registered
    cases kind : page.kind with
    | anonymous =>
        obtain ⟨former, known, -⟩ := path.exists_page?_of_after sound registered
          (kind ▸ noRegister pid address)
        exact user pid address former known
    | file =>
        cases ofFile : page.region? with
        | none =>
            rw [Page.region?_eq_none_iff.1 ofFile] at kind
            cases kind
        | some region =>
            have mapped : after.mapping? pid address = some region.mapping := by
              apply mapping?_of_region?
              rw [region?, registered, Option.bind_some, ofFile]
            obtain ⟨-, ⟨index, inside, place⟩, -⟩ := (wholeAfter pid).members mapped
            have bound := below pid address region.mapping mapped
            simp only [pageSize] at *
            omega
  cases event with
  | registerPage pid address writable marker loader =>
      exact keeps (keepsUserPages_registerPage pid address writable marker loader) leaves
  | handleFault pid reason => exact keeps (keepsUserPages_handleFault pid reason) leaves
  | loadSegment pid file segment => exact keeps (keepsUserPages_loadSegment pid file segment) leaves
  | setUpStack pid =>
      exact keeps ((keepsUserPages_setUpStack pid).bind fun _ => .of_still (.pure ())) leaves
  | readUser pid address length =>
      exact keeps ((keepsUserPages_fetchUser pid address length).bind fun _ => .of_still (.pure ()))
        leaves
  | writeUser pid address data => exact keeps (keepsUserPages_writeUser pid address data) leaves
  | fork parent =>
      have ends : ((Machine.fork parent >>= fun _ => pure ()) before).Ends
          (fun _ after => after.UserPages) (fun _ after => after.UserPages) (fun _ => True) :=
        Action.ends_bind.2 (keepsUserPages_fork sound whole user parent)
      exact ends.leaves (fun _ _ stays => stays) (fun _ _ stays => stays) _ leaves
  | createProcess | setStackPointer _ _ | access _ _ _
  | changeDisk _ _ | changeFiles _ | changeWorld _ =>
      refine others fun _ _ same => ?_
      cases same
  | exit _ | makeResident _ _ => exact others fun _ _ => id
  | mapFile _ _ _ _ _ _ | mmapCall _ _ _ _ _ _ =>
      refine others fun _ _ allow => ?_
      rcases allow with same | ⟨_, same⟩
      · cases same
      · cases same
  | unmapFile _ _ | munmapCall _ _ =>
      refine others fun _ _ allow => ?_
      obtain ⟨_, same⟩ := allow
      cases same

end Event

theorem Machine.Reachable.userPages {machine : Machine} (reachable : machine.Reachable) :
    machine.UserPages := by
  induction reachable with
  | start settings frames disk files =>
      intro pid address page registered
      simp [create, page?] at registered
  | next reached event leaves inductionHypothesis =>
      have reachable := reached.next event leaves
      exact event.userPages reached.sound reached.mappingsWhole inductionHypothesis
        reachable.mappingsWhole reachable.belowKernel leaves

end DemandPaging
