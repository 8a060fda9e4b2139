import DemandPaging.Proofs.Reachable

/-!
How long a page of a process is registered.

Owns:
- `Event.Removes`, the events that may remove a page of a process, by the kind of the page;
- that a page which no such event removes stays registered, as the same page;
- what holds all along a run, by its first event and what is left of it.

Does not own: what happens to the page in the meantime (`Machine.Claims`).

Main statement: `Event.page?_cases`.
-/

namespace DemandPaging

open Machine

/-- What may remove a page of a process: the end of the process, and the end of a mapping of a
file. -/
inductive Event.Removes (pid : Pid) : Event → PageKind → Prop where
  | exit (kind : PageKind) : Removes pid (.exit pid) kind
  | unmapFile (address : VirtAddr) : Removes pid (.unmapFile pid address) .file
  | munmapCall (word : Nat) : Removes pid (.munmapCall pid word) .file

namespace Event

variable {event : Event} {before after : Machine} {pid : Pid} {address : VirtAddr}

/-- No other event removes a page of a process that exists. -/
theorem removes_of_allows {next : Nat} {kind : PageKind} (earlier : pid.number < next)
    (allow : event.Allows next (.remove pid address kind)) : event.Removes pid kind := by
  cases event with
  | createProcess | setStackPointer _ _ | access _ _ _
  | changeDisk _ _ | changeFiles _ | changeWorld _ =>
      cases allow
  | fork _ =>
      -- A copy that could not be completed is removed again, but it is a new process.
      have new : pid = ⟨next⟩ := allow
      rw [new] at earlier
      exact absurd earlier (Nat.lt_irrefl next)
  | exit target =>
      have own : pid = target := allow
      rw [← own]
      exact .exit kind
  | registerPage _ _ _ _ _ | handleFault _ _ | loadSegment _ _ _ =>
      exact absurd allow (Move.not_registers_remove address kind)
  | setUpStack _ =>
      rcases allow with registers | same
      · exact absurd registers (Move.not_registers_remove address kind)
      · cases same
  | makeResident _ _ => exact allow.elim
  | readUser _ _ _ => exact absurd allow (Move.not_accesses_remove address kind)
  | writeUser _ _ _ => exact absurd allow (Move.not_writes_remove address kind)
  | mapFile _ _ _ _ _ _ | mmapCall _ _ _ _ _ _ =>
      rcases allow with same | ⟨_, same⟩
      · cases same
      · cases same
  | unmapFile target from' =>
      obtain ⟨_, same⟩ := allow
      cases same
      exact .unmapFile from'
  | munmapCall target word =>
      obtain ⟨_, same⟩ := allow
      cases same
      exact .munmapCall word

/-- What may remove a page registers none. -/
theorem Removes.not_allows_register {next : Nat} {kind : PageKind}
    (removes : event.Removes pid kind) (other : Pid) (added : PageKind) :
    ¬event.Allows next (.register other address added) := by
  cases removes with
  | exit => exact id
  | unmapFile _ | munmapCall _ =>
      rintro ⟨_, same⟩
      cases same

theorem lt_nextPid_of_page? {page : Page} (sound : before.Sound)
    (registered : before.page? pid address = some page) : pid.number < before.nextPid := by
  obtain ⟨space, found, -⟩ := space_of_page? registered
  exact (sound.frames.spaces pid space found).2

/-- A page is registered after an event as well, as the same page, or the event removed it. -/
theorem page?_cases {page : Page} (sound : before.Sound)
    (whole : ∀ pid, before.MappingsWhole pid) (registered : before.page? pid address = some page)
    (leaves : (event.perform before).state? = some after) :
    (∃ changed, after.page? pid address = some changed ∧ page.Continues changed) ∨
      after.page? pid address = none ∧ event.Removes pid page.kind := by
  have path := (leads_of_perform sound whole leaves).path
  have earlier := lt_nextPid_of_page? sound registered
  by_cases removes : event.Removes pid page.kind
  · cases found : after.page? pid address with
    | none => exact .inr ⟨rfl, removes⟩
    | some last =>
        obtain ⟨former, known, continues⟩ := path.exists_page?_of_after sound found
          (removes.not_allows_register pid last.kind)
        rw [registered, Option.some.injEq] at known
        exact .inl ⟨last, rfl, known ▸ continues⟩
  · exact .inl (path.exists_page?_of_kind sound registered fun allow =>
      removes (removes_of_allows earlier allow))

end Event

section Paths

variable {allowed : Move → Prop} {before middle after : Machine} {move : Move} {pid : Pid}
  {address : VirtAddr} {page last : Page}

/-- A page that is there before a path and after one more step is there in between, if it is not
removed, or no other page is registered in its place. -/
theorem Path.exists_page?_between (path : Path allowed before middle) (sound : before.Sound)
    (registered : before.page? pid address = some page)
    (alone : ¬allowed (.remove pid address page.kind) ∨
      ∀ kind, ¬allowed (.register pid address kind))
    (step : Step move middle after) (allow : allowed move)
    (found : after.page? pid address = some last) : ∃ now, middle.page? pid address = some now := by
  rcases alone with stays | noRegister
  · obtain ⟨now, known, -⟩ := path.exists_page?_of_kind sound registered stays
    exact ⟨now, known⟩
  · have single : Path allowed middle after := .single step allow
    obtain ⟨now, known, -⟩ :=
      single.exists_page?_of_after (path.sound sound) found (noRegister _)
    exact ⟨now, known⟩

/-- So none of the steps removes it. -/
theorem Path.not_removing (path : Path allowed before after) (sound : before.Sound)
    (registered : before.page? pid address = some page)
    (alone : ¬allowed (.remove pid address page.kind) ∨
      ∀ kind, ¬allowed (.register pid address kind))
    (found : after.page? pid address = some last) :
    Path (fun move => allowed move ∧ ∀ kind, move ≠ .remove pid address kind) before after := by
  induction path generalizing last with
  | refl => exact .refl before
  | @tail middle after earlier stepped inductionHypothesis =>
      obtain ⟨move, allow, step⟩ := stepped
      have reached : Path allowed before middle := earlier
      obtain ⟨now, known⟩ :=
        reached.exists_page?_between sound registered alone step allow found
      exact (inductionHypothesis known).snoc step
        ⟨allow, step.ne_remove (reached.sound sound).frames found⟩

end Paths

namespace Machine

variable {machine next : Machine} {event : Event} {rest : List Event}

/-! ## The states and the events of a run -/

/-- What holds of every state of a run holds of its first state and of every state of what is left
of the run. -/
theorem forall_states_cons {condition : Machine → Prop}
    (leaves : (event.perform machine).state? = some next) :
    (∀ past state, past <+: event :: rest → machine.after? past = some state → condition state) ↔
      condition machine ∧
        ∀ past state, past <+: rest → next.after? past = some state → condition state := by
  constructor
  · intro holds
    refine ⟨holds [] machine (List.nil_prefix) rfl, fun past state earlier reached => ?_⟩
    refine holds (event :: past) state (List.cons_prefix_cons.2 ⟨rfl, earlier⟩) ?_
    rw [after?, leaves]
    exact reached
  · intro holds past state earlier reached
    cases past with
    | nil =>
        cases reached
        exact holds.1
    | cons head past =>
        obtain ⟨rfl, inside⟩ := List.cons_prefix_cons.1 earlier
        rw [after?, leaves] at reached
        exact holds.2 past state inside reached

/-- What holds of every event of a run, where it happens, holds of the first event and of every
event of what is left of the run. -/
theorem forall_events_cons {condition : Event → Machine → Prop}
    (leaves : (event.perform machine).state? = some next) :
    (∀ past other before, past ++ [other] <+: event :: rest →
        machine.after? past = some before → condition other before) ↔
      condition event machine ∧
        ∀ past other before, past ++ [other] <+: rest → next.after? past = some before →
          condition other before := by
  constructor
  · intro holds
    refine ⟨holds [] event machine (by simp) rfl, fun past other before earlier reached => ?_⟩
    refine holds (event :: past) other before (List.cons_prefix_cons.2 ⟨rfl, earlier⟩) ?_
    rw [after?, leaves]
    exact reached
  · intro holds past other before earlier reached
    cases past with
    | nil =>
        cases reached
        obtain ⟨rfl, -⟩ := List.cons_prefix_cons.1 earlier
        exact holds.1
    | cons head past =>
        obtain ⟨rfl, inside⟩ := List.cons_prefix_cons.1 earlier
        rw [after?, leaves] at reached
        exact holds.2 past other before inside reached

end Machine

end DemandPaging
