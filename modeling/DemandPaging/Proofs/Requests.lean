/-!
Requests that are answered one after the other.

Owns:
- `serve`, the replies to some requests and the state that they leave behind;
- that two states that answer every request alike answer all of them alike;
- that a record of the exchanges which every exchange keeps true is true after all of them.

Does not own: what is requested.

Main statements: `serve_alike` and `serve_recorded`.
-/

namespace DemandPaging

variable {State Twin Record Request Reply : Type}

/-- The replies to some requests, one after the other, and the state that they leave behind. -/
def serve (answer : State → Request → Reply × State) (state : State) :
    List Request → List Reply × State
  | [] => ([], state)
  | request :: rest =>
    let (reply, next) := answer state request
    let (replies, last) := serve answer next rest
    (reply :: replies, last)

/-- Two states that stand for each other, and still do after they answered any request alike, answer
all requests alike. -/
theorem serve_alike {answer : State → Request → Reply × State}
    {twinAnswer : Twin → Request → Reply × Twin} (alike : State → Twin → Prop)
    (step : ∀ state twin, alike state twin → ∀ request,
      (answer state request).1 = (twinAnswer twin request).1 ∧
        alike (answer state request).2 (twinAnswer twin request).2)
    {state : State} {twin : Twin} (start : alike state twin) (requests : List Request) :
    (serve answer state requests).1 = (serve twinAnswer twin requests).1 ∧
      alike (serve answer state requests).2 (serve twinAnswer twin requests).2 := by
  induction requests generalizing state twin with
  | nil => exact ⟨rfl, start⟩
  | cons request rest inductionHypothesis =>
      obtain ⟨sameReply, next⟩ := step state twin start request
      obtain ⟨sameReplies, last⟩ := inductionHypothesis next
      refine ⟨?_, last⟩
      simp only [serve]
      rw [sameReply, sameReplies]

/-- What is noted of every request and its reply, one after the other. -/
def noted (note : Record → Request → Reply → Record) (record : Record) :
    List Request → List Reply → Record
  | request :: requests, reply :: replies =>
    noted note (note record request reply) requests replies
  | _, _ => record

/-- A record that is true of a state, and is kept true by any request if its reply is noted, is true
after all requests. -/
theorem serve_recorded {answer : State → Request → Reply × State}
    {note : Record → Request → Reply → Record} (tells : State → Record → Prop)
    (step : ∀ state record, tells state record → ∀ request,
      tells (answer state request).2 (note record request (answer state request).1))
    {state : State} {record : Record} (start : tells state record) (requests : List Request) :
    tells (serve answer state requests).2
      (noted note record requests (serve answer state requests).1) := by
  induction requests generalizing state record with
  | nil => exact start
  | cons request rest inductionHypothesis =>
      exact inductionHypothesis (step state record start request)

end DemandPaging
