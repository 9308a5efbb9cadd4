import RulesElide.Library.Pipe
import RulesElide.Library.Transition
import RulesElide.Platform.Values

/-!
# The resident worker

`ElideWorker.compile` as the phases of a call, interleaved with what the child processes do.
A child is a server behind two pipes that may answer a request with anything, leave it
unanswered, close its output or die at any time; what it does not do is write a message for
no request, or answer out of order.

The id of a response is no proof of what it answers: `0` is accepted for every request, and
ids come again after `2 ^ 32` calls.  What pairs a response with its request is `Paired`:
between two calls the pipes of the attached process are empty, and during a call they hold
that one request or its answer.  The `catch` clause of `compile` keeps this up for exceptions;
an error of the JVM passes it by (`Escape`).
-/

namespace RulesElide.KotlinBuilder

open Transition

/-! ## Messages -/

/-- `WorkRequest`, as `compile` builds it, and the number of the call that built it. -/
structure Request where
  call : ℕ
  requestId : JavaInt
  arguments : List String
  /-- The paths and digests of the inputs. -/
  inputs : List (String × Bytes)
  deriving DecidableEq

/-- `WorkResponse`. -/
structure Response where
  exitCode : JavaInt
  output : String
  requestId : JavaInt
  deriving DecidableEq

/-- What a child writes for a request: a response, or bytes that are none. -/
abbrev Message := Request × Option Response

/-! ## Children -/

/-- A process `elide kotlinc --persistent_worker`. -/
structure Child where
  isAlive : Bool := true
  /-- Its output is closed. -/
  isClosed : Bool := false
  pipe : Pipe Request (Option Response) := {}
  /-- All messages it ever wrote. -/
  sent : List Message := []

/-- What a child does by itself. -/
inductive Child.Step : Child → Child → Prop
  /-- It reads a request, or writes a message. -/
  | serve {child : Child} {pipe : Pipe Request (Option Response)} {written : List Message}
      (halive : child.isAlive = true) (hstep : child.pipe.Step pipe)
      (hwritten : pipe.replies = child.pipe.replies ++ written)
      (hopen : child.isClosed = true → written = []) :
      Step child { child with pipe, sent := child.sent ++ written }
  | close {child : Child} (halive : child.isAlive = true) :
      Step child { child with isClosed := true }
  | die {child : Child} : Step child { child with isAlive := false }

/-- Every message in the pipe was written. -/
def Child.Recorded (child : Child) : Prop :=
  child.pipe.replies ⊆ child.sent

/-! ## The worker -/

/-- How a call ended. -/
inductive Outcome
  | returned (process : ℕ) (request : Request) (message : Message) (response : Response)
  | threw
  deriving DecidableEq

/-- Where a call of `compile` is. -/
inductive Phase
  /-- No call is running; how the last one ended. -/
  | idle (last : Option Outcome)
  /-- After `ensureStarted`: the request is built. -/
  | started (process : ℕ) (request : Request)
  /-- The request is written to the process. -/
  | written (process : ℕ) (request : Request)
  /-- The request is written to the record sink, if there is one. -/
  | recorded (process : ℕ) (request : Request)
  deriving DecidableEq

structure ResidentWorld where
  /-- The processes by their numbers, of which the first `count` were started. -/
  children : ℕ → Child := fun _ => {}
  count : ℕ := 0
  /-- `process`. -/
  process : Option ℕ := none
  /-- `nextId`. -/
  nextId : JavaInt := 1
  /-- The number of requests that were built. -/
  calls : ℕ := 0
  hasRecordSink : Bool
  phase : Phase := .idle none

namespace ResidentWorld

def setChild (world : ResidentWorld) (process : ℕ) (child : Child) : ResidentWorld :=
  { world with children := Function.update world.children process child }

/-- The attached process is alive. -/
def IsLive (world : ResidentWorld) (process : ℕ) : Prop :=
  world.process = some process ∧ (world.children process).isAlive = true

/-- `ProcessBuilder(…).start()`, and `process = p`. -/
def start (world : ResidentWorld) : ResidentWorld :=
  { world.setChild world.count {} with count := world.count + 1, process := some world.count }

/-- The part of `compile` in front of the `try`, after `ensureStarted` returned a process. -/
def begin (world : ResidentWorld) (process : ℕ) (arguments : List String)
    (inputs : List (String × Bytes)) : ResidentWorld :=
  { world with
    nextId := world.nextId + 1
    calls := world.calls + 1
    phase := .started process ⟨world.calls, world.nextId, arguments, inputs⟩ }

/-- The request is in the pipe of the process. -/
def deliver (world : ResidentWorld) (process : ℕ) (request : Request) : ResidentWorld :=
  let child := world.children process
  world.setChild process { child with pipe := child.pipe.send request }

/-- The next message of the process is read. -/
def consume (world : ResidentWorld) (process : ℕ) : ResidentWorld :=
  let child := world.children process
  world.setChild process
    { child with pipe := { child.pipe with replies := child.pipe.replies.tail } }

/-- `kill()`, and the exception leaves `compile`.  A process that is no longer attached may
go on for a while. -/
def fail (world : ResidentWorld) : ResidentWorld :=
  { world with process := none, phase := .idle (some .threw) }

/-- Something that `catch (e: Exception)` does not catch leaves `compile`. -/
def escape (world : ResidentWorld) : ResidentWorld :=
  { world with phase := .idle (some .threw) }

end ResidentWorld

/-- `check(resp.requestId == id || resp.requestId == 0)`, on a message that is a response. -/
def accepted (message : Message) (requestId : JavaInt) : Option Response :=
  message.2.filter fun response =>
    decide (response.requestId = requestId ∨ response.requestId = 0)

open ResidentWorld

/-- An error of the JVM is thrown while a call has a process.  A message that it cuts in two
counts as not touched, or as sent or read. -/
inductive Escape (world : ResidentWorld) : ResidentWorld → Prop
  | write {process : ℕ} {request : Request} (delivered : Bool)
      (hphase : world.phase = .started process request) :
      Escape world (if delivered then world.deliver process request else world).escape
  | record {process : ℕ} {request : Request} (hphase : world.phase = .written process request) :
      Escape world world.escape
  | read {process : ℕ} {request : Request} (consumed : Bool)
      (hphase : world.phase = .recorded process request) :
      Escape world (if consumed then world.consume process else world).escape

/-- One step of a call, or of a child. -/
inductive ResidentStep : ResidentWorld → ResidentWorld → Prop
  /-- `ensureStarted` returns the process there is. -/
  | reuse {world : ResidentWorld} {last : Option Outcome} {process : ℕ} (arguments : List String)
      (inputs : List (String × Bytes)) (hphase : world.phase = .idle last)
      (hlive : world.IsLive process) : ResidentStep world (world.begin process arguments inputs)
  /-- `ensureStarted` starts a process. -/
  | start {world : ResidentWorld} {last : Option Outcome} (arguments : List String)
      (inputs : List (String × Bytes)) (hphase : world.phase = .idle last)
      (hdead : ∀ process, ¬ world.IsLive process) :
      ResidentStep world (world.start.begin world.count arguments inputs)
  /-- `ensureStarted` throws. -/
  | startFails {world : ResidentWorld} {last : Option Outcome} (hphase : world.phase = .idle last)
      (hdead : ∀ process, ¬ world.IsLive process) :
      ResidentStep world { world with phase := .idle (some .threw) }
  | write {world : ResidentWorld} {process : ℕ} {request : Request}
      (hphase : world.phase = .started process request) :
      ResidentStep world { world.deliver process request with phase := .written process request }
  /-- Writing fails, before or after the process can read the whole request. -/
  | writeFails {world : ResidentWorld} {process : ℕ} {request : Request} (delivered : Bool)
      (hphase : world.phase = .started process request) :
      ResidentStep world (if delivered then world.deliver process request else world).fail
  | record {world : ResidentWorld} {process : ℕ} {request : Request}
      (hphase : world.phase = .written process request) :
      ResidentStep world { world with phase := .recorded process request }
  | recordFails {world : ResidentWorld} {process : ℕ} {request : Request}
      (hphase : world.phase = .written process request) (hsink : world.hasRecordSink = true) :
      ResidentStep world world.fail
  | accept {world : ResidentWorld} {process : ℕ} {request : Request} {message : Message}
      {response : Response} (hphase : world.phase = .recorded process request)
      (hmessage : (world.children process).pipe.replies.head? = some message)
      (haccepted : accepted message request.requestId = some response) :
      ResidentStep world { world.consume process with
        phase := .idle (some (.returned process request message response)) }
  /-- The message is no response, or one with another id. -/
  | reject {world : ResidentWorld} {process : ℕ} {request : Request} {message : Message}
      (hphase : world.phase = .recorded process request)
      (hmessage : (world.children process).pipe.replies.head? = some message)
      (hrejected : accepted message request.requestId = none) :
      ResidentStep world (world.consume process).fail
  /-- The output of the process has ended. -/
  | endOfStream {world : ResidentWorld} {process : ℕ} {request : Request}
      (hphase : world.phase = .recorded process request)
      (hmessage : (world.children process).pipe.replies = [])
      (hended : (world.children process).isAlive = false ∨
        (world.children process).isClosed = true) :
      ResidentStep world world.fail
  | escape {world after : ResidentWorld} (h : Escape world after) : ResidentStep world after
  /-- `close`. -/
  | close {world : ResidentWorld} {last : Option Outcome} (hphase : world.phase = .idle last) :
      ResidentStep world { world with process := none, phase := .idle none }
  | child {world : ResidentWorld} {process : ℕ} {child : Child} (hstarted : process < world.count)
      (hstep : (world.children process).Step child) :
      ResidentStep world (world.setChild process child)

/-- A worker that has not been called. -/
def ResidentInitial (world : ResidentWorld) : Prop :=
  ∃ hasRecordSink, world = { hasRecordSink }

/-- An error leaves `compile` while its process is alive. -/
def LeavesLive (world after : ResidentWorld) : Prop :=
  Escape world after ∧ ∃ process, world.IsLive process

/-- Any other step. -/
def CaughtStep (world after : ResidentWorld) : Prop :=
  ResidentStep world after ∧ ¬ LeavesLive world after

/-- What the callers of `compile` rely on. -/
structure PairsRequests (world : ResidentWorld) : Prop where
  /-- When a call can start, the attached process has nothing to read, to answer or to be read. -/
  idle : ∀ last process, world.phase = .idle last → world.IsLive process →
    (world.children process).pipe.unread = [] ∧ (world.children process).pipe.pending = [] ∧
      (world.children process).pipe.replies = []
  /-- A call that returned did so with the response of its own process to its own request. -/
  returned : ∀ process request message response,
    world.phase = .idle (some (.returned process request message response)) →
      message ∈ (world.children process).sent ∧ message.1 = request ∧
        message.2 = some response ∧ request.call + 1 = world.calls
  /-- After a call that threw no live process is attached, and the next call starts a new one. -/
  threw : world.phase = .idle (some .threw) →
    (∀ process, ¬ world.IsLive process) ∧
      ∀ after process request, ResidentStep world after → after.phase = .started process request →
        process = world.count

/-! ## The invariant -/

structure Paired (world : ResidentWorld) : Prop where
  sent : ∀ process, (world.children process).Recorded
  idle : ∀ last, world.phase = .idle last →
    ∀ process, world.IsLive process → (world.children process).pipe.Idle
  threw : world.phase = .idle (some .threw) → ∀ process, ¬ world.IsLive process
  returned : ∀ process request message response,
    world.phase = .idle (some (.returned process request message response)) →
      message.1 = request ∧ message.2 = some response ∧
        message ∈ (world.children process).sent ∧ request.call + 1 = world.calls
  started : ∀ process request, world.phase = .started process request →
    world.process = some process ∧ (world.children process).pipe.Idle ∧
      request.call + 1 = world.calls
  waiting : ∀ process request,
    world.phase = .written process request ∨ world.phase = .recorded process request →
      world.process = some process ∧
        (world.children process).pipe.inFlight.Sublist [request] ∧
          request.call + 1 = world.calls

variable {world after : ResidentWorld} {process : ℕ} {child child' : Child} {request : Request}

/-! ## Steps of a child -/

/-- A child finishes with requests in their order and gets no new ones by itself. -/
theorem Child.Step.inFlight_sublist (h : child.Step child') :
    child'.pipe.inFlight.Sublist child.pipe.inFlight := by
  cases h with
  | serve _ hstep => exact hstep.inFlight_sublist
  | close | die => exact List.Sublist.refl _

theorem Child.Step.idle (h : child.Step child') (hidle : child.pipe.Idle) : child'.pipe.Idle := by
  have hsublist := h.inFlight_sublist
  rw [hidle] at hsublist
  exact List.sublist_nil.mp hsublist

theorem Child.Step.isAlive (h : child.Step child') (halive : child'.isAlive = true) :
    child.isAlive = true := by
  cases h with
  | serve hbefore | close hbefore => exact hbefore
  | die => exact absurd halive Bool.false_ne_true

theorem Child.Step.sent_subset (h : child.Step child') : child.sent ⊆ child'.sent := by
  cases h with
  | serve => exact List.subset_append_left _ _
  | close | die => exact fun _ hmem => hmem

theorem Child.Step.recorded (h : child.Step child') (hsent : child.Recorded) :
    child'.Recorded := by
  cases h with
  | serve _ _ hwritten _ =>
      unfold Child.Recorded
      rw [hwritten]
      exact List.append_subset.mpr ⟨List.subset_append_of_subset_left _ hsent,
        List.subset_append_right _ _⟩
  | close | die => exact hsent

/-! ## Steps of the worker -/

@[simp] theorem ResidentWorld.setChild_children_self :
    (world.setChild process child).children process = child :=
  Function.update_self _ _ _

theorem ResidentWorld.setChild_children_of_ne {other : ℕ} (h : other ≠ process) :
    (world.setChild process child).children other = world.children other :=
  Function.update_of_ne h _ _

/-- What holds of every child still holds when it holds of the one that changed. -/
theorem ResidentWorld.forall_setChild {holds : Child → Prop}
    (h : ∀ other, holds (world.children other)) (hchild : holds child) :
    ∀ other, holds ((world.setChild process child).children other) := by
  intro other
  rcases eq_or_ne other process with rfl | hne
  · rwa [setChild_children_self]
  · rw [setChild_children_of_ne hne]
    exact h other

/-- A change that leaves the child alive or dead. -/
theorem ResidentWorld.isLive_setChild {other : ℕ}
    (halive : child.isAlive = (world.children process).isAlive) :
    (world.setChild process child).IsLive other ↔ world.IsLive other := by
  have hchildren : ((world.setChild process child).children other).isAlive =
      (world.children other).isAlive := by
    rcases eq_or_ne other process with rfl | hne
    · rw [setChild_children_self, halive]
    · rw [setChild_children_of_ne hne]
  unfold IsLive
  rw [hchildren]
  rfl

/-- An error leaves the process as it is, whatever became of the messages. -/
theorem Escape.spec (h : Escape world after) :
    after.phase = .idle (some .threw) ∧ ∀ process, after.IsLive process ↔ world.IsLive process := by
  cases h with
  | @write process request delivered _ =>
      cases delivered with
      | false => exact ⟨rfl, fun _ => Iff.rfl⟩
      | true => exact ⟨rfl, fun _ => @isLive_setChild world process _ _ rfl⟩
  | record => exact ⟨rfl, fun _ => Iff.rfl⟩
  | @read process request consumed _ =>
      cases consumed with
      | false => exact ⟨rfl, fun _ => Iff.rfl⟩
      | true => exact ⟨rfl, fun _ => @isLive_setChild world process _ _ rfl⟩

theorem ResidentWorld.deliver_sent (h : ∀ process, (world.children process).Recorded)
    (process : ℕ) (request : Request) :
    ∀ other, ((world.deliver process request).children other).Recorded :=
  forall_setChild h (h process)

theorem ResidentWorld.consume_sent (h : ∀ process, (world.children process).Recorded)
    (process : ℕ) : ∀ other, ((world.consume process).children other).Recorded :=
  forall_setChild h (List.Subset.trans (List.tail_subset _) (h process))

theorem Escape.sent (h : Escape world after)
    (hsent : ∀ process, (world.children process).Recorded) :
    ∀ process, (after.children process).Recorded := by
  cases h with
  | @write process request delivered _ =>
      cases delivered with
      | false => exact hsent
      | true => exact deliver_sent hsent process request
  | record => exact hsent
  | @read process request consumed _ =>
      cases consumed with
      | false => exact hsent
      | true => exact consume_sent hsent process

/-- A call that threw is done with its process, when that is not attached or not alive. -/
theorem Paired.of_threw (hsent : ∀ process, (world.children process).Recorded)
    (hphase : world.phase = .idle (some .threw)) (hdead : ∀ process, ¬ world.IsLive process) :
    Paired world where
  sent := hsent
  idle _ _ process hlive := absurd hlive (hdead process)
  threw _ := hdead
  returned _ _ _ _ hreturned := nomatch hphase.symm.trans hreturned
  started _ _ hstarted := nomatch hphase.symm.trans hstarted
  waiting _ _ hwaiting := by
    rcases hwaiting with hwaiting | hwaiting <;> exact nomatch hphase.symm.trans hwaiting

theorem Paired.fail (h : ∀ process, (world.children process).Recorded) : Paired world.fail :=
  Paired.of_threw h rfl fun _ hlive => nomatch hlive.1

theorem Paired.begin (h : ∀ process, (world.children process).Recorded)
    (hprocess : world.process = some process) (hidle : (world.children process).pipe.Idle)
    (arguments : List String) (inputs : List (String × Bytes)) :
    Paired (world.begin process arguments inputs) where
  sent := h
  idle _ hphase := nomatch hphase
  threw hphase := nomatch hphase
  returned _ _ _ _ hphase := nomatch hphase
  started _ _ hphase := by
    obtain ⟨rfl, rfl⟩ := Phase.started.inj hphase
    exact ⟨hprocess, hidle, rfl⟩
  waiting _ _ hphase := by rcases hphase with hphase | hphase <;> exact nomatch hphase

theorem content_of_accepted {message : Message} {response : Response} {requestId : JavaInt}
    (h : accepted message requestId = some response) : message.2 = some response :=
  (Option.filter_eq_some_iff.mp h).1

/-- The message that is read is for the request, and nothing is left. -/
theorem Paired.accept (h : Paired world) {message : Message} {response : Response}
    (hphase : world.phase = .recorded process request)
    (hmessage : (world.children process).pipe.replies.head? = some message)
    (haccepted : accepted message request.requestId = some response) :
    Paired { world.consume process with
      phase := .idle (some (.returned process request message response)) } := by
  obtain ⟨hprocess, hopen, hcall⟩ := h.waiting process request (Or.inr hphase)
  -- the pipe holds one request at most, so this reply empties it
  obtain ⟨rest, hreplies⟩ := List.head?_eq_some_iff.mp hmessage
  obtain ⟨hrequest, hempty⟩ := Pipe.eq_of_inFlight hopen hreplies
  have hsent : message ∈ (world.children process).sent :=
    h.sent process (List.mem_of_head? hmessage)
  refine ⟨consume_sent h.sent process, ?_, nofun, ?_, nofun, ?_⟩
  · intro _ _ other hlive
    obtain rfl : process = other := Option.some.inj (hprocess.symm.trans hlive.1)
    change ((world.setChild process _).children process).pipe.Idle
    rw [setChild_children_self, hreplies]
    exact hempty
  · intro _ _ _ _ hreturned
    obtain ⟨rfl, rfl, rfl, rfl⟩ := Outcome.returned.inj (Option.some.inj (Phase.idle.inj hreturned))
    refine ⟨hrequest, content_of_accepted haccepted, ?_, hcall⟩
    change message ∈ ((world.setChild process _).children process).sent
    rw [setChild_children_self]
    exact hsent
  · intro _ _ hwaiting
    rcases hwaiting with hwaiting | hwaiting <;> exact nomatch hwaiting

theorem Paired.of_child (h : Paired world) (hstep : (world.children process).Step child) :
    Paired (world.setChild process child) := by
  have hopen : ∀ other, ((world.setChild process child).children other).pipe.inFlight.Sublist
      (world.children other).pipe.inFlight := by
    intro other
    rcases eq_or_ne other process with rfl | hne
    · rw [setChild_children_self]
      exact hstep.inFlight_sublist
    · rw [setChild_children_of_ne hne]
  have hidle : ∀ other, (world.children other).pipe.Idle →
      ((world.setChild process child).children other).pipe.Idle := by
    intro other hidle
    rcases eq_or_ne other process with rfl | hne
    · rw [setChild_children_self]
      exact hstep.idle hidle
    · rwa [setChild_children_of_ne hne]
  have hsent : ∀ other, (world.children other).sent ⊆
      ((world.setChild process child).children other).sent := by
    intro other
    rcases eq_or_ne other process with rfl | hne
    · rw [setChild_children_self]
      exact hstep.sent_subset
    · rw [setChild_children_of_ne hne]
      exact fun _ hmem => hmem
  -- a child does not come to life again
  have hlive : ∀ other, (world.setChild process child).IsLive other → world.IsLive other := by
    intro other hlive
    obtain ⟨hother, halive⟩ := hlive
    refine ⟨hother, ?_⟩
    rcases eq_or_ne other process with rfl | hne
    · rw [setChild_children_self] at halive
      exact hstep.isAlive halive
    · rwa [setChild_children_of_ne hne] at halive
  refine ⟨forall_setChild h.sent (hstep.recorded (h.sent process)), ?_, ?_, ?_, ?_, ?_⟩
  · intro last hphase other hother
    exact hidle other (h.idle last hphase other (hlive other hother))
  · intro hphase other hother
    exact h.threw hphase other (hlive other hother)
  · intro other request message response hphase
    obtain ⟨hrequest, hcontent, hmem, hcall⟩ := h.returned other request message response hphase
    exact ⟨hrequest, hcontent, hsent other hmem, hcall⟩
  · intro other request hphase
    obtain ⟨hprocess, hempty, hcall⟩ := h.started other request hphase
    exact ⟨hprocess, hidle other hempty, hcall⟩
  · intro other request hphase
    obtain ⟨hprocess, hwaiting, hcall⟩ := h.waiting other request hphase
    exact ⟨hprocess, (hopen other).trans hwaiting, hcall⟩

/-- The pipes of a new process are empty. -/
theorem Paired.start (h : Paired world) (arguments : List String)
    (inputs : List (String × Bytes)) : Paired (world.start.begin world.count arguments inputs) := by
  apply Paired.begin
  · exact forall_setChild h.sent (show Child.Recorded {} from List.Subset.refl _)
  · rfl
  · change ((world.setChild world.count {}).children world.count).pipe.Idle
    rw [setChild_children_self]
    exact Pipe.idle_new

/-- The request that is written is the only one in the pipe. -/
theorem Paired.write (h : Paired world) (hphase : world.phase = .started process request) :
    Paired { world.deliver process request with phase := .written process request } := by
  obtain ⟨hprocess, hidle, hcall⟩ := h.started process request hphase
  refine ⟨deliver_sent h.sent process request, nofun, nofun, nofun, nofun, ?_⟩
  intro _ _ hwaiting
  rcases hwaiting with hwritten | hrecorded
  · obtain ⟨rfl, rfl⟩ := Phase.written.inj hwritten
    refine ⟨hprocess, ?_, hcall⟩
    change ((world.setChild process _).children process).pipe.inFlight.Sublist [request]
    rw [setChild_children_self, Pipe.inFlight_send, hidle]
    exact List.Sublist.refl _
  · exact nomatch hrecorded

theorem Paired.record (h : Paired world) (hphase : world.phase = .written process request) :
    Paired { world with phase := .recorded process request } := by
  refine ⟨h.sent, nofun, nofun, nofun, nofun, ?_⟩
  intro _ _ hwaiting
  rcases hwaiting with hwaiting | hrecorded
  · exact nomatch hwaiting
  · obtain ⟨rfl, rfl⟩ := Phase.recorded.inj hrecorded
    exact h.waiting process request (Or.inl hphase)

/-- **One step.**  Only an error that finds the process alive leaves its messages in the pipes. -/
theorem Paired.step (h : Paired world) (hstep : CaughtStep world after) : Paired after := by
  obtain ⟨hstep, hcaught⟩ := hstep
  cases hstep with
  | @reuse last process arguments inputs hphase hlive =>
      exact Paired.begin h.sent hlive.1 (h.idle last hphase process hlive) arguments inputs
  | start arguments inputs => exact h.start arguments inputs
  | startFails hphase hdead => exact Paired.of_threw h.sent rfl hdead
  | write hphase => exact h.write hphase
  | @writeFails process request delivered hphase =>
      cases delivered with
      | false => exact Paired.fail h.sent
      | true => exact Paired.fail (deliver_sent h.sent process request)
  | record hphase => exact h.record hphase
  -- from here on the request is in the pipe, and only `accept` keeps the process
  | recordFails => exact Paired.fail h.sent
  | accept hphase hmessage haccepted => exact h.accept hphase hmessage haccepted
  | reject => exact Paired.fail (consume_sent h.sent _)
  | endOfStream => exact Paired.fail h.sent
  | escape hescape =>
      -- the process of the call is dead, so the next call does not use it
      obtain ⟨hphase, hlive⟩ := hescape.spec
      exact Paired.of_threw (hescape.sent h.sent) hphase fun process hprocess =>
        hcaught ⟨hescape, process, (hlive process).mp hprocess⟩
  | close =>
      exact ⟨h.sent, fun _ _ _ hlive => (nomatch hlive.1), nofun, nofun, nofun,
        fun _ _ hwaiting => hwaiting.elim nofun nofun⟩
  | child hstarted hstep => exact h.of_child hstep

theorem Paired.of_reachable (h : Reachable ResidentInitial CaughtStep world) : Paired world := by
  refine h.invariant ?_ fun _ _ => Paired.step
  intro _ hinitial
  obtain ⟨hasRecordSink, rfl⟩ := hinitial
  exact ⟨fun _ => List.Subset.refl _, fun _ _ _ hlive => (nomatch hlive.1), nofun, nofun, nofun,
    fun _ _ hwaiting => hwaiting.elim nofun nofun⟩

/-! ## Pairing -/

theorem Paired.pairsRequests (h : Paired world) : PairsRequests world where
  idle last process hphase hlive := by
    have hidle := h.idle last hphase process hlive
    simp only [Pipe.Idle, Pipe.inFlight, List.append_eq_nil_iff, List.map_eq_nil_iff] at hidle
    obtain ⟨⟨hreplies, hpending⟩, hunread⟩ := hidle
    exact ⟨hunread, hpending, hreplies⟩
  returned process request message response hphase := by
    obtain ⟨hrequest, hcontent, hsent, hcall⟩ :=
      h.returned process request message response hphase
    exact ⟨hsent, hrequest, hcontent, hcall⟩
  threw hphase := by
    refine ⟨h.threw hphase, ?_⟩
    intro after process request hstep hstarted
    cases hstep with
    | reuse _ _ _ hlive => exact absurd hlive (h.threw hphase _)
    | start => exact (Phase.started.inj hstarted).1.symm
    | escape hescape =>
        have hthrown := hescape.spec.1.symm.trans hstarted
        cases hthrown
    | child =>
        have hidle := hphase.symm.trans hstarted
        cases hidle
    | _ => cases hstarted

/-- **Pairing.**  As long as no error leaves a call whose process is alive, whatever else fails
and whatever the processes do, the callers get what they rely on; and no such error leaves them
with it. -/
theorem responses_pair_with_requests (h : Reachable ResidentInitial CaughtStep world) :
    PairsRequests world ∧
      ∀ after, ResidentStep world after → (PairsRequests after ↔ ¬ LeavesLive world after) := by
  have hpaired := Paired.of_reachable h
  refine ⟨hpaired.pairsRequests, fun after hstep => ⟨?_, fun hcaught => ?_⟩⟩
  · rintro hpairs ⟨hescape, process, hlive⟩
    obtain ⟨hphase, hsame⟩ := hescape.spec
    exact (hpairs.threw hphase).1 process ((hsame process).mpr hlive)
  · exact (hpaired.step ⟨hstep, hcaught⟩).pairsRequests

/-! ## Two runs -/

theorem CaughtStep.of_phase (hstep : ResidentStep world after)
    (hphase : after.phase ≠ .idle (some .threw)) : CaughtStep world after :=
  ⟨hstep, fun hleaves => hphase hleaves.1.spec.1⟩

/-- The first request of a worker. -/
def firstRequest : Request := ⟨0, 1, ["A.kt"], []⟩

/-- The answer to it has no id. -/
def firstMessage : Message := (firstRequest, some ⟨0, "", 0⟩)

/-- The first process has answered the first request, and nobody has read the answer. -/
theorem reachable_answered :
    ∃ world : ResidentWorld, Reachable ResidentInitial CaughtStep world ∧
      world.phase = .recorded 0 firstRequest ∧ world.process = some 0 ∧ world.calls = 1 ∧
        (world.children 0).isAlive = true ∧
          (world.children 0).pipe = ⟨[], [], [firstMessage]⟩ := by
  have hinitial : Reachable ResidentInitial CaughtStep { hasRecordSink := false } :=
    Reachable.start ⟨false, rfl⟩
  have hstarted := hinitial.next
    (.of_phase (.start ["A.kt"] [] rfl fun _ hlive => nomatch hlive.1) nofun)
  have hwritten := hstarted.next (.of_phase (.write rfl) nofun)
  have hrecorded := hwritten.next (.of_phase (.record rfl) nofun)
  have hread := hrecorded.next (.of_phase
    (.child Nat.zero_lt_one (.serve rfl Pipe.Step.read rfl nofun)) nofun)
  have hreply : Pipe.Step (⟨[], [] ++ [firstRequest], []⟩ : Pipe Request (Option Response))
      ⟨[], [], [firstMessage]⟩ := Pipe.Step.reply
  have hanswered := hread.next (.of_phase
    (.child Nat.zero_lt_one (.serve rfl hreply rfl nofun)) nofun)
  exact ⟨_, hanswered, rfl, rfl, rfl, rfl, rfl⟩

/-- The call reads the answer and returns. -/
theorem responses_pair_with_requests_sample :
    ∃ world : ResidentWorld, world.phase =
        .idle (some (.returned 0 firstRequest firstMessage ⟨0, "", 0⟩)) ∧ PairsRequests world := by
  obtain ⟨world, hreachable, hphase, -, -, -, hpipe⟩ := reachable_answered
  have haccept := ResidentStep.accept hphase (by rw [hpipe]; rfl)
    (show accepted firstMessage firstRequest.requestId = some ⟨0, "", 0⟩ from rfl)
  have hreturned := hreachable.next (.of_phase haccept nofun)
  exact ⟨_, rfl, (responses_pair_with_requests hreturned).1⟩

/-- An error leaves the first call before it reads the answer, and the second call returns with
that. -/
theorem error_leaves_answer_to_next_call :
    ¬ ∀ world, Reachable ResidentInitial ResidentStep world → PairsRequests world := by
  intro h
  obtain ⟨world, hreachable, hphase, hprocess, hcalls, halive, hpipe⟩ := reachable_answered
  have hstart := hreachable.mono fun _ _ => And.left
  have hescaped := hstart.next (.escape (.read false hphase))
  have hreused := hescaped.next (.reuse ["B.kt"] [] rfl ⟨hprocess, halive⟩)
  have hwritten := hreused.next (.write rfl)
  have hrecorded := hwritten.next (.record rfl)
  -- the id 0 is accepted for the second request as well
  have hid : ∀ requestId, accepted firstMessage requestId = some ⟨0, "", 0⟩ := by
    intro requestId
    simp [accepted, firstMessage]
  have haccepted := hrecorded.next (.accept rfl ?_ (hid _))
  · obtain ⟨-, hrequest, -, -⟩ := (h _ haccepted).returned _ _ _ _ rfl
    have hcall : 0 = world.calls := congrArg Request.call hrequest
    rw [hcalls] at hcall
    cases hcall
  · change ((world.setChild 0 _).children 0).pipe.replies.head? = _
    rw [setChild_children_self]
    exact congrArg (fun pipe => pipe.replies.head?) hpipe

end RulesElide.KotlinBuilder
