import RulesElide.IncrementalWorker.Packing
import RulesElide.Library.Pipe
import RulesElide.WorkerProtocol.Framing
import RulesElide.WorkerProtocol.Responses

/-!
# The request loop

`main` reads requests, calls `handle` and writes a response for each.  The compiler processes
are servers behind pipes: a process answers each message it has read at most once, with any
id, and may at any time end or write what is no response.  `one_response_for_each_request` says
what the loop has written after any number of turns.
-/

namespace RulesElide.IncrementalWorker

open Effects Transition WorkerProtocol

/-! ## `main` -/

/-- A message to a compiler process: the number of the request in the stream, and the request
as it is forwarded. -/
abbrev Sent := ℕ × WorkRequest

/-- The pipes of the compiler processes. -/
abbrev Pipes := ℕ → Pipe Sent WorkResponse

/-- What happens on the pipes during the call for request number `index`: `Talks … after
received` leads to the pipes `after`, and `received` is what the call reads from them. -/
inductive Talks (platform : Platform) (scratch : Path) (env : Environment) (request : WorkRequest)
    (world : World) (index : ℕ) (pipes : Pipes) : Pipes → Option (Sent × WorkResponse) → Prop
  | silent {after : Pipes}
      (hsends : ∀ process forwarded, ¬ Sends platform scratch env request world process forwarded)
      (hserves : ∀ number, (pipes number).Serves (after number)) :
      Talks platform scratch env request world index pipes after none
  | unanswered {process : ℕ} {forwarded : WorkRequest} {after : Pipes}
      (hsends : Sends platform scratch env request world process forwarded)
      (hserves : ∀ number, (Function.update pipes process
        ((pipes process).send (index, forwarded)) number).Serves (after number))
      (hreceive : env.send ≠ none ∨ ∀ response, env.receive ≠ .ok (some response)) :
      Talks platform scratch env request world index pipes after none
  | answered {process : ℕ} {forwarded : WorkRequest} {middle : Pipes} {message : Sent}
      {response : WorkResponse} {rest : List (Sent × WorkResponse)}
      (hsends : Sends platform scratch env request world process forwarded)
      (hserves : ∀ number, (Function.update pipes process
        ((pipes process).send (index, forwarded)) number).Serves (middle number))
      (hreceive : env.receive = .ok (some response))
      (hreplies : (middle process).replies = (message, response) :: rest) :
      Talks platform scratch env request world index pipes
        (Function.update middle process { middle process with replies := rest })
        (some (message, response))

/-- The `try` in the loop of `main`, where `toText` is `Throwable.toString`. -/
def respond (toText : Throwable → String) (request : WorkRequest) :
    Except Throwable WorkResponse → Except Throwable WorkResponse
  | .ok response => .ok response
  | .error failure =>
      if failure.isException then WorkResponse.error request.requestId (toText failure)
      else .error failure

/-- One request and what became of it. -/
structure Exchange where
  request : WorkRequest
  received : Option (Sent × WorkResponse)
  response : WorkResponse
  /-- The files when `handle` returned. -/
  disk : Disk

/-- The state of `main` between two turns of its loop. -/
structure Loop where
  stdin : Bytes
  stdout : Bytes := []
  world : World
  pipes : Pipes := fun _ => {}
  log : List Exchange := []

/-- One turn of the loop: a request is read, handled and answered. -/
inductive Turn (toText : Throwable → String) (platform : Platform) (scratch : Path) :
    Loop → Loop → Prop
  | turn {loop : Loop} {request : WorkRequest} {stdin : Bytes} {env : Environment} {pipes : Pipes}
      {received : Option (Sent × WorkResponse)} {response : WorkResponse}
      (hread : run WorkRequest.parseDelimitedFrom loop.stdin = (.ok (some request), stdin))
      (htalks : Talks platform scratch env request loop.world loop.log.length loop.pipes pipes
        received)
      (hrespond : respond toText request (call platform scratch loop.world env request).1 =
        .ok response) :
      Turn toText platform scratch loop
        { stdin
          stdout := loop.stdout ++ response.writeDelimitedTo
          world := (call platform scratch loop.world env request).2
          pipes
          log := loop.log ++ [{
            request, received, response
            disk := (call platform scratch loop.world env request).2.disk }] }

/-- A worker that has just been started, with these requests on its standard input. -/
def Start (scratch : Path) (requests : List WorkRequest) (loop : Loop) : Prop :=
  ∃ world, Initial scratch world ∧
    loop = { stdin := requests.flatMap WorkRequest.writeDelimitedTo, world }

/-- The response has the id of the request, and if it says that the compilation succeeded, then
the compiler answered this very request so, and the jar was packed. -/
def Justified (platform : Platform) (index : ℕ) (exchange : Exchange) : Prop :=
  exchange.response.requestId = exchange.request.requestId ∧
    (exchange.response.exitCode = 0 → ∃ forwarded root output entries,
      exchange.received = some ((index, forwarded), exchange.response) ∧
        SameButArguments exchange.request forwarded ∧
        forwarded.arguments = forwardedArguments exchange.request.arguments root ∧
        requestedOutput platform exchange.request.arguments = .ok output ∧
        Packed exchange.disk (root ++ ["classes"]) output entries)

/-- The invariant of the loop. -/
structure Orderly (platform : Platform) (requests : List WorkRequest) (loop : Loop) : Prop where
  input : ∃ rest, requests = loop.log.map Exchange.request ++ rest ∧
    loop.stdin = rest.flatMap WorkRequest.writeDelimitedTo
  output : loop.stdout = loop.log.flatMap fun exchange => exchange.response.writeDelimitedTo
  justified : ∀ index exchange, loop.log[index]? = some exchange → Justified platform index exchange
  attached : ∀ process, loop.world.compiler = some process → process < loop.world.started
  /-- Neither the resident process nor one that is not yet started owes a reply. -/
  idle : ∀ process, loop.world.compiler = some process ∨ loop.world.started ≤ process →
    (loop.pipes process).Idle

section

variable {toText : Throwable → String} {platform : Platform} {scratch : Path}
  {requests : List WorkRequest} {loop next : Loop} {env : Environment} {request : WorkRequest}
  {pipes : Pipes} {received : Option (Sent × WorkResponse)} {response : WorkResponse}

theorem error_cases (requestId : JavaInt) (message : String) :
    (∃ response, WorkResponse.error requestId message = .ok response ∧
        response.requestId = requestId ∧ response.exitCode = 1) ∨
      WorkResponse.error requestId message = .error .outOfMemory := by
  rcases Nat.lt_or_ge maxInt (WorkResponse.errorBytes requestId message).length with hlarge | hfits
  · exact Or.inr (WorkResponse.error_of_lt hlarge)
  · exact Or.inl ⟨_, WorkResponse.error_of_le hfits, rfl, rfl⟩

/-- A response that does not come from `handle` reports a failure. -/
theorem respond_ok {outcome : Except Throwable WorkResponse}
    (h : respond toText request outcome = .ok response) :
    outcome = .ok response ∨
      (∃ failure, outcome = .error failure ∧ failure.isException = true) ∧
        response.requestId = request.requestId ∧ response.exitCode = 1 := by
  cases outcome with
  | ok returned => exact Or.inl h
  | error failure =>
      rw [respond] at h
      split at h
      · rename_i hexception
        -- the `catch` of `main` answers with the id of the request, or has no memory for it
        rcases error_cases request.requestId (toText failure) with ⟨_, herror, hspec⟩ | herror
        · rw [herror] at h
          cases h
          exact Or.inr ⟨⟨failure, rfl, hexception⟩, hspec⟩
        · rw [herror] at h
          cases h
      · cases h

/-- Only what is no exception ends the loop. -/
theorem respond_error {outcome : Except Throwable WorkResponse} {thrown : Throwable}
    (h : respond toText request outcome = .error thrown) : thrown.isException = false := by
  cases outcome with
  | ok returned => cases h
  | error failure =>
      rw [respond] at h
      split at h
      · rcases error_cases request.requestId (toText failure) with ⟨_, herror, _⟩ | herror
        · rw [herror] at h
          cases h
        · rw [herror] at h
          cases h
          rfl
      · rename_i hescapes
        cases h
        simpa using hescapes

/-- Processes that were sent nothing stay idle. -/
theorem Talks.idle {number : ℕ}
    (h : Talks platform scratch env request loop.world loop.log.length loop.pipes pipes received)
    (hidle : (loop.pipes number).Idle)
    (hother : ∀ process forwarded, Sends platform scratch env request loop.world process forwarded →
      number ≠ process) : (pipes number).Idle := by
  -- serving keeps an idle pipe idle, and the message went into another pipe
  cases h with
  | silent hsends hserves => exact hidle.serves (hserves number)
  | unanswered hsends hserves _ =>
      have hserved := hserves number
      rw [Function.update_of_ne (hother _ _ hsends)] at hserved
      exact hidle.serves hserved
  | answered hsends hserves _ _ =>
      have hserved := hserves number
      rw [Function.update_of_ne (hother _ _ hsends)] at hserved
      rw [Function.update_of_ne (hother _ _ hsends)]
      exact hidle.serves hserved

/-- What a call that returns has received is the reply to its own message. -/
theorem Talks.received_eq {after : World} {index : ℕ} {before : Pipes} {world : World}
    (h : Talks platform scratch env request world index before pipes received)
    (hcall : call platform scratch world env request = (.ok response, after))
    (hidle : ∀ process, world.processOf env = some process → (before process).Idle) :
    ∃ output root forwarded process, requestedOutput platform request.arguments = .ok output ∧
      request.withArguments (forwardedArguments request.arguments root) = .ok forwarded ∧
      response.requestId = request.requestId ∧
      Sends platform scratch env request world process forwarded ∧
      after.compiler = some process ∧
      received = some ((index, forwarded), response) ∧ (pipes process).Idle ∧
      (response.exitCode = 0 →
        ∃ entries, Packed after.disk (root ++ ["classes"]) output entries) := by
  obtain ⟨process, forwarded, output, root, hsends, hcompiles, houtput, hsend, hreceive, hid,
    hcompiler, hpacked⟩ := call_returns hcall
  obtain ⟨hprocess, -, output', root', -, hcompiles', hforwarded⟩ := hsends.spec
  -- the record of the call has one root
  have hkey := List.append_cancel_left (hcompiles.symm.trans hcompiles')
  obtain rfl : root = root' := by
    simp only [keyOf, List.cons.injEq, Prod.mk.injEq, and_true, true_and] at hkey
    exact hkey.2
  cases h with
  | silent hsilent _ => exact absurd hsends (hsilent process forwarded)
  | unanswered _ _ hnone => exact absurd hreceive (hnone.resolve_left (not_not.mpr hsend) response)
  | @answered process' forwarded' middle message response' rest hsends' hserves
      hreceive' hreplies =>
      obtain ⟨rfl, rfl⟩ := hsends.unique hsends'
      obtain rfl : response = response' :=
        Option.some.inj (Except.ok.inj (hreceive.symm.trans hreceive'))
      -- one message in the pipe of an idle process, so the reply is to that one
      have hserved := hserves process
      rw [Function.update_self] at hserved
      obtain ⟨rfl, hlast⟩ := Pipe.eq_of_idle (hidle process hprocess) hserved hreplies
      refine ⟨output, root, forwarded, process, houtput, hforwarded, hid, hsends,
        hcompiler, rfl, ?_, hpacked⟩
      rw [Function.update_self]
      exact hlast

/-- The next request of the stream is the one that is read. -/
theorem read_eq {rest : List WorkRequest} {stdin : Bytes}
    (hsmall : ∀ request ∈ rest, request.bytes.1.length ≤ maxMessage)
    (h : run WorkRequest.parseDelimitedFrom (rest.flatMap WorkRequest.writeDelimitedTo) =
      (.ok (some request), stdin)) :
    ∃ later, rest = request :: later ∧ stdin = later.flatMap WorkRequest.writeDelimitedTo := by
  cases rest with
  | nil =>
      rw [List.flatMap_nil, WorkRequest.parseDelimitedFrom_nil] at h
      cases h
  | cons first later =>
      rw [List.flatMap_cons,
        WorkRequest.parseDelimitedFrom_frame (hsmall first List.mem_cons_self)] at h
      cases h
      exact ⟨later, rfl, rfl⟩

/-- Before a call, its process owes no reply. -/
theorem Orderly.idle_processOf (h : Orderly platform requests loop) {process : ℕ}
    (hprocess : loop.world.processOf env = some process) : (loop.pipes process).Idle := by
  unfold World.processOf at hprocess
  split at hprocess
  · rename_i resident hresident
    cases hprocess
    exact h.idle process (Or.inl hresident)
  · split at hprocess
    · cases hprocess
      exact h.idle _ (Or.inr le_rfl)
    · cases hprocess

/-- A turn writes a justified response. -/
theorem Orderly.justified_turn (h : Orderly platform requests loop)
    (htalks : Talks platform scratch env request loop.world loop.log.length loop.pipes pipes
      received)
    (hrespond : respond toText request (call platform scratch loop.world env request).1 =
      .ok response) :
    Justified platform loop.log.length
      ⟨request, received, response, (call platform scratch loop.world env request).2.disk⟩ := by
  -- what `handle` returned was received; what `main` made up itself has exit code 1
  rcases respond_ok hrespond with houtcome | ⟨_, hid, hexit⟩
  · obtain ⟨output, root, forwarded, _, houtput, hforwarded, hid, _, _, hreceived, _, hpacked⟩ :=
      htalks.received_eq (run_eq houtcome) fun _ => h.idle_processOf
    refine ⟨hid, fun hexit => ?_⟩
    obtain ⟨entries, hpacked⟩ := hpacked hexit
    obtain ⟨harguments, hsame⟩ := sameButArguments hforwarded
    exact ⟨forwarded, root, output, entries, hreceived, hsame, harguments, houtput, hpacked⟩
  · exact ⟨hid, fun hzero => absurd (hexit.symm.trans hzero) (by decide)⟩

/-- After a turn the resident process is one of those that were started, and owes no reply. -/
theorem Orderly.idle_turn (h : Orderly platform requests loop)
    (htalks : Talks platform scratch env request loop.world loop.log.length loop.pipes pipes
      received)
    (hrespond : respond toText request (call platform scratch loop.world env request).1 =
      .ok response) {process : ℕ}
    (hprocess : (call platform scratch loop.world env request).2.compiler = some process) :
    process < (call platform scratch loop.world env request).2.started ∧
      (pipes process).Idle := by
  rcases respond_ok hrespond with houtcome | ⟨⟨failure, houtcome, hexception⟩, _⟩
  · -- the call has read the reply to its own message
    obtain ⟨_, _, forwarded, own, _, _, _, hsends, hcompiler, _, hidle, _⟩ :=
      htalks.received_eq (run_eq houtcome) fun _ => h.idle_processOf
    obtain rfl : own = process := Option.some.inj (hcompiler.symm.trans hprocess)
    obtain ⟨hown, hstarted, -⟩ := hsends.spec
    rw [← hstarted]
    exact ⟨processOf_lt h.attached hown, hidle⟩
  · -- after an exception the process is gone, unless it was sent nothing
    have hafter := call_process platform scratch env request loop.world
    rw [houtcome] at hafter
    cases hafter with
    | silent houtcome hstarted hsent hcompiler =>
        cases houtcome
        rcases hcompiler hexception with hnone | hresident
        · rw [hnone] at hprocess
          cases hprocess
        · rw [hresident] at hprocess
          refine ⟨(h.attached process hprocess).trans_le hstarted, ?_⟩
          exact htalks.idle (h.idle process (Or.inl hprocess)) fun _ _ hsends =>
            absurd hsends (not_sends_of_sent hsent _ _)
    | sends _ _ _ _ _ _ hthrown =>
        rw [hthrown failure rfl hexception] at hprocess
        cases hprocess

theorem Orderly.turn (hsmall : ∀ request ∈ requests, request.bytes.1.length ≤ maxMessage)
    (h : Orderly platform requests loop) (hturn : Turn toText platform scratch loop next) :
    Orderly platform requests next := by
  cases hturn with
  | @turn request stdin env pipes received response hread htalks hrespond =>
      obtain ⟨rest, hrequests, hstdin⟩ := h.input
      have hrest : ∀ request ∈ rest, request.bytes.1.length ≤ maxMessage :=
        fun request hmem => hsmall request (hrequests ▸ List.mem_append_right _ hmem)
      rw [hstdin] at hread
      -- the turn reads the first request that is left
      obtain ⟨later, hlater, hleft⟩ := read_eq hrest hread
      refine ⟨⟨later, ?_, hleft⟩, ?_, ?_, ?_, ?_⟩
      · rw [hrequests, hlater, List.map_append, List.append_assoc]
        rfl
      · rw [h.output, List.flatMap_append, List.flatMap_singleton]
      · intro index exchange hexchange
        -- the log only grows at its end
        rcases Nat.lt_or_ge index loop.log.length with hearlier | hlast
        · rw [List.getElem?_append_left hearlier] at hexchange
          exact h.justified index exchange hexchange
        · rw [List.getElem?_append_right hlast, List.getElem?_singleton] at hexchange
          split at hexchange
          · rename_i hzero
            obtain rfl : index = loop.log.length := by omega
            cases hexchange
            exact h.justified_turn htalks hrespond
          · cases hexchange
      · exact fun process hprocess => (h.idle_turn htalks hrespond hprocess).1
      · rintro process (hprocess | hlate)
        · exact (h.idle_turn htalks hrespond hprocess).2
        · have hmore := call_started_le platform scratch env request loop.world
          refine htalks.idle (h.idle process (Or.inr (hmore.trans hlate))) ?_
          rintro own forwarded hsends rfl
          -- the process of the call is among the started ones
          obtain ⟨hown, hstarted, -⟩ := hsends.spec
          have hlt := processOf_lt h.attached hown
          rw [hstarted] at hlt
          exact absurd hlate (not_le.mpr hlt)

theorem Orderly.start (h : Start scratch requests loop) : Orderly platform requests loop := by
  obtain ⟨_, ⟨disk, _, rfl⟩, rfl⟩ := h
  exact ⟨⟨requests, rfl, rfl⟩, rfl, nofun, nofun, fun _ _ => Pipe.idle_new⟩

/-- As long as there are requests, the loop goes on unless something is thrown that is no
exception. -/
theorem Orderly.progress (hsmall : ∀ request ∈ requests, request.bytes.1.length ≤ maxMessage)
    (h : Orderly platform requests loop) {later : List WorkRequest}
    (hrequests : requests = loop.log.map Exchange.request ++ request :: later)
    (htalks : Talks platform scratch env request loop.world loop.log.length loop.pipes pipes
      received) :
    (∃ next, Turn toText platform scratch loop next ∧
        next.log.map Exchange.request = loop.log.map Exchange.request ++ [request]) ∨
      ∃ thrown, respond toText request (call platform scratch loop.world env request).1 =
        .error thrown ∧ thrown.isException = false := by
  obtain ⟨rest, hinput, hstdin⟩ := h.input
  obtain rfl : rest = request :: later := List.append_cancel_left (hinput.symm.trans hrequests)
  have hread : run WorkRequest.parseDelimitedFrom loop.stdin =
      (.ok (some request), later.flatMap WorkRequest.writeDelimitedTo) := by
    rw [hstdin, List.flatMap_cons, WorkRequest.parseDelimitedFrom_frame]
    exact hsmall request (hrequests ▸ List.mem_append_right _ List.mem_cons_self)
  -- the loop ends with what `main` does not catch, and goes on otherwise
  cases hrespond : respond toText request (call platform scratch loop.world env request).1 with
  | ok response =>
      refine Or.inl ⟨_, Turn.turn hread htalks hrespond, ?_⟩
      rw [List.map_append]
      rfl
  | error thrown => exact Or.inr ⟨thrown, rfl, respond_error hrespond⟩

end

/-- **One response for each request.**  After any number of turns the responses written are
those to the requests read, one for each, in order, and each is justified.  At the end of the
stream all requests are answered, and before it the loop goes on, whatever a compiler and the
file system do, unless something is thrown that is no exception. -/
theorem one_response_for_each_request (toText : Throwable → String) (platform : Platform)
    (scratch : Path) (requests : List WorkRequest)
    (hsmall : ∀ request ∈ requests, request.bytes.1.length ≤ maxMessage) (loop : Loop)
    (hreachable : Reachable (Start scratch requests) (Turn toText platform scratch) loop) :
    loop.stdout = loop.log.flatMap (fun exchange => exchange.response.writeDelimitedTo) ∧
      (∀ index exchange, loop.log[index]? = some exchange → Justified platform index exchange) ∧
      ∃ rest, requests = loop.log.map Exchange.request ++ rest ∧
        (rest = [] → run WorkRequest.parseDelimitedFrom loop.stdin = (.ok none, [])) ∧
        ∀ request later, rest = request :: later → ∀ env pipes received,
          Talks platform scratch env request loop.world loop.log.length loop.pipes pipes received →
          (∃ next, Turn toText platform scratch loop next ∧
              next.log.map Exchange.request = loop.log.map Exchange.request ++ [request]) ∨
            ∃ thrown, respond toText request (call platform scratch loop.world env request).1 =
              .error thrown ∧ thrown.isException = false := by
  -- induction on the turns; the invariant holds at the start and after every turn
  have horderly : Orderly platform requests loop :=
    hreachable.invariant (fun _ => Orderly.start) fun _ _ h hturn => h.turn hsmall hturn
  obtain ⟨rest, hrequests, hstdin⟩ := horderly.input
  refine ⟨horderly.output, horderly.justified, rest, hrequests, ?_, ?_⟩
  · rintro rfl
    rw [hstdin, List.flatMap_nil]
    exact WorkRequest.parseDelimitedFrom_nil
  · rintro request later rfl env pipes received htalks
    exact horderly.progress hsmall hrequests htalks

/-- The worker with `inputsRequest` on its standard input. -/
def sampleLoop : Loop where
  stdin := [inputsRequest].flatMap WorkRequest.writeDelimitedTo
  world := sampleWorld

/-- The compiler may answer the request as `sampleEnvironment` says. -/
theorem sample_talks : ∃ pipes received, Talks samplePlatform ["scratch"] sampleEnvironment
    inputsRequest sampleWorld 0 (fun _ => {}) pipes received := by
  have hcall : (call samplePlatform ["scratch"] sampleWorld sampleEnvironment inputsRequest).1 =
      .ok ⟨[], 0, 0, ""⟩ := by
    decide +kernel
  obtain ⟨process, forwarded, _, _, hsends, _, _, _, hreceive, _⟩ := call_returns (run_eq hcall)
  let silent : Pipes := fun _ => {}
  let answered : Pipe Sent WorkResponse := ⟨[], [], [((0, forwarded), ⟨[], 0, 0, ""⟩)]⟩
  have hreply : Pipe.Step ⟨[], [] ++ (0, forwarded) :: [], []⟩ answered := Pipe.Step.reply
  have hserves : ∀ number,
      Pipe.Serves (Function.update silent process (Pipe.send {} (0, forwarded)) number)
        (Function.update silent process answered number) := by
    intro number
    rcases eq_or_ne number process with rfl | hne
    · rw [Function.update_self, Function.update_self]
      exact Relation.ReflTransGen.tail (Relation.ReflTransGen.single Pipe.Step.read) hreply
    · rw [Function.update_of_ne hne, Function.update_of_ne hne]
      exact Relation.ReflTransGen.refl
  exact ⟨_, _, Talks.answered hsends hserves hreceive (by rw [Function.update_self])⟩

theorem one_response_for_each_request_sample :
    ∃ loop : Loop, loop.log.map Exchange.request = [inputsRequest] ∧
      loop.stdout = loop.log.flatMap (fun exchange => exchange.response.writeDelimitedTo) ∧
      ∀ index exchange, loop.log[index]? = some exchange →
        Justified samplePlatform index exchange := by
  have hsmall : ∀ request ∈ [inputsRequest], request.bytes.1.length ≤ maxMessage := by
    simp only [List.mem_singleton, forall_eq]
    decide +kernel
  have hstart : Start ["scratch"] [inputsRequest] sampleLoop :=
    ⟨sampleWorld, sampleWorld_initial, rfl⟩
  obtain ⟨pipes, received, htalks⟩ := sample_talks
  have horderly : Orderly samplePlatform [inputsRequest] sampleLoop := Orderly.start hstart
  have hgoes : (respond (fun _ => "") inputsRequest
      (call samplePlatform ["scratch"] sampleWorld sampleEnvironment inputsRequest).1).isOk =
        true := by
    decide +kernel
  have hprogress : (∃ next, Turn (fun _ => "") samplePlatform ["scratch"] sampleLoop next ∧
      next.log.map Exchange.request = [inputsRequest]) ∨ _ := horderly.progress hsmall rfl htalks
  rcases hprogress with ⟨loop, hturn, hlog⟩ | ⟨thrown, hthrown, _⟩
  · obtain ⟨hstdout, hjustified, _⟩ := one_response_for_each_request _ samplePlatform ["scratch"]
      [inputsRequest] hsmall loop (Reachable.next (Reachable.start hstart) hturn)
    exact ⟨loop, hlog, hstdout, hjustified⟩
  · change respond (fun _ => "") inputsRequest (call samplePlatform ["scratch"] sampleWorld
      sampleEnvironment inputsRequest).1 = _ at hthrown
    rw [hthrown] at hgoes
    cases hgoes

end RulesElide.IncrementalWorker
