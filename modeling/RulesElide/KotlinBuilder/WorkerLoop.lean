import RulesElide.KotlinBuilder.ElideWorker
import RulesElide.KotlinBuilder.Main

/-!
# The worker loop of the builder

`Main.main` with `--persistent_worker`: requests are read until the end of the input, and each is
handled under a `runCatching` that makes an exit code of whatever `handle` throws.  The record file
of the resident worker is opened outside of it.  `answers_iff_record_opens` says that this is the
only thing that can keep a request from its response.
-/

namespace RulesElide.KotlinBuilder

open Effects

/-! ## State -/

/-- `Config`, with what `main` reads of it. -/
structure WorkerConfig extends Config where
  elide := ""
  fallback := ""
  resident : Bool := false
  record : String := ""

/-- `WorkRequest`, as Bazel sends it. -/
structure WorkRequest where
  arguments : List String
  inputs : List (String × Bytes) := []
  requestId : JavaInt := 0

/-- `ElideWorker`, by what it was made with. -/
structure ElideWorker where
  elidePath : String
  recordSink : Option String

/-- What the machine decides while a request is served. -/
structure Turn where
  system : System
  /-- `compile` of the resident worker, if there is one. -/
  compile : ElideWorker → Resident :=
    fun _ _ _ => .error (.illegalState "resident elide closed stdout")

/-- The process that runs `main`. -/
structure Startup where
  argv : List String
  /-- `System.getenv("ELIDE_WORKER_RECORD")`. -/
  recordVariable : Option String := none
  /-- `it.message`. -/
  message : Throwable → Option String := fun _ => none

/-- A request, what `handle` returned or threw for it, and the response that was written. -/
structure Exchange where
  request : WorkRequest
  outcome : Except Throwable (JavaInt × String)
  response : Response

structure LoopState where
  resident : Option ElideWorker := none
  machine : Machine
  exchanges : List Exchange := []

/-! ## The code -/

/-- The body of the loop of `splitConfig`. -/
def splitArgument (split : WorkerConfig × List String) (a : String) :
    WorkerConfig × List String :=
  let (config, rest) := split
  if startsWith a "--elide=" then ({ config with elide := substringAfter a '=' }, rest)
  else if startsWith a "--fallback_builder=" then
    ({ config with fallback := substringAfter a '=' }, rest)
  else if a = "--resident_worker" then ({ config with resident := true }, rest)
  else if startsWith a "--worker_record=" then
    ({ config with record := substringAfter a '=' }, rest)
  else if a = "--quiet_plugin_rewrite" then ({ config with quietPluginRewrite := true }, rest)
  else if a = "--native_tools" then ({ config with nativeTools := true }, rest)
  else (config, rest ++ [a])

/-- `splitConfig`. -/
def splitConfig (argv : List String) : WorkerConfig × List String :=
  argv.foldl splitArgument ({}, [])

/-- `value.ifEmpty { other }`, for a text. -/
def ifEmpty (value other : String) : String :=
  if value = "" then other else value

/-- `merged`: what the request says goes first, except for the record file. -/
def merge (cfg cfg2 : WorkerConfig) : WorkerConfig where
  elide := ifEmpty cfg2.elide cfg.elide
  fallback := ifEmpty cfg2.fallback cfg.fallback
  resident := cfg.resident || cfg2.resident
  record := ifEmpty cfg.record cfg2.record
  quietPluginRewrite := cfg.quietPluginRewrite || cfg2.quietPluginRewrite
  nativeTools := cfg.nativeTools || cfg2.nativeTools

namespace Startup

/-- `cfg`. -/
def cfg (startup : Startup) : WorkerConfig :=
  (splitConfig startup.argv).1

/-- `merged`, for a request. -/
def merged (startup : Startup) (request : WorkRequest) : WorkerConfig :=
  merge startup.cfg (splitConfig request.arguments).1

/-- `recPath`. -/
def recPath (startup : Startup) (request : WorkRequest) : String :=
  ifEmpty (startup.merged request).record (startup.recordVariable.getD "")

/-- `FileOutputStream(recPath)`: an empty file. -/
def openRecord (system : System) (recPath : String) : Program Unit :=
  writeFile system.denied (system.absolute recPath) []

/-- The `if` that makes the resident worker, once. -/
def ensureResident (startup : Startup) (system : System) (request : WorkRequest) :
    Option ElideWorker → Program (Option ElideWorker)
  | some resident => return some resident
  | none => do
      let merged := startup.merged request
      if merged.resident && merged.elide ≠ "" then do
        let recPath := startup.recPath request
        if recPath = "" then return some ⟨merged.elide, none⟩
        else do
          openRecord system recPath
          return some ⟨merged.elide, some recPath⟩
      else return none

/-- `getOrElse { 1 to (it.message ?: "error") }`. -/
def answer (startup : Startup) : Except Throwable (JavaInt × String) → JavaInt × String
  | .ok (code, out) => (code, out)
  | .error thrown => (1, (startup.message thrown).getD "error")

/-- The body of the `while`, for a request that was read. -/
def serveOne (startup : Startup) (state : LoopState) (request : WorkRequest) (turn : Turn) :
    Except Throwable LoopState :=
  match run (startup.ensureResident turn.system request state.resident) state.machine with
  | (.error thrown, _) => .error thrown
  | (.ok resident, machine) =>
      let (outcome, machine) := run (handleRequest turn.system (startup.merged request).toConfig
        (splitConfig request.arguments).2 (resident.map turn.compile) request.inputs) machine
      let (code, out) := startup.answer outcome
      .ok {
        resident
        machine
        exchanges := state.exchanges ++ [⟨request, outcome, ⟨code, out, request.requestId⟩⟩] }

/-- The `while`, until the end of the input or an exception that leaves `main`. -/
def serve (startup : Startup) : LoopState → List (WorkRequest × Turn) → LoopState × Option Throwable
  | state, [] => (state, none)
  | state, (request, turn) :: later =>
      match startup.serveOne state request turn with
      | .error thrown => (state, some thrown)
      | .ok after => startup.serve after later

end Startup

/-! ## Answers -/

/-- The response has the id of the request, and reports what `handle` returned, or a failure. -/
structure Exchange.Answers (exchange : Exchange) : Prop where
  requestId : exchange.response.requestId = exchange.request.requestId
  returned : ∀ code out, exchange.outcome = .ok (code, out) →
    exchange.response.exitCode = code ∧ exchange.response.output = out
  threw : ∀ thrown, exchange.outcome = .error thrown → exchange.response.exitCode ≠ 0

/-- The worker reads all requests, and answers them one by one. -/
def AnswersAll (startup : Startup) (machine : Machine) (turns : List (WorkRequest × Turn)) : Prop :=
  let (final, thrown) := startup.serve { machine } turns
  thrown = none ∧ final.exchanges.map Exchange.request = turns.map Prod.fst ∧
    ∀ exchange ∈ final.exchanges, exchange.Answers

/-- In this turn the resident worker is made, with a record file. -/
def MakesRecord (startup : Startup) (state : LoopState) (request : WorkRequest) : Prop :=
  state.resident = none ∧ (startup.merged request).resident = true ∧
    (startup.merged request).elide ≠ "" ∧ startup.recPath request ≠ ""

/-- The record file can be opened. -/
def Opens (system : System) (path : String) (machine : Machine) : Prop :=
  ∃ after, run (Startup.openRecord system path) machine = (.ok (), after)

/-- In every turn that makes a record file, it can be opened. -/
inductive RecordOpens (startup : Startup) : LoopState → List (WorkRequest × Turn) → Prop
  | nil {state : LoopState} : RecordOpens startup state []
  | cons {state : LoopState} {request : WorkRequest} {turn : Turn}
      {later : List (WorkRequest × Turn)}
      (hopens : MakesRecord startup state request →
        Opens turn.system (startup.recPath request) state.machine)
      (hlater : ∀ after, startup.serveOne state request turn = .ok after →
        RecordOpens startup after later) :
      RecordOpens startup state ((request, turn) :: later)

/-! ## One turn -/

variable {startup : Startup} {state after : LoopState} {request : WorkRequest} {turn : Turn}
  {turns : List (WorkRequest × Turn)} {machine : Machine}

/-- The resident worker is ready, unless its record file cannot be opened. -/
theorem ensureResident_iff (startup : Startup) (turn : Turn) (state : LoopState)
    (request : WorkRequest) :
    (∃ resident machine, run (startup.ensureResident turn.system request state.resident)
        state.machine = (.ok resident, machine)) ↔
      (MakesRecord startup state request →
        Opens turn.system (startup.recPath request) state.machine) := by
  unfold Startup.ensureResident MakesRecord
  -- the file is opened only when there is no resident worker yet
  cases hresident : state.resident with
  | some resident =>
      exact iff_of_true ⟨_, _, rfl⟩ fun h => nomatch h.1
  | none =>
      dsimp only
      by_cases hmake : (startup.merged request).resident = true ∧
        (startup.merged request).elide ≠ ""
      · rw [if_pos (by simpa using hmake)]
        -- without a path for the record nothing is opened
        by_cases hrecord : startup.recPath request = ""
        · rw [if_pos hrecord]
          exact iff_of_true ⟨_, _, rfl⟩ fun h => absurd hrecord h.2.2.2
        · rw [if_neg hrecord]
          constructor
          · rintro ⟨resident, machine, hrun⟩ -
            obtain ⟨_, middle, hopen, -⟩ := run_bind_eq_ok.mp hrun
            exact ⟨middle, hopen⟩
          · intro h
            obtain ⟨middle, hopen⟩ := h ⟨rfl, hmake.1, hmake.2, hrecord⟩
            exact ⟨_, middle, by rw [run_bind_of_ok hopen]; rfl⟩
      · rw [if_neg (by simpa using hmake)]
        exact iff_of_true ⟨_, _, rfl⟩ fun h => absurd ⟨h.2.1, h.2.2.1⟩ hmake

/-- A turn is completed, unless the record file cannot be opened. -/
theorem serveOne_iff (startup : Startup) (state : LoopState) (request : WorkRequest) (turn : Turn) :
    (∃ after, startup.serveOne state request turn = .ok after) ↔
      (MakesRecord startup state request →
        Opens turn.system (startup.recPath request) state.machine) := by
  rw [← ensureResident_iff]
  unfold Startup.serveOne
  constructor
  · rintro ⟨after, hafter⟩
    split at hafter
    · cases hafter
    · rename_i resident machine hrun
      exact ⟨resident, machine, hrun⟩
  · rintro ⟨resident, machine, hrun⟩
    rw [hrun]
    exact ⟨_, rfl⟩

/-- A completed turn answers its request, whether `handle` returned or threw. -/
theorem serveOne_answers (h : startup.serveOne state request turn = .ok after) :
    ∃ exchange, after.exchanges = state.exchanges ++ [exchange] ∧ exchange.request = request ∧
      exchange.Answers := by
  unfold Startup.serveOne at h
  split at h
  · cases h
  · cases h
    refine ⟨_, rfl, rfl, rfl, ?_, ?_⟩
    · intro code out hreturned
      dsimp only at hreturned ⊢
      rw [hreturned]
      exact ⟨rfl, rfl⟩
    · intro thrown hthrew
      dsimp only at hthrew ⊢
      rw [hthrew]
      exact (by decide : (1 : JavaInt) ≠ 0)

/-! ## The loop -/

/-- The loop ends with the input exactly when every record file can be opened. -/
theorem serve_iff (startup : Startup) (turns : List (WorkRequest × Turn)) (state : LoopState) :
    (startup.serve state turns).2 = none ↔ RecordOpens startup state turns := by
  induction turns generalizing state with
  | nil => exact iff_of_true rfl .nil
  | cons head later ih =>
      obtain ⟨request, turn⟩ := head
      unfold Startup.serve
      have hcomplete := serveOne_iff startup state request turn
      cases hserve : startup.serveOne state request turn with
      | error thrown =>
          refine iff_of_false nofun ?_
          -- this turn threw, so its record did not open
          rintro (_ | ⟨hopens, -⟩)
          obtain ⟨after, hafter⟩ := hcomplete.mpr hopens
          rw [hserve] at hafter
          cases hafter
      | ok after =>
          dsimp only
          rw [ih after]
          constructor
          · intro hlater
            refine .cons (hcomplete.mp ⟨after, hserve⟩) fun other hother => ?_
            rw [hserve] at hother
            exact Except.ok.inj hother ▸ hlater
          · rintro (_ | ⟨-, hlater⟩)
            exact hlater after hserve

/-- However the loop ends, the requests it served are answered in their order. -/
theorem serve_answers (startup : Startup) (turns : List (WorkRequest × Turn)) (state : LoopState) :
    ∃ served, served <+: turns ∧
      ((startup.serve state turns).2 = none → served = turns) ∧
      ∃ exchanges : List Exchange,
        (startup.serve state turns).1.exchanges = state.exchanges ++ exchanges ∧
          exchanges.map Exchange.request = served.map Prod.fst ∧
            ∀ exchange ∈ exchanges, exchange.Answers := by
  induction turns generalizing state with
  | nil => exact ⟨[], List.prefix_rfl, fun _ => rfl, [], (List.append_nil _).symm, rfl, nofun⟩
  | cons head later ih =>
      obtain ⟨request, turn⟩ := head
      unfold Startup.serve
      cases hserve : startup.serveOne state request turn with
      | error thrown =>
          exact ⟨[], List.nil_prefix, nofun, [], (List.append_nil _).symm, rfl, nofun⟩
      | ok after =>
          -- one exchange for this request, then those of the requests behind it
          obtain ⟨exchange, hexchange, hrequest, hanswers⟩ := serveOne_answers hserve
          obtain ⟨served, hserved, hall, exchanges, hexchanges, hrequests, hlater⟩ := ih after
          refine ⟨(request, turn) :: served, (List.prefix_cons_inj _).mpr hserved,
            fun hnone => by rw [hall hnone], exchange :: exchanges, ?_, ?_, ?_⟩
          · rw [hexchanges, hexchange, List.append_assoc, List.singleton_append]
          · rw [List.map_cons, List.map_cons, hrequest, hrequests]
          · exact List.forall_mem_cons.mpr ⟨hanswers, hlater⟩

/-- **Every request is answered** with its own id and a non-zero exit code for a failure, in order
and to the end of the input, exactly when in every turn that makes a record file this file can be
opened. -/
theorem answers_iff_record_opens (startup : Startup) (machine : Machine)
    (turns : List (WorkRequest × Turn)) :
    AnswersAll startup machine turns ↔ RecordOpens startup { machine } turns := by
  obtain ⟨served, -, hall, exchanges, hexchanges, hrequests, hanswers⟩ :=
    serve_answers startup turns { machine }
  rw [List.nil_append] at hexchanges
  unfold AnswersAll
  rw [← serve_iff]
  constructor
  · exact fun h => h.1
  · intro hnone
    refine ⟨hnone, ?_, ?_⟩
    · rw [hexchanges, hrequests, hall hnone]
    · rw [hexchanges]
      exact hanswers

/-- A resident worker whose requests are recorded in a directory that does not exist. -/
def recordingStartup : Startup where
  argv := ["--persistent_worker", "--resident_worker", "--elide=/bin/elide",
    "--worker_record=/captures/requests.bin"]

def recordingTurns : List (WorkRequest × Turn) :=
  [({ arguments := ["--flagfile=flags"] }, { system := sampleSystem false })]

/-- The request is not answered, and the worker ends. -/
theorem unopenable_record_ends_worker :
    ¬ ∀ (startup : Startup) (machine : Machine) (turns : List (WorkRequest × Turn)),
      AnswersAll startup machine turns := by
  intro h
  have hended : (recordingStartup.serve { machine := requestMachine } recordingTurns).2 = none :=
    (h recordingStartup requestMachine recordingTurns).1
  have hthrown :
    (recordingStartup.serve { machine := requestMachine } recordingTurns).2.isSome := by
    decide +kernel
  rw [hended] at hthrown
  cases hthrown

end RulesElide.KotlinBuilder
