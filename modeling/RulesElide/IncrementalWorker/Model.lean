import RulesElide.IncrementalWorker.Signature
import RulesElide.Library.Effects
import RulesElide.Library.Transition

/-!
# The incremental worker

`IncrementalWorker.handle` as a program on the state of the worker and the file system.
Whatever the machine decides during a call (the name of a new directory, what the compiler
writes and answers, and where a step on the file system throws) is in the `Environment` of
the call, so a run is a sequence of requests with arbitrary environments.

Four fields of the `World` are no state of the program but a record of what happened: `issued`,
`lost`, `history` and `sent`.
-/

namespace RulesElide.IncrementalWorker

open WorkerProtocol

/-! ## State -/

/-- `State`. -/
structure State where
  signature : String
  root : Path
  deriving DecidableEq

/-- One request that was forwarded to the compiler. -/
structure Compilation where
  output : Path
  signature : String
  /-- The root whose classes and cache the compiler was given. -/
  root : Path
  /-- The number of inputs of the request. -/
  inputs : ℕ
  /-- Whether the root still had all files that were not deleted along with all others. -/
  intact : Bool
  /-- The exit code of the compiler's answer, if there was a valid one. -/
  answer : Option JavaInt := none
  /-- Whether the classes were packed into the jar without an error. -/
  packed : Bool := false
  deriving DecidableEq

structure World where
  states : Path → Option State := fun _ => none
  /-- The number of the resident compiler process. -/
  compiler : Option ℕ := none
  /-- The number of compiler processes that were started. -/
  started : ℕ := 0
  disk : Disk
  /-- The roots that were created. -/
  issued : List Path := []
  /-- The files that were deleted by a `remove` that left other files behind. -/
  lost : List Path := []
  /-- The requests that were forwarded, in order. -/
  history : List Compilation := []
  /-- The requests that were written to a compiler process, with its number, in order. -/
  sent : List (ℕ × WorkRequest) := []

/-- `states.put(output, state)`. -/
def World.store (world : World) (output : Path) (state : State) : World :=
  { world with states := Function.update world.states output (some state) }

/-- `states.remove(output)`. -/
def World.drop (world : World) (output : Path) : World :=
  { world with states := Function.update world.states output none }

theorem World.store_states {world : World} {output other : Path} {state found : State} :
    (world.store output state).states other = some found ↔
      (other = output ∧ found = state) ∨ (other ≠ output ∧ world.states other = some found) := by
  rcases eq_or_ne other output with rfl | hne
  · simp [World.store, eq_comm]
  · simp [World.store, hne]

theorem World.drop_states {world : World} {output other : Path} {found : State} :
    (world.drop output).states other = some found ↔
      other ≠ output ∧ world.states other = some found := by
  rcases eq_or_ne other output with rfl | hne
  · simp [World.drop]
  · simp [World.drop, hne]

/-- What holds of the new state and of the old ones holds of all states. -/
theorem World.forall_store {world : World} {output : Path} {state : State}
    {holds : Path → State → Prop} (hnew : holds output state)
    (hold : ∀ other found, world.states other = some found → holds other found) :
    ∀ other found, (world.store output state).states other = some found → holds other found := by
  intro other found hfound
  rcases World.store_states.mp hfound with ⟨rfl, rfl⟩ | ⟨_, hfound⟩
  · exact hnew
  · exact hold other found hfound

theorem World.forall_drop {world : World} {output : Path} {holds : Path → State → Prop}
    (hold : ∀ other found, world.states other = some found → holds other found) :
    ∀ other found, (world.drop output).states other = some found → holds other found :=
  fun other found hfound => hold other found (World.drop_states.mp hfound).2

/-- No two outputs have states with one root. -/
def World.DistinctRoots (world : World) : Prop :=
  ∀ output output' state state', world.states output = some state →
    world.states output' = some state' → state.root = state'.root → output = output'

theorem World.DistinctRoots.store {world : World} {output : Path} {state : State}
    (h : world.DistinctRoots)
    (hunnamed : ∀ other found, world.states other = some found → found.root ≠ state.root) :
    (world.store output state).DistinctRoots := by
  intro other other' found found' hfound hfound' hroot
  rcases World.store_states.mp hfound with ⟨rfl, rfl⟩ | ⟨_, hold⟩ <;>
    rcases World.store_states.mp hfound' with ⟨rfl, rfl⟩ | ⟨_, hold'⟩
  · rfl
  · exact absurd hroot.symm (hunnamed other' found' hold')
  · exact absurd hroot (hunnamed other found hold)
  · exact h other other' found found' hold hold' hroot

theorem World.DistinctRoots.drop {world : World} (h : world.DistinctRoots) (output : Path) :
    (world.drop output).DistinctRoots :=
  fun other other' found found' hfound hfound' =>
    h other other' found found' (World.drop_states.mp hfound).2 (World.drop_states.mp hfound').2

/-- Where a sequence of steps stops: after `done` of them, with an exception. -/
structure Fault where
  done : ℕ
  thrown : Throwable

/-- What the machine does during one call of `handle`. -/
structure Environment where
  /-- Deleting the root of an outdated state. -/
  outdated : Option Fault := none
  /-- `Files.createTempDirectory`: the suffix of the name it makes up. -/
  directory : Except Throwable String
  /-- Creating the classes directory. -/
  classes : Option Fault := none
  /-- Starting the compiler. -/
  start : Option Throwable := none
  /-- Sending it the request. -/
  send : Option Throwable := none
  /-- What the compiler writes, and the files it deletes, relative to the root. -/
  writes : List (Path × Node) := []
  deletes : List Path := []
  /-- `WorkResponse.parseDelimitedFrom` on the output of the compiler. -/
  receive : Except Throwable (Option WorkResponse)
  /-- Creating the directory of the jar. -/
  parent : Option Fault := none
  /-- Packing the jar, class by class. -/
  pack : Option Fault := none
  /-- Deleting the root of a failed compilation. -/
  failed : Option Fault := none
  /-- Deleting and creating the scratch directory after an exception. -/
  scratch : Option Fault := none
  recreate : Option Fault := none

/-- Code of the worker. -/
abbrev Worker := ExceptT Throwable (StateM World)

/-! ## Steps on the file system -/

/-- The steps that are taken before the fault, if there is one. -/
def Fault.cut {Step : Type} (fault : Option Fault) (steps : List Step) : List Step :=
  match fault with
  | none => steps
  | some fault => steps.take fault.done

def raise (thrown : Option Throwable) : Worker Unit :=
  match thrown with
  | none => return
  | some thrown => throw thrown

/-- Throws the exception of the fault, if there is one. -/
def Fault.raise (fault : Option Fault) : Worker Unit :=
  IncrementalWorker.raise (fault.map Fault.thrown)

/-- The world after the entries of `root` were deleted up to the fault. -/
def World.removed (world : World) (root : Path) (fault : Option Fault) : World :=
  let deleted := Fault.cut fault (world.disk.walkReversed root)
  let disk := world.disk.erase deleted
  -- files that went together with all others leave nothing damaged behind
  let lost :=
    if disk.filesInside root = [] then world.lost.filter fun path => ¬ root <+: path
    else world.lost ++ (world.disk.filesInside root).filter (· ∈ deleted)
  { world with disk, lost }

/-- `remove`. -/
def remove (root : Path) (fault : Option Fault) : Worker Unit := do
  let world ← get
  if world.disk.holds root then
    set (world.removed root fault)
    Fault.raise fault

/-- `Files.createDirectories`. -/
def createDirectories (path : Path) (fault : Option Fault) : Worker Unit := do
  let world ← get
  if path.inits.any fun directory => (world.disk.lookup directory).any Node.isRegularFile then
    throw (.ioException path.toString)
  else do
    let created := Fault.cut fault (world.disk.missingDirectories path)
    set { world with
      disk := created.foldl (fun disk directory => disk.write directory .directory) world.disk }
    Fault.raise fault

/-- `Files.createTempDirectory(scratch, "target-")`: a new directory whose name was not used
before. -/
def createTempDirectory (scratch : Path) (suffix : Except Throwable String) : Worker Path := do
  let suffix ← MonadExcept.ofExcept suffix
  let root := scratch ++ ["target-" ++ suffix]
  let world ← get
  if ¬ world.disk.holds scratch ∨ world.disk.holds root ∨ root ∈ world.issued then
    throw (.ioException (Path.toString root))
  else do
    set { world with
      disk := world.disk.write root .directory
      issued := world.issued ++ [root]
      lost := world.lost.filter fun path => ¬ root <+: path }
    return root

/-! ## `compile` and `pack` -/

/-- What the compiler does to the root it was given. -/
def World.compiled (world : World) (root : Path) (env : Environment) : World :=
  let kept := world.disk.erase (env.deletes.map (root ++ ·))
  { world with
    disk := env.writes.foldl (fun disk entry => disk.write (root ++ entry.1) entry.2) kept }

/-- The part of `compile` that starts the compiler if there is none. -/
def ensureCompiler (env : Environment) : Worker Unit := do
  if (← get).compiler.isNone then
    raise env.start
    modify fun world => { world with compiler := some world.started, started := world.started + 1 }

/-- Records that a request is written to the compiler. -/
def World.write (world : World) (request : WorkRequest) : World :=
  { world with sent := world.sent ++ world.compiler.toList.map fun process => (process, request) }

/-- `compile`. -/
def compile (env : Environment) (root : Path) (request : WorkRequest) : Worker WorkResponse := do
  ensureCompiler env
  -- also when writing fails, the compiler may have read the request
  modify (·.write request)
  modify (·.compiled root env)
  raise env.send
  let response ← MonadExcept.ofExcept env.receive
  match response with
  | some response =>
      if response.requestId = request.requestId then return response
      else throw mismatch
  | none => throw mismatch
where
  /-- What `compile` throws on the end of the stream or an answer to another request. -/
  mismatch : Throwable :=
    .ioException "Elide incremental worker closed or returned a mismatched request ID"

/-- The name of the entry for a file: relative to the classes directory, with slashes only. -/
def entryName (classes file : Path) : String :=
  String.ofList ((("/".intercalate (file.drop classes.length)).toList).map fun character =>
    if character = '\\' then '/' else character)

/-- The loop of `pack` over the sorted class files; `putNextEntry` refuses a name that is
already in the jar. -/
def packEntries (disk : Disk) (classes : Path) :
    List Path → List (String × Bytes) → Except Throwable Unit × List (String × Bytes)
  | [], entries => (.ok (), entries)
  | file :: files, entries =>
      let name := entryName classes file
      if name ∈ entries.map Prod.fst then
        (.error (.ioException ("duplicate entry: " ++ name)), entries)
      else packEntries disk classes files
        (entries ++ [(name, ((disk.lookup file).map Node.content).getD [])])

/-- `pack`. -/
def pack (classes jar : Path) (parent fault : Option Fault) : Worker Unit := do
  if jar = [] then throw .nullPointer
  else do
    createDirectories jar.dropLast parent
    let world ← get
    -- `Files.walk(classes)` and `Files.newOutputStream(jar)` come before any entry is written
    if ¬ world.disk.holds classes ∨ world.disk.lookup jar = some .directory then
      throw (.ioException jar.toString)
    else do
      let disk := world.disk.write jar (.jar [])
      let files := (disk.filesInside classes).insertionSort Path.compareToLe
      let (outcome, entries) := packEntries disk classes (Fault.cut fault files) []
      set { world with disk := disk.write jar (.jar entries) }
      MonadExcept.ofExcept outcome
      Fault.raise fault

/-! ## `handle` -/

/-- The branch that decides whether the state of an output is used again. -/
def prepare (scratch : Path) (env : Environment) (request : WorkRequest) (output : Path)
    (signature : String) : Worker State := do
  let state := (← get).states output
  match state with
  | some state =>
      if signature ≠ state.signature ∨ request.inputs.length = 0 then do
        -- the old state stays where it is until `renew` replaces it
        remove state.root env.outdated
        renew
      else return state
  | none => renew
where
  /-- A new state for the output. -/
  renew : Worker State := do
    let root ← createTempDirectory scratch env.directory
    let state : State := { signature, root }
    modify (·.store output state)
    return state

/-- A root has lost some of its files and kept others. -/
def Damaged (world : World) (root : Path) : Prop :=
  (∃ path ∈ world.lost, root <+: path) ∧ world.disk.filesInside root ≠ []

instance (world : World) (root : Path) : Decidable (Damaged world root) :=
  inferInstanceAs (Decidable (_ ∧ _))

/-- The output of a request: the normalised path after `-d`. -/
def requestedOutput (platform : Platform) (args : List String) : Except Throwable Path :=
  let separator := indexOf args "--"
  let destination := indexOf args "-d"
  if separator < 0 ∨ destination ≤ separator ∨ destination + 1 ≥ args.length then
    .error (.illegalArgument "IC worker requires -- ... -d <output.jar>")
  else Path.absolute platform.workingDirectory (args.getD (destination + 1).toNat "")

/-- The arguments that are forwarded: the classes directory in the place of the jar, and the
cache directory in front of the separator. -/
def forwardedArguments (args : List String) (root : Path) : List String :=
  let separator := (indexOf args "--").toNat
  let destination := (indexOf args "-d").toNat
  let args := args.set (destination + 1) (Path.toString (root ++ ["classes"]))
  args.take separator ++
    ["--incremental", "--incremental-cache-dir", Path.toString (root ++ ["cache"])] ++
    args.drop separator

/-- Records that a request is forwarded with a root. -/
def World.forward (world : World) (request : WorkRequest) (output : Path) (signature : String)
    (root : Path) : World :=
  { world with
    history := world.history ++
      [{ output, signature, root
         inputs := request.inputs.length
         intact := decide (¬ Damaged world root) }] }

/-- Changes what is recorded of the last forwarded request. -/
def World.amend (world : World) (change : Compilation → Compilation) : World :=
  { world with history := world.history.modifyLast change }

/-- The rest of the `try`, once the compiler has answered. -/
def publish (env : Environment) (output : Path) (state : State) (response : WorkResponse) :
    Worker WorkResponse := do
  modify (·.amend fun compilation => { compilation with answer := some response.exitCode })
  if response.exitCode = 0 then do
    pack (state.root ++ ["classes"]) output env.parent env.pack
    modify (·.amend fun compilation => { compilation with packed := true })
  else do
    modify (·.drop output)
    remove state.root env.failed
  return response

/-- The body of the `try`. -/
def attempt (env : Environment) (request : WorkRequest) (args : List String) (output : Path)
    (signature : String) (state : State) : Worker WorkResponse := do
  let forwarded ← MonadExcept.ofExcept (request.withArguments args)
  modify (·.forward request output signature state.root)
  let response ← compile env state.root forwarded
  publish env output state response

/-- The body of the `catch`. -/
def abandon (scratch : Path) (env : Environment) : Worker Unit := do
  modify fun world => { world with states := fun _ => none, compiler := none }
  remove scratch env.scratch
  createDirectories scratch env.recreate

/-- `handle`. -/
def handle (platform : Platform) (scratch : Path) (env : Environment) (request : WorkRequest) :
    Worker WorkResponse := do
  let output ← MonadExcept.ofExcept (requestedOutput platform request.arguments)
  let signature := signature platform request
  let state ← prepare scratch env request output signature
  createDirectories (state.root ++ ["classes"]) env.classes
  let args := forwardedArguments request.arguments state.root
  -- an exception in the lines above leaves the states and the compiler as they are
  tryCatch (attempt env request args output signature state) fun failure => do
    if failure.isException then abandon scratch env
    throw failure

/-! ## Frames -/

/-- Only the disk differs. -/
def SameButDisk (world after : World) : Prop :=
  ∃ disk, after = { world with disk }

/-- Only the disk, the compiler process and what was sent to it differ. -/
def SameButCompiler (world after : World) : Prop :=
  ∃ disk compiler started sent, after = { world with disk, compiler, started, sent }

/-- Only the disk and the record of the lost files differ. -/
def SameButFiles (world after : World) : Prop :=
  ∃ disk lost, after = { world with disk, lost }

instance : IsTrans World SameButDisk :=
  ⟨by
    rintro world _ _ ⟨disk, rfl⟩ ⟨disk', rfl⟩
    exact ⟨disk', rfl⟩⟩

instance : Std.Refl SameButCompiler :=
  ⟨fun world => ⟨world.disk, world.compiler, world.started, world.sent, rfl⟩⟩

instance : IsTrans World SameButCompiler :=
  ⟨by
    rintro world _ _ ⟨_, _, _, _, rfl⟩ ⟨disk', compiler', started', sent', rfl⟩
    exact ⟨disk', compiler', started', sent', rfl⟩⟩

section

open Effects

theorem run_raise (thrown : Option Throwable) (world : World) :
    (run (raise thrown) world).2 = world := by
  cases thrown <;> rfl

theorem run_fault_raise (fault : Option Fault) (world : World) :
    (run (Fault.raise fault) world).2 = world :=
  run_raise _ world

theorem Fault.mem_of_mem_cut {Step : Type} {fault : Option Fault} {steps : List Step} {step : Step}
    (h : step ∈ Fault.cut fault steps) : step ∈ steps := by
  unfold Fault.cut at h
  split at h
  · exact h
  · exact List.mem_of_mem_take h

theorem run_remove (root : Path) (fault : Option Fault) (world : World) :
    (run (remove root fault) world).2 =
      if world.disk.holds root then world.removed root fault else world := by
  unfold remove
  rw [run_bind_of_ok (run_get world)]
  split
  · rw [run_bind_of_ok (run_set world _), run_fault_raise]
  · rfl

theorem remove_within (root : Path) (fault : Option Fault) :
    Within SameButFiles (remove root fault) := by
  intro world
  rw [run_remove]
  split
  · exact ⟨_, _, rfl⟩
  · exact ⟨world.disk, world.lost, rfl⟩

theorem createDirectories_within (path : Path) (fault : Option Fault) :
    Within SameButDisk (createDirectories path fault) := by
  intro world
  unfold createDirectories
  rw [run_bind_of_ok (run_get world)]
  dsimp only
  split
  · exact ⟨world.disk, rfl⟩
  · rw [run_bind_of_ok (run_set world _), run_fault_raise]
    exact ⟨_, rfl⟩

/-- What exists is kept. -/
theorem createDirectories_keeps {path file : Path} {fault : Option Fault}
    {world : World} {node : Node}
    (hfile : (file, node) ∈ world.disk) :
    (file, node) ∈ (run (createDirectories path fault) world).2.disk ∧
      (run (createDirectories path fault) world).2.disk.lookup file = world.disk.lookup file := by
  unfold createDirectories
  rw [run_bind_of_ok (run_get world)]
  dsimp only
  split
  · exact ⟨hfile, rfl⟩
  · rw [run_bind_of_ok (run_set world _), run_fault_raise]
    have hold : file ∉ Fault.cut fault (world.disk.missingDirectories path) := by
      intro hmissing
      have hnew := (List.mem_filter.mp (Fault.mem_of_mem_cut hmissing)).2
      have hholds : world.disk.holds file = true := by
        rw [Disk.holds, Option.isSome_iff_ne_none.mpr (Disk.lookup_ne_none hfile), Bool.or_true]
      rw [hholds] at hnew
      cases hnew
    obtain ⟨hlookup, hmem⟩ := @Disk.foldl_directory file _ world.disk hold
    exact ⟨hmem node hfile, hlookup⟩

theorem pack_within (classes jar : Path) (parent fault : Option Fault) :
    Within SameButDisk (pack classes jar parent fault) := by
  unfold pack
  by_cases hroot : jar = []
  · rw [if_pos hroot]
    exact fun world => ⟨world.disk, rfl⟩
  · rw [if_neg hroot]
    refine Within.bind (createDirectories_within _ _) fun _ => ?_
    intro world
    rw [run_bind_of_ok (run_get world)]
    dsimp only
    split
    · exact ⟨world.disk, rfl⟩
    · generalize packEntries _ _ _ _ = result
      obtain ⟨outcome, entries⟩ := result
      cases outcome with
      | error thrown => exact ⟨_, rfl⟩
      | ok _ => exact ⟨_, run_fault_raise fault _⟩

theorem ensureCompiler_within (env : Environment) :
    Within SameButCompiler (ensureCompiler env) := by
  intro world
  unfold ensureCompiler
  rw [run_bind_of_ok (run_get world)]
  split
  · cases env.start with
    | none => exact ⟨_, _, _, _, rfl⟩
    | some thrown => exact ⟨_, _, _, _, rfl⟩
  · exact ⟨_, _, _, _, rfl⟩

/-- A new directory is inside the scratch directory, and no root was there before. -/
theorem createTempDirectory_spec (scratch : Path) (suffix : Except Throwable String)
    (world : World) :
    Triple (· = world) (createTempDirectory scratch suffix)
      (fun root after => (∃ name, root = scratch ++ [name]) ∧ root ∉ world.issued ∧
        ∃ disk, after = { world with
          disk
          issued := world.issued ++ [root]
          lost := world.lost.filter fun path => ¬ root <+: path })
      (fun _ after => after = world) := by
  refine Triple.ofExcept_bind (fun suffix _ => ?_) fun _ _ _ h => h
  refine Triple.get_bind fun current hcurrent => ?_
  subst hcurrent
  split
  · exact Triple.throw fun _ h => h
  · rename_i hfresh
    simp only [not_or] at hfresh
    obtain ⟨_, _, hissued⟩ := hfresh
    exact Triple.bind (Triple.set ⟨⟨_, rfl⟩, hissued, _, rfl⟩) fun _ => Triple.pure fun _ h => h

theorem compile_within (env : Environment) (root : Path) (request : WorkRequest) :
    Within SameButCompiler (compile env root request) := by
  unfold compile
  refine Within.bind (ensureCompiler_within env) fun _ => ?_
  refine Within.bind (Within.modify fun world => ⟨_, _, _, _, rfl⟩) fun _ => ?_
  refine Within.bind (Within.modify fun world => ⟨_, _, _, _, rfl⟩) fun _ => ?_
  refine Within.bind (fun world => by rw [run_raise]; exact Std.Refl.refl world) fun _ => ?_
  refine Within.bind (fun world => by rw [run_ofExcept]; exact Std.Refl.refl world)
    fun response => ?_
  cases response with
  | none => exact Within.throw _
  | some response =>
      dsimp only
      split
      · exact Within.pure response
      · exact Within.throw _

end

/-! ## Runs -/

/-- A worker that has just been started: it has created its scratch directory. -/
def Initial (scratch : Path) (world : World) : Prop :=
  ∃ disk : Disk, disk.holds scratch ∧ world = { disk }

/-- The outcome of a call of `handle`, and the world after it. -/
def call (platform : Platform) (scratch : Path) (world : World) (env : Environment)
    (request : WorkRequest) : Except Throwable WorkResponse × World :=
  Effects.run (handle platform scratch env request) world

/-- The loop of `main` goes on after a response or an exception; other throwables end it. -/
def GoesOn (outcome : Except Throwable WorkResponse) : Prop :=
  ∀ thrown, outcome = .error thrown → thrown.isException

instance : DecidablePred GoesOn := fun outcome =>
  match outcome with
  | .ok _ => .isTrue nofun
  | .error thrown => decidable_of_iff thrown.isException (by simp [GoesOn])

/-- One call of `handle` that the worker survives. -/
def Step (platform : Platform) (scratch : Path) (world after : World) : Prop :=
  ∃ env request, (call platform scratch world env request).2 = after ∧
    GoesOn (call platform scratch world env request).1

end RulesElide.IncrementalWorker
