import RulesElide.IncrementalWorker.Reuse

/-!
# Damaged roots

A root is damaged when a `remove` stopped halfway: some of its files are gone and others are
left.  `handle` drops the state of an output before it deletes the root of a failed
compilation, but not before it deletes the root of an outdated state, and that deletion is
outside the `try`.  `leaves_no_damage_iff` says that this is the only way a damaged root
stays among the states: it needs an outdated state, and a fault between two of its files.
-/

namespace RulesElide.IncrementalWorker

open Effects Transition WorkerProtocol

/-- No state names a damaged root. -/
def NoDamagedEntry (world : World) : Prop :=
  ∀ output state, world.states output = some state → ¬ Damaged world state.root

/-- Nothing was compiled in a damaged root. -/
def NothingCompiledDamaged (world : World) : Prop :=
  ∀ compilation ∈ world.history, compilation.intact = true

/-- A call that throws leaves no damaged root among the states, and no request was forwarded
with a damaged root. -/
def LeavesNoDamage (platform : Platform) (scratch : Path) (env : Environment)
    (request : WorkRequest) (world : World) : Prop :=
  (∀ thrown, (call platform scratch world env request).1 = .error thrown →
    NoDamagedEntry (call platform scratch world env request).2) ∧
  NothingCompiledDamaged (call platform scratch world env request).2

/-- Deleting the root up to the fault deletes one file and keeps another. -/
def Torn (world : World) (root : Path) (fault : Option Fault) : Prop :=
  (∃ file ∈ world.disk.filesInside root, file ∈ Fault.cut fault (world.disk.walkReversed root)) ∧
    ∃ file ∈ world.disk.filesInside root, file ∉ Fault.cut fault (world.disk.walkReversed root)

/-- The output has a state that the request cannot use. -/
def Outdated (request : WorkRequest) (signature : String) (state : State) : Prop :=
  signature ≠ state.signature ∨ request.inputs.length = 0

/-- Evicting the outdated state of an output tears its root. -/
def EvictionTearsAt (env : Environment) (request : WorkRequest) (output : Path)
    (signature : String) (world : World) : Prop :=
  ∃ state, world.states output = some state ∧ Outdated request signature state ∧
    world.disk.holds state.root ∧ Torn world state.root env.outdated

/-- Evicting the outdated state of the output of the request tears its root. -/
def EvictionTears (platform : Platform) (env : Environment) (request : WorkRequest)
    (world : World) : Prop :=
  ∃ output, requestedOutput platform request.arguments = .ok output ∧
    EvictionTearsAt env request output (signature platform request) world

/-- A call whose eviction, if there is one, does not tear a root. -/
def CarefulStep (platform : Platform) (scratch : Path) (world after : World) : Prop :=
  ∃ env request, ¬ EvictionTears platform env request world ∧
    (call platform scratch world env request).2 = after ∧
      GoesOn (call platform scratch world env request).1

/-- The invariant: every root is a directory of its own in the scratch directory, and no file
that was deleted alone is in the root of a state. -/
structure Whole (scratch : Path) (world : World) : Prop where
  stateIssued : ∀ output state, world.states output = some state → state.root ∈ world.issued
  rooted : ∀ root ∈ world.issued, ∃ name, root = scratch ++ [name]
  distinct : world.DistinctRoots
  undamaged : ∀ output state, world.states output = some state →
    ∀ path ∈ world.lost, ¬ state.root <+: path
  intact : NothingCompiledDamaged world

variable {platform : Platform} {scratch output root : Path} {env : Environment}
  {request : WorkRequest} {signature : String} {state : State} {world : World}
  {fault : Option Fault}

theorem Whole.noDamagedEntry (h : Whole scratch world) : NoDamagedEntry world := by
  intro output state hstate hdamaged
  obtain ⟨⟨path, hlost, hinside⟩, _⟩ := hdamaged
  exact h.undamaged output state hstate path hlost hinside

/-! ## Deleting a directory -/

/-- What is newly lost was inside the directory. -/
theorem lost_of_removed {path : Path} (h : path ∈ (world.removed root fault).lost) :
    path ∈ world.lost ∨ root <+: path := by
  simp only [World.removed] at h
  split at h
  · exact Or.inl (List.mem_filter.mp h).1
  · rcases List.mem_append.mp h with hold | hnew
    · exact Or.inl hold
    · exact Or.inr (Disk.prefix_of_mem_filesInside (List.mem_filter.mp hnew).1)

/-- Unless the directory is torn, nothing is newly lost. -/
theorem lost_of_not_torn (htorn : ¬ Torn world root fault) :
    (world.removed root fault).lost ⊆ world.lost := by
  intro path h
  simp only [World.removed] at h
  split at h
  · exact (List.mem_filter.mp h).1
  · -- a file was kept; had another one been deleted, the directory would be torn
    rename_i hkept
    rcases List.mem_append.mp h with hold | hnew
    · exact hold
    · obtain ⟨hinside, hdeleted⟩ := List.mem_filter.mp hnew
      rw [Disk.filesInside_erase] at hkept
      obtain ⟨file, hfile⟩ := List.exists_mem_of_ne_nil _ hkept
      obtain ⟨hfile, hnot⟩ := List.mem_filter.mp hfile
      exact absurd ⟨⟨path, hinside, of_decide_eq_true hdeleted⟩, file, hfile,
        of_decide_eq_true hnot⟩ htorn

/-- A torn directory is damaged. -/
theorem damaged_of_torn (htorn : Torn world root fault) :
    Damaged (world.removed root fault) root := by
  obtain ⟨⟨gone, hgone, hdeleted⟩, kept, hkept, hnot⟩ := htorn
  have hleft : (world.removed root fault).disk.filesInside root ≠ [] := by
    apply List.ne_nil_of_mem
    change kept ∈ (world.disk.erase _).filesInside root
    rw [Disk.filesInside_erase]
    exact List.mem_filter.mpr ⟨hkept, decide_eq_true hnot⟩
  refine ⟨⟨gone, ?_, Disk.prefix_of_mem_filesInside hgone⟩, hleft⟩
  simp only [World.removed] at hleft ⊢
  rw [if_neg hleft]
  exact List.mem_append_right _ (List.mem_filter.mpr ⟨hgone, decide_eq_true hdeleted⟩)

/-- No path is inside two roots. -/
theorem eq_of_prefix_of_prefix {name name' : String} {path : Path}
    (h : scratch ++ [name] <+: path) (h' : scratch ++ [name'] <+: path) :
    scratch ++ [name] = scratch ++ [name'] := by
  have hlength : (scratch ++ [name]).length = (scratch ++ [name']).length := by
    rw [List.length_append, List.length_append, List.length_singleton, List.length_singleton]
  exact (List.prefix_of_prefix_length_le h h' hlength.le).eq_of_length hlength

/-! ## What keeps the invariant -/

theorem Whole.of_files (h : Whole scratch world) {disk : Disk} {lost : List Path}
    (hlost : lost ⊆ world.lost) : Whole scratch { world with disk, lost } :=
  ⟨h.stateIssued, h.rooted, h.distinct,
    fun output state hstate path hpath => h.undamaged output state hstate path (hlost hpath),
    h.intact⟩

theorem Whole.of_compiler {after : World} (h : Whole scratch world)
    (hsame : SameButCompiler world after) : Whole scratch after := by
  obtain ⟨disk, compiler, started, sent, rfl⟩ := hsame
  exact ⟨h.stateIssued, h.rooted, h.distinct, h.undamaged, h.intact⟩

theorem Whole.of_disk {after : World} (h : Whole scratch world) (hsame : SameButDisk world after) :
    Whole scratch after := by
  obtain ⟨disk, rfl⟩ := hsame
  exact h.of_files fun _ hpath => hpath

theorem Whole.drop (h : Whole scratch world) (output : Path) : Whole scratch (world.drop output) :=
  ⟨World.forall_drop h.stateIssued, h.rooted, h.distinct.drop output, World.forall_drop h.undamaged,
    h.intact⟩

/-- What is recorded of an answer does not change where the request was compiled. -/
theorem Whole.amend (h : Whole scratch world) {change : Compilation → Compilation}
    (hchange : ∀ compilation, (change compilation).intact = compilation.intact) :
    Whole scratch (world.amend change) := by
  refine ⟨h.stateIssued, h.rooted, h.distinct, h.undamaged, ?_⟩
  have hintact := h.intact
  -- only the last compilation is amended
  rcases List.eq_nil_or_concat world.history with hnil | ⟨earlier, last, hlast⟩
  · intro compilation hmem
    rw [World.amend, hnil] at hmem
    exact absurd hmem List.not_mem_nil
  · rw [List.concat_eq_append] at hlast
    intro compilation hmem
    rw [World.amend, hlast, List.modifyLast_concat] at hmem
    rw [NothingCompiledDamaged, hlast] at hintact
    rcases List.mem_append.mp hmem with hearlier | hchanged
    · exact hintact compilation (List.mem_append_left _ hearlier)
    · obtain rfl := List.mem_singleton.mp hchanged
      rw [hchange]
      exact hintact last (List.mem_append_right _ List.mem_cons_self)

/-- Deleting a directory that has no path in common with the root of a state. -/
theorem remove_whole (root : Path) (fault : Option Fault) :
    Triple
      (fun world => Whole scratch world ∧ ∀ output state, world.states output = some state →
        ∀ path, state.root <+: path → ¬ root <+: path)
      (remove root fault) (fun _ => Whole scratch) (fun _ => Whole scratch) := by
  apply Triple.of_final
  intro world hworld
  obtain ⟨hwhole, hapart⟩ := hworld
  rw [run_remove]
  split
  · refine ⟨hwhole.stateIssued, hwhole.rooted, hwhole.distinct, ?_, hwhole.intact⟩
    intro output state hstate path hlost hinside
    -- a lost file was lost before, or was just deleted in this root
    rcases lost_of_removed hlost with hold | hnew
    · exact hwhole.undamaged output state hstate path hold hinside
    · exact hapart output state hstate path hinside hnew
  · exact hwhole

/-! ## Preparing the state -/

/-- No state names the root, and no file was lost in it. -/
def Untouched (root : Path) (world : World) : Prop :=
  root ∈ world.issued ∧
    (∀ output state, world.states output = some state → state.root ≠ root) ∧
      ∀ path ∈ world.lost, ¬ root <+: path

theorem createTempDirectory_whole (suffix : Except Throwable String) :
    Triple (Whole scratch) (createTempDirectory scratch suffix)
      (fun root world => Whole scratch world ∧ Untouched root world) (fun _ => Whole scratch) := by
  apply Triple.of_states
  intro world hwhole
  refine (createTempDirectory_spec scratch suffix world).mono ?_ fun _ _ hworld => hworld ▸ hwhole
  -- the new root was never issued, so no state and no lost file is in it
  intro root after hafter
  obtain ⟨hname, hissued, disk, rfl⟩ := hafter
  refine ⟨⟨?_, ?_, hwhole.distinct, ?_, hwhole.intact⟩, ?_, ?_, ?_⟩
  · intro output state hstate
    exact List.mem_append_left _ (hwhole.stateIssued output state hstate)
  · intro root' hroot
    rcases List.mem_append.mp hroot with hold | hnew
    · exact hwhole.rooted root' hold
    · obtain rfl := List.mem_singleton.mp hnew
      exact hname
  · intro output state hstate path hlost
    exact hwhole.undamaged output state hstate path (List.mem_filter.mp hlost).1
  · exact List.mem_append_right _ List.mem_cons_self
  · intro output state hstate hroot
    exact hissued (hroot ▸ hwhole.stateIssued output state hstate)
  · intro path hlost
    exact of_decide_eq_true (List.mem_filter.mp hlost).2

theorem Whole.store (h : Whole scratch world) (huntouched : Untouched root world) (output : Path)
    (signature : String) : Whole scratch (world.store output { signature, root }) where
  stateIssued := World.forall_store huntouched.1 h.stateIssued
  rooted := h.rooted
  distinct := h.distinct.store huntouched.2.1
  undamaged := World.forall_store huntouched.2.2 h.undamaged
  intact := h.intact

/-- The invariant, and the state of the output. -/
def WholeWith (scratch output : Path) (state : State) (world : World) : Prop :=
  Whole scratch world ∧ world.states output = some state

theorem renew_whole :
    Triple (Whole scratch) (prepare.renew scratch env output signature)
      (WholeWith scratch output) (fun _ => Whole scratch) := by
  refine Triple.bind (createTempDirectory_whole env.directory) fun root => ?_
  refine Triple.modify_bind (WholeWith scratch output { signature, root }) (fun world hworld => ?_)
    (Triple.pure fun _ h => h)
  obtain ⟨hwhole, huntouched⟩ := hworld
  exact ⟨hwhole.store huntouched output signature, World.store_states.mpr (Or.inl ⟨rfl, rfl⟩)⟩

theorem prepare_whole :
    Triple (fun world => Whole scratch world ∧ ¬ EvictionTearsAt env request output signature world)
      (prepare scratch env request output signature)
      (WholeWith scratch output) (fun _ => Whole scratch) := by
  have hrenew : Triple (Whole scratch) (prepare.renew scratch env output signature)
      (WholeWith scratch output) (fun _ => Whole scratch) := renew_whole
  refine Triple.get_bind fun world hworld => ?_
  obtain ⟨hwhole, htears⟩ := hworld
  dsimp only
  split
  · rename_i state hstate
    split
    · rename_i houtdated
      have hremove : Triple (· = world) (remove state.root env.outdated)
          (fun _ => Whole scratch) (fun _ => Whole scratch) := by
        apply Triple.of_final
        intro current hcurrent
        rw [hcurrent, run_remove]
        split
        · rename_i hholds
          -- the condition of the step: the eviction deletes the root or nothing
          have htorn : ¬ Torn world state.root env.outdated :=
            fun htorn => htears ⟨state, hstate, houtdated, hholds, htorn⟩
          exact hwhole.of_files (lost_of_not_torn htorn)
        · exact hwhole
      exact Triple.bind hremove fun _ => hrenew
    · exact Triple.pure fun _ hcurrent => hcurrent ▸ ⟨hwhole, hstate⟩
  · exact hrenew.at_state hwhole

/-! ## A whole call -/

theorem WholeWith.of_compiler {after : World} (h : WholeWith scratch output state world)
    (hsame : SameButCompiler world after) : WholeWith scratch output state after := by
  obtain ⟨hwhole, hstate⟩ := h
  refine ⟨hwhole.of_compiler hsame, ?_⟩
  obtain ⟨_, _, _, _, rfl⟩ := hsame
  exact hstate

theorem WholeWith.of_disk {after : World} (h : WholeWith scratch output state world)
    (hsame : SameButDisk world after) : WholeWith scratch output state after := by
  obtain ⟨disk, rfl⟩ := hsame
  exact h.of_compiler ⟨disk, world.compiler, world.started, world.sent, rfl⟩

/-- Forwarding a request: the root is not damaged. -/
theorem WholeWith.forward (h : WholeWith scratch output state world) :
    WholeWith scratch output state (world.forward request output signature state.root) := by
  obtain ⟨hwhole, hstate⟩ := h
  refine ⟨⟨hwhole.stateIssued, hwhole.rooted, hwhole.distinct, hwhole.undamaged, ?_⟩, hstate⟩
  intro compilation hmem
  rcases List.mem_append.mp hmem with hearlier | hlast
  · exact hwhole.intact compilation hearlier
  · obtain rfl := List.mem_singleton.mp hlast
    exact decide_eq_true (hwhole.noDamagedEntry output state hstate)

/-- Once its state is dropped, no path of the root is in the root of another state. -/
theorem WholeWith.apart_of_drop (h : WholeWith scratch output state world) :
    ∀ other found, (world.drop output).states other = some found →
      ∀ path, found.root <+: path → ¬ state.root <+: path := by
  obtain ⟨hwhole, hstate⟩ := h
  intro other found hfound path hother hinside
  obtain ⟨hne, hfound⟩ := World.drop_states.mp hfound
  obtain ⟨name, hname⟩ := hwhole.rooted _ (hwhole.stateIssued other found hfound)
  obtain ⟨name', hname'⟩ := hwhole.rooted _ (hwhole.stateIssued output state hstate)
  -- roots are children of the scratch directory, so two of them on one path are equal
  apply hne
  apply hwhole.distinct other output found state hfound hstate
  rw [hname, hname']
  exact eq_of_prefix_of_prefix (hname ▸ hother) (hname' ▸ hinside)

theorem publish_whole (response : WorkResponse) :
    Triple (WholeWith scratch output state) (publish env output state response)
      (fun _ => Whole scratch) (fun _ => Whole scratch) := by
  refine Triple.modify_bind (WholeWith scratch output state)
    (fun _ h => ⟨h.1.amend fun _ => rfl, h.2⟩) ?_
  split
  · refine Triple.within_bind (pack_within _ _ _ _) (fun _ _ => WholeWith.of_disk)
      (fun _ _ h => h.1) fun _ => ?_
    exact Triple.modify_bind (Whole scratch) (fun _ h => h.1.amend fun _ => rfl)
      (Triple.pure fun _ h => h)
  · refine Triple.modify_bind (fun world => Whole scratch world ∧
      ∀ output found, world.states output = some found →
        ∀ path, found.root <+: path → ¬ state.root <+: path)
      (fun _ h => ⟨h.1.drop output, h.apart_of_drop⟩) ?_
    exact Triple.bind (remove_whole state.root env.failed) fun _ => Triple.pure fun _ h => h

theorem attempt_whole {args : List String} :
    Triple (WholeWith scratch output state) (attempt env request args output signature state)
      (fun _ => Whole scratch) (fun _ => Whole scratch) := by
  refine Triple.ofExcept_bind (fun forwarded _ => ?_) fun _ _ _ h => h.1
  -- at this point the root of the state is not damaged
  refine Triple.modify_bind (WholeWith scratch output state) (fun _ h => h.forward) ?_
  refine Triple.within_bind (compile_within _ _ _) (fun _ _ => WholeWith.of_compiler)
    (fun _ _ h => h.1) ?_
  exact fun response => publish_whole response

theorem abandon_whole :
    Triple (Whole scratch) (abandon scratch env) (fun _ => Whole scratch)
      (fun _ => Whole scratch) := by
  have hrecreate : Triple (Whole scratch) (createDirectories scratch env.recreate)
      (fun _ => Whole scratch) (fun _ => Whole scratch) :=
    Triple.of_within (createDirectories_within scratch env.recreate) fun _ _ => Whole.of_disk
  -- no state is left that could name a damaged root
  refine Triple.modify_bind (fun world => Whole scratch world ∧
    ∀ output found, world.states output = some found →
      ∀ path, found.root <+: path → ¬ scratch <+: path)
    (fun _ h => ⟨⟨nofun, h.rooted, nofun, nofun, h.intact⟩, nofun⟩) ?_
  exact Triple.bind (remove_whole scratch env.scratch) fun _ => hrecreate

/-- A call keeps the invariant unless it evicts a state and tears its root. -/
theorem handle_whole :
    Triple (fun world => Whole scratch world ∧ ¬ EvictionTears platform env request world)
      (handle platform scratch env request)
      (fun _ => Whole scratch) (fun _ => Whole scratch) := by
  -- the condition is about the output that the request asks for
  have houtput : Triple
      (fun world => Whole scratch world ∧ ¬ EvictionTears platform env request world)
      (MonadExcept.ofExcept (requestedOutput platform request.arguments) : Worker Path)
      (fun output world => Whole scratch world ∧
        ¬ EvictionTearsAt env request output (IncrementalWorker.signature platform request) world)
      (fun _ => Whole scratch) := by
    apply Triple.ofExcept
    · intro output hok world hworld
      exact ⟨hworld.1, fun htears => hworld.2 ⟨output, hok, htears⟩⟩
    · exact fun _ _ _ hworld => hworld.1
  refine Triple.bind houtput fun output => Triple.bind prepare_whole fun state => ?_
  refine Triple.within_bind (createDirectories_within _ _) (fun _ _ => WholeWith.of_disk)
    (fun _ _ h => h.1) fun _ => ?_
  refine Triple.tryCatch attempt_whole fun failure => ?_
  dsimp only
  split
  · exact Triple.bind abandon_whole fun _ => Triple.throw fun _ h => h
  · exact Triple.throw fun _ h => h

/-! ## A torn eviction -/

theorem run_remove_torn (hholds : world.disk.holds root) (htorn : Torn world root fault) :
    ∃ thrown, run (remove root fault) world = (.error thrown, world.removed root fault) := by
  cases fault with
  | none =>
      -- without a fault every file is deleted
      obtain ⟨_, file, hfile, hnot⟩ := htorn
      simp only [Disk.filesInside, List.mem_map, List.mem_filter] at hfile
      obtain ⟨entry, ⟨hentry, _⟩, rfl⟩ := hfile
      refine absurd ?_ hnot
      exact (List.mem_insertionSort _).mpr (List.mem_map_of_mem hentry)
  | some fault =>
      refine ⟨fault.thrown, ?_⟩
      unfold remove
      rw [run_bind_of_ok (run_get world), if_pos hholds, run_bind_of_ok (run_set world _)]
      rfl

/-- A torn eviction ends the call and leaves the old state in its place. -/
theorem call_of_evictionTears (htears : EvictionTears platform env request world) :
    ∃ thrown after output state, call platform scratch world env request = (.error thrown, after) ∧
      after.states output = some state ∧ Damaged after state.root := by
  obtain ⟨output, houtput, state, hstate, houtdated, hholds, htorn⟩ := htears
  obtain ⟨thrown, hremove⟩ := run_remove_torn hholds htorn
  refine ⟨thrown, world.removed state.root env.outdated, output, state, ?_, hstate,
    damaged_of_torn htorn⟩
  have hrun : run (MonadExcept.ofExcept (requestedOutput platform request.arguments) : Worker Path)
      world = (.ok output, world) := by
    rw [run_ofExcept, houtput]
  -- `remove` stands outside of the `try`: the old state is still there when it throws
  have hprepare :
    run (prepare scratch env request output (IncrementalWorker.signature platform request))
      world = (.error thrown, world.removed state.root env.outdated) := by
    unfold prepare
    rw [run_bind_of_ok (run_get world)]
    dsimp only
    rw [hstate]
    have hevict : IncrementalWorker.signature platform request ≠ state.signature ∨
        request.inputs.length = 0 := houtdated
    dsimp only
    rw [if_pos hevict, run_bind_of_error hremove]
  unfold call handle
  rw [run_bind_of_ok hrun, run_bind_of_error hprepare]

/-! ## Runs -/

theorem Whole.of_reachable (h : Reachable (Initial scratch) (CarefulStep platform scratch) world) :
    Whole scratch world := by
  -- a worker that was just started has no states and no history
  refine h.invariant ?_ ?_
  · intro world hinitial
    obtain ⟨disk, _, rfl⟩ := hinitial
    exact ⟨nofun, nofun, nofun, nofun, nofun⟩
  · intro world after hwhole hstep
    obtain ⟨env, request, htears, rfl, _⟩ := hstep
    exact handle_whole.after ⟨hwhole, htears⟩

/-- **No reusable damage.**  In every run whose evictions tear no root, no state names a damaged
root and nothing was compiled in one; and the next call keeps this exactly when its own
eviction tears no root. -/
theorem leaves_no_damage_iff (platform : Platform) (scratch : Path) (world : World)
    (hreachable : Reachable (Initial scratch) (CarefulStep platform scratch) world)
    (env : Environment) (request : WorkRequest) :
    (NoDamagedEntry world ∧ NothingCompiledDamaged world) ∧
      (LeavesNoDamage platform scratch env request world ↔
        ¬ EvictionTears platform env request world) := by
  have hwhole := Whole.of_reachable hreachable
  refine ⟨⟨hwhole.noDamagedEntry, hwhole.intact⟩, ?_, ?_⟩
  · -- the call ends in the eviction, so the torn root is among the states after it
    intro hleaves htears
    obtain ⟨thrown, after, output, state, hcall, hstate, hdamaged⟩ := call_of_evictionTears htears
    have hentries := hleaves.1 thrown (by rw [hcall])
    rw [hcall] at hentries
    exact hentries output state hstate hdamaged
  · intro htears
    have hafter : Whole scratch (call platform scratch world env request).2 :=
      handle_whole.after ⟨hwhole, htears⟩
    exact ⟨fun _ _ => hafter.noDamagedEntry, hafter.intact⟩

theorem leaves_no_damage_iff_sample :
    (NoDamagedEntry warmWorld ∧ NothingCompiledDamaged warmWorld) ∧
      (LeavesNoDamage samplePlatform ["scratch"] sampleEnvironment inputsRequest warmWorld ↔
        ¬ EvictionTears samplePlatform sampleEnvironment inputsRequest warmWorld) := by
  apply leaves_no_damage_iff samplePlatform ["scratch"] warmWorld
  apply Reachable.next (Reachable.start sampleWorld_initial)
  refine ⟨sampleEnvironment, inputsRequest, ?_, rfl, sample_goesOn⟩
  intro htears
  obtain ⟨_, _, _, hstate, _⟩ := htears
  exact nomatch hstate

/-! ## A run that tears a root -/

/-- The arguments `-- -d out.jar -Werror` and one source. -/
def flaggedRequest : WorkRequest :=
  .ofDecodable ⟨[10, 2] ++ getBytes "--" ++ [10, 2] ++ getBytes "-d" ++ [10, 7] ++
    getBytes "out.jar" ++ [10, 7] ++ getBytes "-Werror" ++ [18, 6, 10, 4] ++ getBytes "A.kt",
    by decide⟩ (by decide)

/-- A call in which the deletion of an outdated root stops after its first file. -/
def tornEnvironment : Environment :=
  { sampleEnvironment with outdated := some ⟨1, .ioException "classes/A.class"⟩ }

/-- The world after a second call, with another argument, that cannot delete the old root. -/
def tornWorld : World :=
  (call samplePlatform ["scratch"] warmWorld tornEnvironment flaggedRequest).2

theorem torn_eviction_leaves_damage :
    ¬ ∀ (platform : Platform) (scratch : Path) (world : World),
      Reachable (Initial scratch) (Step platform scratch) world →
        ∀ (env : Environment) (request : WorkRequest),
          LeavesNoDamage platform scratch env request world := by
  intro h
  have hreachable : Reachable (Initial ["scratch"]) (Step samplePlatform ["scratch"]) warmWorld :=
    (Reachable.start sampleWorld_initial).next
      ⟨sampleEnvironment, inputsRequest, rfl, sample_goesOn⟩
  have hleaves := h samplePlatform ["scratch"] warmWorld hreachable tornEnvironment flaggedRequest
  have hthrown : (call samplePlatform ["scratch"] warmWorld tornEnvironment flaggedRequest).1 =
      .error (.ioException "classes/A.class") := by
    decide +kernel
  have hdamaged : (tornWorld.states ["out.jar"]).any fun state => Damaged tornWorld state.root := by
    decide +kernel
  obtain ⟨state, hstate, hroot⟩ := (Option.any_eq_true _ _).mp hdamaged
  have hentries : NoDamagedEntry tornWorld := hleaves.1 _ hthrown
  exact hentries ["out.jar"] state hstate (of_decide_eq_true hroot)

end RulesElide.IncrementalWorker
