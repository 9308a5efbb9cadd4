import RulesElide.IncrementalWorker.Reuse

/-!
# Roots and target directories

`handle` makes a directory `target-…` for each new state and deletes it with the state, on each of
its exits in another order.  `targets_are_roots` says that between two calls the target directories
are the roots of the states, one for each output: nothing is leaked and nothing is shared.  The one
way to get a target directory that belongs to no state is to ask for a jar inside of it.
-/

namespace RulesElide.IncrementalWorker

open Effects Transition WorkerProtocol

/-! ## The correspondence -/

/-- A path that `Files.createTempDirectory(scratch, "target-")` can return. -/
def IsTarget (scratch path : Path) : Prop :=
  ∃ suffix, path = scratch ++ ["target-" ++ suffix]

/-- A target directory that exists. -/
def TargetExists (scratch : Path) (world : World) (path : Path) : Prop :=
  IsTarget scratch path ∧ world.disk.lookup path = some .directory

/-- The root of the state of an output. -/
def IsRoot (world : World) (path : Path) : Prop :=
  ∃ output state, world.states output = some state ∧ state.root = path

/-- The target directories that exist are the roots of the states, one for each output. -/
structure Corresponds (scratch : Path) (world : World) : Prop where
  targets : ∀ path, TargetExists scratch world path ↔ IsRoot world path
  distinct : world.DistinctRoots

/-- A new directory gets a name that was not used before. -/
def Fresh (scratch : Path) (env : Environment) (world : World) : Prop :=
  ∃ suffix, env.directory = .ok suffix ∧ scratch ++ ["target-" ++ suffix] ∉ world.issued ∧
    world.disk.holds (scratch ++ ["target-" ++ suffix]) = false

/-- Target directories are deleted and made whenever they are to be. -/
structure DirectoriesSucceed (scratch : Path) (env : Environment) (world : World) : Prop where
  outdated : env.outdated = none
  directory : Fresh scratch env world
  failed : env.failed = none
  scratch : env.scratch = none

/-- The compiler works inside the root it was given and leaves the root itself alone. -/
structure StaysInRoot (env : Environment) : Prop where
  deletes : [] ∉ env.deletes
  writes : ∀ entry ∈ env.writes, entry.1 ≠ []

/-- The path is not inside a target directory. -/
def OutsideTargets (scratch path : Path) : Prop :=
  ∀ target, IsTarget scratch target → target <+: path → target = path

/-- A worker that has just been started, with an empty scratch directory. -/
def Started (scratch : Path) (world : World) : Prop :=
  Initial scratch world ∧ ∀ path, IsTarget scratch path → world.disk.lookup path = none

/-- A call of `handle` in which every operation on a directory succeeds. -/
def SoundCall (platform : Platform) (scratch : Path) (world after : World) : Prop :=
  ∃ env request, DirectoriesSucceed scratch env world ∧ env.classes = none ∧ env.parent = none ∧
    env.recreate = none ∧ StaysInRoot env ∧ (call platform scratch world env request).2 = after

/-- A call for a jar outside the target directories. -/
def OutsideCall (platform : Platform) (scratch : Path) (world after : World) : Prop :=
  ∃ env request, DirectoriesSucceed scratch env world ∧ StaysInRoot env ∧
    (∀ output, requestedOutput platform request.arguments = .ok output →
      OutsideTargets scratch output) ∧
    (call platform scratch world env request).2 = after

/-! ## The invariant -/

/-- The correspondence, and what keeps it: roots are recorded as issued, and target directories
are in a scratch directory that exists. -/
structure Matched (scratch : Path) (world : World) : Prop extends Corresponds scratch world where
  issued : ∀ output state, world.states output = some state → state.root ∈ world.issued
  held : ∀ path, TargetExists scratch world path → world.disk.holds scratch

/-- The invariant, and the state of the output. -/
def MatchedWith (scratch output : Path) (state : State) (world : World) : Prop :=
  Matched scratch world ∧ world.states output = some state

/-- The target directories are the roots of the states of the other outputs. -/
structure MatchedBut (scratch output : Path) (world : World) : Prop where
  targets : ∀ path, TargetExists scratch world path ↔
    ∃ other state, other ≠ output ∧ world.states other = some state ∧ state.root = path
  distinct : world.DistinctRoots
  issued : ∀ output state, world.states output = some state → state.root ∈ world.issued
  held : ∀ path, TargetExists scratch world path → world.disk.holds scratch

variable {platform : Platform} {scratch output root path : Path} {env : Environment}
  {request : WorkRequest} {signature : String} {state : State} {world after : World}

theorem MatchedWith.targetExists (h : MatchedWith scratch output state world) :
    TargetExists scratch world state.root :=
  (h.1.targets state.root).mpr ⟨output, state, h.2, rfl⟩

/-- An output without a state has no root. -/
theorem isRoot_iff_of_none (hnone : world.states output = none) :
    IsRoot world path ↔
      ∃ other state, other ≠ output ∧ world.states other = some state ∧ state.root = path := by
  constructor
  · rintro ⟨other, state, hstate, hroot⟩
    refine ⟨other, state, ?_, hstate, hroot⟩
    rintro rfl
    rw [hnone] at hstate
    cases hstate
  · rintro ⟨other, state, -, hstate, hroot⟩
    exact ⟨other, state, hstate, hroot⟩

theorem Matched.but_of_none (h : Matched scratch world) (hnone : world.states output = none) :
    MatchedBut scratch output world where
  targets path := (h.targets path).trans (isRoot_iff_of_none hnone)
  distinct := h.distinct
  issued := h.issued
  held := h.held

theorem MatchedBut.of_none (h : MatchedBut scratch output world)
    (hnone : world.states output = none) : Matched scratch world where
  targets path := (h.targets path).trans (isRoot_iff_of_none hnone).symm
  distinct := h.distinct
  issued := h.issued
  held := h.held

/-! ## Paths -/

theorem IsTarget.not_prefix (h : IsTarget scratch root) : ¬ root <+: scratch := by
  obtain ⟨suffix, rfl⟩ := h
  intro hbegins
  have hlength := hbegins.length_le
  simp at hlength

/-- No target directory is inside another one. -/
theorem IsTarget.eq_of_prefix (h : IsTarget scratch root) (h' : IsTarget scratch path)
    (hbegins : root <+: path) : root = path := by
  obtain ⟨suffix, rfl⟩ := h
  obtain ⟨suffix', rfl⟩ := h'
  exact hbegins.eq_of_length (by simp)

theorem IsTarget.ne_append (h : IsTarget scratch root) (h' : IsTarget scratch path)
    {names : List String} (hne : names ≠ []) : root ++ names ≠ path := by
  intro heq
  have hsame := h.eq_of_prefix h' (heq ▸ List.prefix_append root names)
  rw [← hsame] at heq
  exact hne (List.append_right_eq_self.mp heq)

/-! ## Steps that keep the target directories -/

/-- The states and the target directories stay, and a scratch directory that exists stays. -/
structure SameTargets (scratch : Path) (world after : World) : Prop where
  states : after.states = world.states
  issued : after.issued = world.issued
  targets : ∀ path, IsTarget scratch path →
    (after.disk.lookup path = some .directory ↔ world.disk.lookup path = some .directory)
  held : world.disk.holds scratch = true → after.disk.holds scratch = true

instance : Std.Refl (SameTargets scratch) :=
  ⟨fun _ => ⟨rfl, rfl, fun _ _ => Iff.rfl, id⟩⟩

instance : IsTrans World (SameTargets scratch) :=
  ⟨fun _ _ _ h h' => ⟨h'.states.trans h.states, h'.issued.trans h.issued,
    fun path hpath => (h'.targets path hpath).trans (h.targets path hpath), h'.held ∘ h.held⟩⟩

theorem SameTargets.targetExists_iff (h : SameTargets scratch world after) :
    TargetExists scratch after path ↔ TargetExists scratch world path :=
  and_congr_right (h.targets path)

theorem Matched.of_same (h : Matched scratch world) (hsame : SameTargets scratch world after) :
    Matched scratch after where
  targets path := by
    rw [hsame.targetExists_iff, h.targets, IsRoot, IsRoot, hsame.states]
  distinct := by
    rw [World.DistinctRoots, hsame.states]
    exact h.distinct
  issued := by
    rw [hsame.states, hsame.issued]
    exact h.issued
  held path hpath := hsame.held (h.held path (hsame.targetExists_iff.mp hpath))

theorem MatchedWith.of_same (h : MatchedWith scratch output state world)
    (hsame : SameTargets scratch world after) : MatchedWith scratch output state after :=
  ⟨h.1.of_same hsame, hsame.states ▸ h.2⟩

theorem holds_of_lookup {disk disk' : Disk} (h : disk'.lookup path = disk.lookup path) :
    disk'.holds path = disk.holds path := by
  rw [Disk.holds, Disk.holds, h]

/-- Only the disk differs, and it looks the same at the target directories and the scratch
directory. -/
theorem SameTargets.of_lookup {disk : Disk}
    (htargets : ∀ path, IsTarget scratch path → disk.lookup path = world.disk.lookup path)
    (hscratch : disk.lookup scratch = world.disk.lookup scratch) :
    SameTargets scratch world { world with disk } :=
  ⟨rfl, rfl, fun path hpath => by rw [htargets path hpath],
    fun hheld => (holds_of_lookup hscratch).trans hheld⟩

theorem lookup_createDirectories {fault : Option Fault} {path other : Path}
    (hother : other <+: path → world.disk.holds other = true) :
    (run (createDirectories path fault) world).2.disk.lookup other = world.disk.lookup other := by
  unfold createDirectories
  rw [run_bind_of_ok (run_get world)]
  dsimp only
  split
  · rfl
  · rw [run_bind_of_ok (run_set world _), run_fault_raise]
    -- only directories that are missing are created
    refine (Disk.foldl_directory fun hcreated => ?_).1
    obtain ⟨hinit, hmissing⟩ := List.mem_filter.mp (Fault.mem_of_mem_cut hcreated)
    rw [hother ((List.mem_inits _ _).mp hinit)] at hmissing
    cases hmissing

/-- New directories are no target directories unless the path leads through one. -/
theorem createDirectories_same {fault : Option Fault}
    (hpath : ∀ target, IsTarget scratch target → target <+: path →
      world.disk.holds target = true) :
    SameTargets scratch world (run (createDirectories path fault) world).2 := by
  have hlookup : ∀ target, IsTarget scratch target →
      (run (createDirectories path fault) world).2.disk.lookup target =
        world.disk.lookup target :=
    fun target htarget => lookup_createDirectories (hpath target htarget)
  obtain ⟨disk, hdisk⟩ := createDirectories_within path fault world
  -- the scratch directory stays if it is there, and may be created otherwise
  by_cases hheld : world.disk.holds scratch = true
  · have hscratch : (run (createDirectories path fault) world).2.disk.lookup scratch =
        world.disk.lookup scratch := lookup_createDirectories fun _ => hheld
    rw [hdisk] at hlookup hscratch ⊢
    exact SameTargets.of_lookup hlookup hscratch
  · rw [hdisk] at hlookup ⊢
    exact ⟨rfl, rfl, fun target htarget => by rw [hlookup target htarget],
      fun hholds => absurd hholds hheld⟩

/-- The compiler changes nothing outside the root. -/
theorem lookup_compiled (hstays : StaysInRoot env)
    (hpath : ∀ names, names ≠ [] → root ++ names ≠ path) :
    (world.compiled root env).disk.lookup path = world.disk.lookup path := by
  have hdeletes : path ∉ env.deletes.map (root ++ ·) := by
    intro hmem
    obtain ⟨names, hnames, hequal⟩ := List.mem_map.mp hmem
    exact hpath names (fun hnil => hstays.deletes (hnil ▸ hnames)) hequal
  -- by induction on the files that the compiler writes
  have hwrites : ∀ writes : List (Path × Node), (∀ entry ∈ writes, entry.1 ≠ []) →
      ∀ disk : Disk,
        (writes.foldl (fun disk entry => disk.write (root ++ entry.1) entry.2) disk).lookup path =
          disk.lookup path := by
    intro writes
    induction writes with
    | nil => exact fun _ _ => rfl
    | cons entry writes ih =>
        intro hentries disk
        obtain ⟨hentry, hlater⟩ := List.forall_mem_cons.mp hentries
        rw [List.foldl_cons, ih hlater, Disk.lookup_write,
          if_neg fun hequal => hpath entry.1 hentry hequal.symm]
  rw [World.compiled, hwrites env.writes hstays.writes, Disk.lookup_erase, if_neg hdeletes]

theorem compiled_same (hroot : IsTarget scratch root) (hstays : StaysInRoot env) (world : World) :
    SameTargets scratch world (world.compiled root env) := by
  refine SameTargets.of_lookup (fun path hpath => ?_) ?_
  · exact lookup_compiled hstays fun names hne => hroot.ne_append hpath hne
  · refine lookup_compiled hstays fun names _ hequal => ?_
    exact hroot.not_prefix (hequal ▸ List.prefix_append root names)

theorem compile_same (hroot : IsTarget scratch root) (hstays : StaysInRoot env)
    (request : WorkRequest) : Within (SameTargets scratch) (compile env root request) := by
  have hensure : Within (SameTargets scratch) (ensureCompiler env) := by
    intro world
    unfold ensureCompiler
    rw [run_bind_of_ok (run_get world)]
    split
    · cases env.start with
      | none => exact ⟨rfl, rfl, fun _ _ => Iff.rfl, id⟩
      | some thrown => exact ⟨rfl, rfl, fun _ _ => Iff.rfl, id⟩
    · exact Std.Refl.refl world
  have hraise : Within (SameTargets scratch) (raise env.send) := by
    intro world
    rw [run_raise]
    exact Std.Refl.refl world
  unfold compile
  refine Within.bind hensure fun _ => ?_
  refine Within.bind (Within.modify fun _ => ⟨rfl, rfl, fun _ _ => Iff.rfl, id⟩) fun _ => ?_
  refine Within.bind (Within.modify fun world => compiled_same hroot hstays world) fun _ => ?_
  refine Within.bind hraise fun _ => Within.bind (Within.ofExcept env.receive) fun response => ?_
  cases response with
  | none => exact Within.throw _
  | some response =>
      dsimp only
      split
      · exact Within.pure response
      · exact Within.throw _

/-- A file that is no directory is written. -/
theorem write_same {node : Node} (hpath : world.disk.lookup path ≠ some .directory)
    (hnode : node ≠ .directory) :
    SameTargets scratch world { world with disk := world.disk.write path node } := by
  refine ⟨rfl, rfl, fun target _ => ?_, fun hheld => ?_⟩
  · rw [Disk.lookup_write]
    split
    · rename_i hequal
      rw [hequal]
      exact iff_of_false (by simpa using hnode) hpath
    · exact Iff.rfl
  · rw [Disk.holds, Disk.lookup_write]
    split
    · simp
    · exact hheld

theorem pack_same (houtside : OutsideTargets scratch output) (classes : Path)
    (parent fault : Option Fault) :
    Within (SameTargets scratch) (pack classes output parent fault) := by
  unfold pack
  by_cases hroot : output = []
  · rw [if_pos hroot]
    exact Within.throw _
  · rw [if_neg hroot]
    refine Within.bind (fun world => createDirectories_same fun target htarget hbegins => ?_)
      fun _ => ?_
    · -- the directory of the jar is in no target directory
      have hequal := houtside target htarget (hbegins.trans (List.dropLast_prefix output))
      have hlength := hbegins.length_le
      rw [hequal, List.length_dropLast] at hlength
      have hpos := List.length_pos_iff.mpr hroot
      omega
    · intro world
      rw [run_bind_of_ok (run_get world)]
      dsimp only
      split
      · exact Std.Refl.refl world
      · rename_i hjar
        rw [not_or] at hjar
        rw [Disk.write_write]
        generalize packEntries _ _ _ _ = result
        obtain ⟨outcome, entries⟩ := result
        -- the jar is a file, so no target directory is made or lost by it
        have hwrite : SameTargets scratch world
            { world with disk := world.disk.write output (.jar entries) } :=
          write_same hjar.2 nofun
        cases outcome with
        | error thrown => exact hwrite
        | ok _ => exact (run_fault_raise fault _).symm ▸ hwrite

/-! ## Deleting a root -/

/-- A target directory is gone, and everything else is as it was. -/
structure Evicts (scratch root : Path) (world after : World) : Prop where
  states : after.states = world.states
  issued : after.issued = world.issued
  targets : ∀ path, TargetExists scratch after path ↔ path ≠ root ∧ TargetExists scratch world path
  held : world.disk.holds scratch = true → after.disk.holds scratch = true
  absent : ∀ path, world.disk.holds path = false → after.disk.holds path = false

/-- Without a fault, everything inside the directory is deleted. -/
theorem lookup_removed (world : World) (root path : Path) :
    (world.removed root none).disk.lookup path =
      if root <+: path then none else world.disk.lookup path := by
  change (world.disk.erase (world.disk.walkReversed root)).lookup path = _
  have hmem : path ∈ world.disk.walkReversed root ↔
      root <+: path ∧ ∃ node, (path, node) ∈ world.disk := by
    simp [Disk.walkReversed, Disk.inside, and_comm]
  rw [Disk.lookup_erase]
  -- without a fault the walk goes over everything inside
  by_cases hinside : root <+: path
  · rw [if_pos hinside]
    split
    · rfl
    · rename_i hnot
      rw [hmem, not_and, not_exists] at hnot
      rw [Disk.lookup, List.find?_eq_none.mpr, Option.map_none]
      rintro ⟨other, node⟩ hentry hequal
      obtain rfl := of_decide_eq_true hequal
      exact hnot hinside node hentry
  · rw [if_neg hinside, if_neg fun hdeleted => hinside (hmem.mp hdeleted).1]

theorem run_remove_none (root : Path) (world : World) :
    run (remove root none) world =
      (.ok ⟨⟩, if world.disk.holds root then world.removed root none else world) := by
  unfold remove
  rw [run_bind_of_ok (run_get world)]
  split
  · rw [run_bind_of_ok (run_set world _)]
    rfl
  · rfl

theorem remove_evicts (hroot : IsTarget scratch root) (world : World) :
    ∃ after, run (remove root none) world = (.ok ⟨⟩, after) ∧ Evicts scratch root world after := by
  refine ⟨_, run_remove_none root world, ?_⟩
  by_cases hholds : world.disk.holds root = true
  · rw [if_pos hholds]
    refine ⟨rfl, rfl, fun path => ?_, fun hheld => ?_, fun path habsent => ?_⟩
    · unfold TargetExists
      rw [lookup_removed]
      by_cases hpath : IsTarget scratch path
      · -- target directories do not lie in each other
        by_cases hequal : path = root
        · simp [hequal]
        · rw [if_neg fun hbegins => hequal (hroot.eq_of_prefix hpath hbegins).symm]
          simp [hequal]
      · simp [hpath]
    · rw [Disk.holds, lookup_removed, if_neg hroot.not_prefix]
      exact hheld
    · rw [Disk.holds, Bool.or_eq_false_iff] at habsent ⊢
      refine ⟨habsent.1, ?_⟩
      rw [lookup_removed]
      split
      · rfl
      · exact habsent.2
  · rw [if_neg hholds]
    refine ⟨rfl, rfl, fun path => ?_, id, fun _ => id⟩
    refine (and_iff_right_of_imp ?_).symm
    rintro hexists rfl
    exact hholds (by rw [Disk.holds, hexists.2, Option.isSome_some, Bool.or_true])

/-- The root of an outdated state is deleted. -/
theorem MatchedWith.evicted (h : MatchedWith scratch output state world)
    (hevicts : Evicts scratch state.root world after) : MatchedBut scratch output after where
  targets path := by
    -- the root that is gone was that of this output alone
    rw [hevicts.targets, h.1.targets, hevicts.states]
    constructor
    · rintro ⟨hne, other, found, hfound, rfl⟩
      refine ⟨other, found, ?_, hfound, rfl⟩
      rintro rfl
      rw [h.2] at hfound
      exact hne (Option.some.inj hfound ▸ rfl)
    · rintro ⟨other, found, hne, hfound, rfl⟩
      exact ⟨fun hroot => hne (h.1.distinct other output found state hfound h.2 hroot),
        other, found, hfound, rfl⟩
  distinct := by
    rw [World.DistinctRoots, hevicts.states]
    exact h.1.distinct
  issued := by
    rw [hevicts.states, hevicts.issued]
    exact h.1.issued
  held path hpath := hevicts.held (h.1.held path ((hevicts.targets path).mp hpath).2)

/-- The state is dropped first, and its root is deleted then. -/
theorem MatchedWith.dropped (h : MatchedWith scratch output state world)
    (hevicts : Evicts scratch state.root (world.drop output) after) : Matched scratch after := by
  have hbut : MatchedBut scratch output { after with states := world.states } :=
    h.evicted ⟨rfl, hevicts.issued, hevicts.targets, hevicts.held, hevicts.absent⟩
  refine ⟨⟨fun path => (hbut.targets path).trans ?_, ?_⟩, ?_, hbut.held⟩
  · unfold IsRoot
    rw [hevicts.states]
    simp only [World.drop_states, and_assoc]
  · rw [World.DistinctRoots, hevicts.states]
    exact h.1.distinct.drop output
  · rw [hevicts.states, hevicts.issued]
    exact World.forall_drop h.1.issued

/-! ## Preparing the state -/

/-- A new directory with the name of a target is a target, and the others stay. -/
theorem targetExists_of_write {after : World} {root path : Path} (htarget : IsTarget scratch root)
    (hdisk : after.disk = world.disk.write root .directory) :
    TargetExists scratch after path ↔ path = root ∨ TargetExists scratch world path := by
  unfold TargetExists
  rw [hdisk, Disk.lookup_write]
  by_cases hequal : path = root
  · simp [hequal, htarget]
  · simp [hequal]

/-- A new directory is the root of a new state. -/
theorem MatchedBut.store {suffix : String} {lost : List Path} (h : MatchedBut scratch output world)
    (hroot : root = scratch ++ ["target-" ++ suffix]) (hissued : root ∉ world.issued)
    (hheld : world.disk.holds scratch = true) (signature : String) :
    MatchedWith scratch output { signature, root }
      (World.store { world with
          disk := world.disk.write root .directory
          issued := world.issued ++ [root]
          lost } output { signature, root }) := by
  have htarget : IsTarget scratch root := ⟨suffix, hroot⟩
  refine ⟨⟨⟨fun path => ?_, ?_⟩, ?_, fun path _ => ?_⟩, World.store_states.mpr (Or.inl ⟨rfl, rfl⟩)⟩
  · -- the new directory has a name that was never given out
    rw [targetExists_of_write htarget rfl, h.targets]
    constructor
    · rintro (rfl | ⟨other, found, hne, hfound, rfl⟩)
      · exact ⟨output, _, World.store_states.mpr (Or.inl ⟨rfl, rfl⟩), rfl⟩
      · exact ⟨other, found, World.store_states.mpr (Or.inr ⟨hne, hfound⟩), rfl⟩
    · rintro ⟨other, found, hfound, rfl⟩
      rcases World.store_states.mp hfound with ⟨-, rfl⟩ | ⟨hne, hfound⟩
      · exact Or.inl rfl
      · exact Or.inr ⟨other, found, hne, hfound, rfl⟩
  · refine World.DistinctRoots.store h.distinct fun other found hfound hequal => hissued ?_
    have hsame : found.root = root := hequal
    exact hsame ▸ h.issued other found hfound
  · refine World.forall_store (List.mem_append_right _ List.mem_cons_self)
      fun other found hfound => ?_
    exact List.mem_append_left _ (h.issued other found hfound)
  · change (world.disk.write root .directory).holds scratch = true
    have hne : scratch ≠ root := by
      rintro rfl
      exact htarget.not_prefix List.prefix_rfl
    rw [holds_of_lookup ((Disk.lookup_write _ _ _ _).trans (if_neg hne))]
    exact hheld

theorem run_createTempDirectory {suffix : String}
    (hissued : scratch ++ ["target-" ++ suffix] ∉ world.issued)
    (habsent : world.disk.holds (scratch ++ ["target-" ++ suffix]) = false) :
    run (createTempDirectory scratch (.ok suffix)) world =
      if world.disk.holds scratch then
        (.ok (scratch ++ ["target-" ++ suffix]),
          { world with
            disk := world.disk.write (scratch ++ ["target-" ++ suffix]) .directory
            issued := world.issued ++ [scratch ++ ["target-" ++ suffix]]
            lost := world.lost.filter fun path => ¬ scratch ++ ["target-" ++ suffix] <+: path })
      else (.error (.ioException (Path.toString (scratch ++ ["target-" ++ suffix]))), world) := by
  unfold createTempDirectory
  rw [run_bind_of_ok (run_ofExcept (.ok suffix) world), run_bind_of_ok (run_get world)]
  by_cases hheld : world.disk.holds scratch = true
  · have hnew : ¬ (¬ world.disk.holds scratch = true ∨
        world.disk.holds (scratch ++ ["target-" ++ suffix]) = true ∨
          scratch ++ ["target-" ++ suffix] ∈ world.issued) := by
      simp [hheld, habsent, hissued]
    rw [if_pos hheld, if_neg hnew, run_bind_of_ok (run_set world _)]
    rfl
  · rw [if_neg hheld, if_pos (Or.inl hheld)]
    rfl

/-- A new state; without a scratch directory there is none, and there was none before. -/
theorem renew_matched :
    Triple (fun world => MatchedBut scratch output world ∧ Fresh scratch env world ∧
        (¬ world.disk.holds scratch = true → world.states output = none))
      (prepare.renew scratch env output signature)
      (MatchedWith scratch output) (fun _ => Matched scratch) := by
  intro world hworld
  obtain ⟨hbut, ⟨suffix, hdirectory, hissued, habsent⟩, hnone⟩ := hworld
  have hcreate := run_createTempDirectory hissued habsent
  unfold prepare.renew
  rw [hdirectory]
  -- without a scratch directory the new root cannot be made
  by_cases hheld : world.disk.holds scratch = true
  · rw [if_pos hheld] at hcreate
    rw [run_bind_of_ok hcreate]
    exact hbut.store rfl hissued hheld signature
  · rw [if_neg hheld] at hcreate
    rw [run_bind_of_error hcreate]
    exact hbut.of_none (hnone hheld)

theorem prepare_matched :
    Triple (fun world => Matched scratch world ∧ DirectoriesSucceed scratch env world)
      (prepare scratch env request output signature)
      (MatchedWith scratch output) (fun _ => Matched scratch) := by
  refine Triple.get_bind fun world hworld => ?_
  obtain ⟨hmatched, hsucceed⟩ := hworld
  dsimp only
  split
  · rename_i state hstate
    have hwith : MatchedWith scratch output state world := ⟨hmatched, hstate⟩
    split
    · -- an outdated state is evicted, and its output gets a new root
      rw [hsucceed.outdated]
      obtain ⟨after, hremove, hevicts⟩ := remove_evicts hwith.targetExists.1 world
      obtain ⟨suffix, hdirectory, hissued, habsent⟩ := hsucceed.directory
      have hfresh : Fresh scratch env after :=
        ⟨suffix, hdirectory, hevicts.issued ▸ hissued, hevicts.absent _ habsent⟩
      have hheld := hevicts.held (hmatched.held _ hwith.targetExists)
      rintro _ rfl
      rw [run_bind_of_ok hremove]
      exact renew_matched after ⟨hwith.evicted hevicts, hfresh, fun hnot => absurd hheld hnot⟩
    · exact Triple.pure fun _ hcurrent => hcurrent ▸ hwith
  · rename_i hnone
    exact renew_matched.at_state
      ⟨hmatched.but_of_none hnone, hsucceed.directory, fun _ => hnone⟩

/-! ## A whole call -/

/-- The classes directory is made inside the root, which exists. -/
theorem classes_same (h : MatchedWith scratch output state world) (fault : Option Fault) :
    SameTargets scratch world
      (run (createDirectories (state.root ++ ["classes"]) fault) world).2 := by
  obtain ⟨hroot, hlookup⟩ := h.targetExists
  refine createDirectories_same fun target htarget hbegins => ?_
  -- the only target directory on this path is the root itself
  have hinside : target <+: state.root := by
    rcases List.prefix_concat_iff.mp hbegins with hequal | hinside
    · exact absurd hequal.symm (hroot.ne_append htarget (List.cons_ne_nil _ _))
    · exact hinside
  rw [htarget.eq_of_prefix hroot hinside, Disk.holds, hlookup, Option.isSome_some, Bool.or_true]

theorem publish_matched (houtside : OutsideTargets scratch output) (hfailed : env.failed = none)
    (response : WorkResponse) :
    Triple (MatchedWith scratch output state) (publish env output state response)
      (fun _ => Matched scratch) (fun _ => Matched scratch) := by
  have hamend : ∀ (change : Compilation → Compilation) (world : World),
      SameTargets scratch world (world.amend change) :=
    fun _ _ => ⟨rfl, rfl, fun _ _ => Iff.rfl, id⟩
  refine Triple.modify_bind (MatchedWith scratch output state)
    (fun world h => h.of_same (hamend _ world)) ?_
  split
  · refine Triple.within_bind (pack_same houtside _ _ _) (fun _ _ => MatchedWith.of_same)
      (fun _ _ h => h.1) fun _ => ?_
    exact Triple.modify_bind (Matched scratch) (fun world h => h.1.of_same (hamend _ world))
      (Triple.pure fun _ h => h)
  · intro world hwith
    -- the state is dropped and its root deleted, in this order
    obtain ⟨after, hremove, hevicts⟩ := remove_evicts hwith.targetExists.1 (world.drop output)
    rw [hfailed, run_bind_of_ok (run_modify _ world), run_bind_of_ok hremove]
    exact hwith.dropped hevicts

theorem attempt_matched {args : List String} (houtside : OutsideTargets scratch output)
    (hstays : StaysInRoot env) (hfailed : env.failed = none) :
    Triple (MatchedWith scratch output state) (attempt env request args output signature state)
      (fun _ => Matched scratch) (fun _ => Matched scratch) := by
  refine Triple.ofExcept_bind (fun forwarded _ => ?_) fun _ _ _ h => h.1
  refine Triple.modify_bind (MatchedWith scratch output state)
    (fun world h => h.of_same ⟨rfl, rfl, fun _ _ => Iff.rfl, id⟩) ?_
  refine Triple.of_states fun world hwith => ?_
  have hcompile := compile_same hwith.targetExists.1 hstays forwarded
  exact (Triple.within_bind hcompile (fun _ _ => MatchedWith.of_same) (fun _ _ h => h.1)
    fun response => publish_matched houtside hfailed response).at_state hwith

/-- Without states and target directories there is nothing to compare. -/
theorem Matched.of_nothing (hstates : world.states = fun _ => none)
    (habsent : ∀ path, ¬ TargetExists scratch world path) : Matched scratch world := by
  have hnone : ∀ output state, ¬ world.states output = some state := by
    intro output state hstate
    rw [hstates] at hstate
    cases hstate
  refine ⟨⟨fun path => iff_of_false (habsent path) ?_, ?_⟩, ?_,
    fun path h => absurd h (habsent path)⟩
  · rintro ⟨output, state, hstate, -⟩
    exact hnone output state hstate
  · exact fun output _ state _ hstate => absurd hstate (hnone output state)
  · exact fun output state hstate => absurd hstate (hnone output state)

/-- Everything in the scratch directory is deleted, the target directories included. -/
theorem abandon_matched (hscratch : env.scratch = none) :
    Triple (Matched scratch) (abandon scratch env) (fun _ => Matched scratch)
      (fun _ => Matched scratch) := by
  have hrecreate : Triple (Matched scratch) (createDirectories scratch env.recreate)
      (fun _ => Matched scratch) (fun _ => Matched scratch) :=
    Triple.of_within
      (fun world => createDirectories_same fun _ htarget hbegins =>
        absurd hbegins htarget.not_prefix)
      fun _ _ => Matched.of_same
  intro world hmatched
  unfold abandon
  rw [run_bind_of_ok (run_modify _ world), hscratch, run_bind_of_ok (run_remove_none scratch _)]
  -- no state is left, and no target directory
  refine hrecreate _ (Matched.of_nothing ?_ ?_)
  · split <;> rfl
  · rintro path ⟨htarget, hlookup⟩
    by_cases hheld : world.disk.holds scratch = true
    · have hinside : scratch <+: path := by
        obtain ⟨suffix, rfl⟩ := htarget
        exact List.prefix_append _ _
      rw [if_pos hheld, lookup_removed, if_pos hinside] at hlookup
      cases hlookup
    · rw [if_neg hheld] at hlookup
      exact hheld (hmatched.held path ⟨htarget, hlookup⟩)

theorem handle_matched (hstays : StaysInRoot env)
    (houtside : ∀ output, requestedOutput platform request.arguments = .ok output →
      OutsideTargets scratch output) :
    Triple (fun world => Matched scratch world ∧ DirectoriesSucceed scratch env world)
      (handle platform scratch env request)
      (fun _ => Matched scratch) (fun _ => Matched scratch) := by
  refine Triple.ofExcept_bind (fun output houtput => ?_) fun _ _ _ h => h.1
  refine Triple.of_states fun world hworld => ?_
  obtain ⟨_, _, hfailed, hscratch⟩ := hworld.2
  refine (Triple.bind prepare_matched fun state => ?_).at_state hworld
  have hclasses : Triple (MatchedWith scratch output state)
      (createDirectories (state.root ++ ["classes"]) env.classes)
      (fun _ => MatchedWith scratch output state) (fun _ => Matched scratch) :=
    (Triple.of_final fun _ hwith => hwith.of_same (classes_same hwith env.classes)).mono_fails
      fun _ _ hwith => hwith.1
  refine Triple.bind hclasses fun _ => ?_
  -- the handler drops everything after an exception; an error leaves the states
  refine Triple.tryCatch (attempt_matched (houtside output houtput) hstays hfailed)
    fun failure => ?_
  dsimp only
  split
  · exact Triple.bind (abandon_matched hscratch) fun _ => Triple.throw fun _ h => h
  · exact Triple.throw fun _ h => h

/-! ## Runs -/

theorem Matched.of_started (h : Started scratch world) : Matched scratch world := by
  obtain ⟨⟨disk, -, rfl⟩, habsent⟩ := h
  refine Matched.of_nothing rfl ?_
  rintro path ⟨htarget, hlookup⟩
  have hnone := habsent path htarget
  rw [hnone] at hlookup
  cases hlookup

/-- **Target directories are roots.**  In every run of calls for jars outside the target
directories, whatever the compiler does in its root and answers and however the packing fails, the
target directories after each call are the roots of the states, and no two outputs share one. -/
theorem targets_are_roots (platform : Platform) (scratch : Path) (world : World)
    (hreachable : Reachable (Started scratch) (OutsideCall platform scratch) world) :
    Corresponds scratch world := by
  -- the invariant is `Matched`: the target directories are the roots of the states
  refine (hreachable.invariant (fun _ => Matched.of_started) ?_).toCorresponds
  intro world after hmatched hcall
  obtain ⟨env, request, hsucceed, hstays, houtside, rfl⟩ := hcall
  exact (handle_matched hstays houtside).after ⟨hmatched, hsucceed⟩

theorem sample_started : Started ["scratch"] sampleWorld := by
  refine ⟨sampleWorld_initial, ?_⟩
  rintro path ⟨suffix, rfl⟩
  simp [sampleWorld, Disk.lookup]

theorem sample_soundCall :
    DirectoriesSucceed ["scratch"] sampleEnvironment sampleWorld ∧ StaysInRoot sampleEnvironment :=
  ⟨⟨rfl, ⟨"1", rfl, by decide, by decide⟩, rfl, rfl⟩, by decide, by decide⟩

theorem targets_are_roots_sample : Corresponds ["scratch"] warmWorld := by
  apply targets_are_roots samplePlatform ["scratch"] warmWorld
  refine (Reachable.start sample_started).next
    ⟨sampleEnvironment, inputsRequest, sample_soundCall.1, sample_soundCall.2, ?_, rfl⟩
  rintro output houtput _ ⟨suffix, rfl⟩ hbegins
  have hsample : requestedOutput samplePlatform inputsRequest.arguments = .ok ["out.jar"] := by
    decide +kernel
  rw [hsample] at houtput
  cases houtput
  exact absurd hbegins.length_le (by simp)

/-! ## A jar inside the scratch directory -/

/-- The arguments `-- -d /scratch/target-x/out.jar`. -/
def insideRequest : WorkRequest :=
  .ofDecodable ⟨[10, 2] ++ getBytes "--" ++ [10, 2] ++ getBytes "-d" ++ [10, 25] ++
    getBytes "/scratch/target-x/out.jar", by decide⟩ (by decide)

/-- The jar is packed into a directory that looks like a root and is none. -/
theorem inside_jar_leaks :
    ¬ ∀ (platform : Platform) (scratch : Path) (world : World),
      Reachable (Started scratch) (SoundCall platform scratch) world →
        Corresponds scratch world := by
  intro h
  have hcorresponds := h samplePlatform ["scratch"] _ ((Reachable.start sample_started).next
    ⟨sampleEnvironment, insideRequest, sample_soundCall.1, rfl, rfl, rfl, sample_soundCall.2, rfl⟩)
  have hexists : TargetExists ["scratch"]
      (call samplePlatform ["scratch"] sampleWorld sampleEnvironment insideRequest).2
      ["scratch", "target-x"] :=
    ⟨⟨"x", rfl⟩, by decide +kernel⟩
  obtain ⟨output, state, hstate, hroot⟩ := (hcorresponds.targets _).mp hexists
  have hreachable : Reachable (Initial ["scratch"]) (Step samplePlatform ["scratch"])
      (call samplePlatform ["scratch"] sampleWorld sampleEnvironment insideRequest).2 :=
    (Reachable.start sampleWorld_initial).next
      ⟨sampleEnvironment, insideRequest, rfl, by decide +kernel⟩
  -- every root was issued, and this directory was not
  have hissued := (Sound.of_reachable hreachable).stateIssued output state hstate
  rw [hroot] at hissued
  revert hissued
  decide +kernel

end RulesElide.IncrementalWorker
