import RulesElide.IncrementalWorker.Reuse

/-!
# What is forwarded

A request reaches the compiler with its arguments rewritten and nothing else changed
(`SameButArguments`, `forwardedArguments_of_splits`).  Until the classes are packed, `handle`
writes no regular file: those that appear were written by the compiler, inside the scratch
directory (`Confined`).
-/

namespace RulesElide.IncrementalWorker

open Effects Transition WorkerProtocol

/-! ## Arguments -/

theorem indexOf_append {before rest : List String} {value : String} (h : value ∉ before) :
    indexOf (before ++ value :: rest) value = before.length := by
  have hindex : (before ++ value :: rest).idxOf? value = some before.length := by
    rw [List.idxOf?_eq_some_iff]
    refine ⟨by simp, by simp, fun index hlt => ?_⟩
    rw [List.getElem_append_left hlt]
    exact fun heq => h (heq ▸ List.getElem_mem hlt)
  rw [indexOf, hindex]

/-- A value that has an index is in the list, for the first time at this index. -/
theorem exists_of_indexOf {list : List String} {value : String} (h : 0 ≤ indexOf list value) :
    ∃ before rest, list = before ++ value :: rest ∧ value ∉ before := by
  unfold indexOf at h
  cases hindex : list.idxOf? value with
  | none =>
      rw [hindex] at h
      exact absurd h (by norm_num)
  | some index =>
      have hmem : value ∈ list := List.isSome_idxOf?.mp (by rw [hindex]; rfl)
      exact List.eq_append_cons_of_mem hmem

/-- The first `--` comes before the first `-d`, and a value follows that. -/
structure Splits (args before middle : List String) (value : String)
    (rest : List String) : Prop where
  args_eq : args = before ++ "--" :: (middle ++ "-d" :: value :: rest)
  separator : "--" ∉ before
  early : "-d" ∉ before
  destination : "-d" ∉ middle

section

variable {args before middle rest : List String} {value : String}

theorem Splits.indexOf_separator (h : Splits args before middle value rest) :
    indexOf args "--" = before.length := by
  rw [h.args_eq, indexOf_append h.separator]

theorem Splits.eq_append (h : Splits args before middle value rest) :
    args = (before ++ "--" :: middle) ++ "-d" :: value :: rest := by
  rw [h.args_eq, List.append_assoc, List.cons_append]

theorem Splits.indexOf_destination (h : Splits args before middle value rest) :
    indexOf args "-d" = (before ++ "--" :: middle).length := by
  rw [h.eq_append, indexOf_append]
  rw [List.mem_append, List.mem_cons, not_or, not_or]
  exact ⟨h.early, by decide, h.destination⟩

theorem Splits.length_eq (h : Splits args before middle value rest) :
    args.length = (before ++ "--" :: middle).length + 2 + rest.length := by
  rw [h.args_eq]
  simp
  omega

/-- The output of a request is the value of its first `-d`. -/
theorem requestedOutput_of_splits (h : Splits args before middle value rest) (platform : Platform) :
    requestedOutput platform args = Path.absolute platform.workingDirectory value := by
  have hlength := h.length_eq
  have hinside : (before ++ "--" :: middle).length = before.length + middle.length + 1 := by
    simp
    omega
  have hvalue : args.getD ((before ++ "--" :: middle).length + 1) "" = value := by
    rw [h.eq_append, List.getD_append_right _ _ _ _ (Nat.le_add_right _ _), Nat.add_sub_cancel_left]
    rfl
  unfold requestedOutput
  rw [h.indexOf_separator, h.indexOf_destination]
  dsimp only
  rw [if_neg (by omega), Int.toNat_natCast_add_one, hvalue]

/-- Arguments that are accepted have this form. -/
theorem splits_or_refused (platform : Platform) (args : List String) :
    (∃ before middle value rest, Splits args before middle value rest) ∨
      requestedOutput platform args =
        .error (.illegalArgument "IC worker requires -- ... -d <output.jar>") := by
  by_cases hrefused : indexOf args "--" < 0 ∨ indexOf args "-d" ≤ indexOf args "--" ∨
      indexOf args "-d" + 1 ≥ args.length
  · exact Or.inr (by rw [requestedOutput]; exact if_pos hrefused)
  · left
    simp only [not_or, not_lt, not_le, ge_iff_le] at hrefused
    obtain ⟨hseparator, hlater, hvalue⟩ := hrefused
    obtain ⟨before, tail, hargs, hbefore⟩ := exists_of_indexOf hseparator
    obtain ⟨first, last, hargs', hfirst⟩ := exists_of_indexOf (hseparator.trans hlater.le)
    rw [hargs, indexOf_append hbefore, ← hargs, hargs', indexOf_append hfirst] at hlater
    rw [hargs', indexOf_append hfirst, List.length_append] at hvalue
    cases last with
    | nil => exact absurd hvalue (by simp)
    | cons value rest =>
        have hsplit : before ++ "--" :: tail = first ++ "-d" :: value :: rest := hargs ▸ hargs'
        -- the first `-d` stands behind the first `--`, as its index is greater
        rcases List.append_eq_append_iff.mp hsplit with ⟨part, hpart, htail⟩ | ⟨part, hpart, htail⟩
        · cases part with
          | nil => simp [hpart] at hlater
          | cons separator middle =>
              obtain ⟨rfl, rfl⟩ := List.cons.inj htail
              rw [hpart, List.mem_append, List.mem_cons, not_or, not_or] at hfirst
              exact ⟨before, middle, value, rest, hargs, hbefore, hfirst.1, hfirst.2.2⟩
        · have hlength := congrArg List.length hpart
          rw [List.length_append] at hlength
          omega

/-- The forwarded arguments: three tokens in front of the separator, and the classes directory
instead of the value. -/
theorem forwardedArguments_of_splits (h : Splits args before middle value rest) (root : Path) :
    forwardedArguments args root =
      before ++ ["--incremental", "--incremental-cache-dir", Path.toString (root ++ ["cache"])] ++
        "--" :: (middle ++ "-d" :: Path.toString (root ++ ["classes"]) :: rest) := by
  have hset : args.set ((before ++ "--" :: middle).length + 1)
    (Path.toString (root ++ ["classes"])) =
      before ++ "--" :: (middle ++ "-d" :: Path.toString (root ++ ["classes"]) :: rest) := by
    rw [h.eq_append, List.set_append_right _ _ (Nat.le_add_right _ _), Nat.add_sub_cancel_left,
      List.set_cons_succ, List.set_cons_zero, List.append_assoc, List.cons_append]
  unfold forwardedArguments
  dsimp only
  rw [h.indexOf_separator, h.indexOf_destination, Int.toNat_natCast, Int.toNat_natCast, hset,
    List.take_left, List.drop_left]

end

/-! ## The request that is forwarded -/

/-- Apart from the arguments, nothing of the request changes. -/
structure SameButArguments (request forwarded : WorkRequest) : Prop where
  inputs : forwarded.inputs = request.inputs
  requestId : forwarded.requestId = request.requestId
  others : (forwarded.fields.filter (!·.isArgument)).map Field.raw =
    (request.fields.filter (!·.isArgument)).map Field.raw

theorem sameButArguments {request forwarded : WorkRequest} {args : List String}
    (h : request.withArguments args = .ok forwarded) :
    forwarded.arguments = args ∧ SameButArguments request forwarded := by
  obtain ⟨hfits, rfl⟩ := WorkRequest.eq_of_withArguments h
  refine ⟨rfl, rfl, rfl, ?_⟩
  exact congrArg (List.map Field.raw) (WorkRequest.filter_exchanged args request.fields)

/-- `handle` up to the `try`: the output and the state of the request. -/
def enter (platform : Platform) (scratch : Path) (env : Environment) (request : WorkRequest) :
    Worker (Path × State) := do
  let output ← MonadExcept.ofExcept (requestedOutput platform request.arguments)
  let state ← prepare scratch env request output (signature platform request)
  createDirectories (state.root ++ ["classes"]) env.classes
  return (output, state)

/-- The handler of `handle`, which throws in any case. -/
def recover (scratch : Path) (env : Environment) (failure : Throwable) : Worker WorkResponse := do
  if failure.isException then abandon scratch env
  throw failure

variable {platform : Platform} {scratch output : Path} {env : Environment}
  {request forwarded : WorkRequest} {signature' : String} {state : State} {world : World}

theorem handle_eq : handle platform scratch env request =
    enter platform scratch env request >>= fun entered =>
      tryCatch (attempt env request (forwardedArguments request.arguments entered.2.root)
        entered.1 (signature platform request) entered.2) (recover scratch env) := by
  simp only [handle, enter, bind_assoc, pure_bind]
  rfl

/-! ## What is written -/

/-- Regular files appear only where the compiler wrote them, inside the scratch directory, and
those outside of it stay as they are. -/
structure Confined (scratch : Path) (env : Environment) (before after : Disk) : Prop where
  written : ∀ path node, node.isRegularFile = true → after.lookup path = some node →
    before.lookup path = some node ∨
      scratch <+: path ∧ ∃ root, ∃ entry ∈ env.writes, root ++ entry.1 = path ∧ entry.2 = node
  kept : ∀ path node, node.isRegularFile = true → ¬ scratch <+: path →
    before.lookup path = some node → after.lookup path = some node

theorem Confined.refl (disk : Disk) : Confined scratch env disk disk :=
  ⟨fun _ _ _ h => Or.inl h, fun _ _ _ _ h => h⟩

theorem Confined.trans {first second third : Disk} (h : Confined scratch env first second)
    (h' : Confined scratch env second third) : Confined scratch env first third where
  written path node hregular hlookup :=
    (h'.written path node hregular hlookup).elim (h.written path node hregular) Or.inr
  kept path node hregular houtside hlookup :=
    h'.kept path node hregular houtside (h.kept path node hregular houtside hlookup)

/-- Deleting files inside the scratch directory. -/
theorem Confined.erase {disk : Disk} {paths : List Path} (h : ∀ path ∈ paths, scratch <+: path) :
    Confined scratch env disk (disk.erase paths) where
  written path node _ hlookup := by
    rw [Disk.lookup_erase] at hlookup
    split at hlookup
    · cases hlookup
    · exact Or.inl hlookup
  kept path node _ houtside hlookup := by
    rw [Disk.lookup_erase, if_neg fun hmem => houtside (h path hmem)]
    exact hlookup

/-- Creating directories where there was nothing. -/
theorem Confined.directories {disk : Disk} {paths : List Path}
    (h : ∀ path ∈ paths, disk.lookup path = none) :
    Confined scratch env disk
      (paths.foldl (fun disk directory => disk.write directory .directory) disk) := by
  -- directories are written like any other entries, one after the other
  have hfold : paths.foldl (fun disk directory => disk.write directory .directory) disk =
      (paths.map fun directory => (directory, Node.directory)).foldl
        (fun disk entry => disk.write entry.1 entry.2) disk := by
    rw [List.foldl_map]
  rw [hfold]
  refine ⟨fun path node hregular hlookup => ?_, fun path node hregular _ hlookup => ?_⟩
  · rcases Disk.lookup_foldl_write _ path disk with hkept | ⟨entry, hentry, _, hwritten⟩
    · exact Or.inl (hkept ▸ hlookup)
    · obtain ⟨directory, _, rfl⟩ := List.mem_map.mp hentry
      obtain rfl : Node.directory = node := Option.some.inj (hwritten.symm.trans hlookup)
      cases hregular
  · rcases Disk.lookup_foldl_write _ path disk with hkept | ⟨entry, hentry, hpath, _⟩
    · rw [hkept, hlookup]
    · obtain ⟨directory, hdirectory, rfl⟩ := List.mem_map.mp hentry
      have hnone := h directory hdirectory
      rw [show directory = path from hpath, hlookup] at hnone
      cases hnone

/-- What the compiler writes inside the scratch directory. -/
theorem Confined.writes {disk : Disk} {root : Path} (hroot : scratch <+: root) :
    Confined scratch env disk
      (env.writes.foldl (fun disk entry => disk.write (root ++ entry.1) entry.2) disk) := by
  have hfold : env.writes.foldl (fun disk entry => disk.write (root ++ entry.1) entry.2) disk =
      (env.writes.map fun entry => (root ++ entry.1, entry.2)).foldl
        (fun disk entry => disk.write entry.1 entry.2) disk := by
    rw [List.foldl_map]
  have hinside : ∀ path : Path, scratch <+: root ++ path :=
    fun path => hroot.trans (List.prefix_append root path)
  rw [hfold]
  refine ⟨fun path node hregular hlookup => ?_, fun path node hregular houtside hlookup => ?_⟩
  · rcases Disk.lookup_foldl_write _ path disk with hkept | ⟨entry, hentry, hpath, hwritten⟩
    · exact Or.inl (hkept ▸ hlookup)
    · obtain ⟨written, hmem, rfl⟩ := List.mem_map.mp hentry
      obtain rfl : written.2 = node := Option.some.inj (hwritten.symm.trans hlookup)
      exact Or.inr ⟨hpath ▸ hinside written.1, root, written, hmem, hpath, rfl⟩
  · rcases Disk.lookup_foldl_write _ path disk with hkept | ⟨entry, hentry, hpath, _⟩
    · rw [hkept, hlookup]
    · obtain ⟨written, _, rfl⟩ := List.mem_map.mp hentry
      exact absurd (hpath ▸ hinside written.1) houtside

/-- The states keep their roots in the scratch directory, and as long as the call is `quiet`
nothing is written but by the compiler. -/
structure Tidy (scratch : Path) (env : Environment) (quiet : Prop) (disk : Disk) (world : World) :
    Prop where
  states : ∀ output state, world.states output = some state → scratch <+: state.root
  files : quiet → Confined scratch env disk world.disk

section

variable {quiet : Prop} {disk : Disk}

theorem Tidy.of_disk {after : World} (h : Tidy scratch env quiet disk world)
    (hstates : after.states = world.states) (hdisk : Confined scratch env world.disk after.disk) :
    Tidy scratch env quiet disk after :=
  ⟨hstates ▸ h.states, fun hquiet => (h.files hquiet).trans hdisk⟩

theorem remove_tidy {root : Path} (hroot : scratch <+: root) (fault : Option Fault) :
    Triple (Tidy scratch env quiet disk) (remove root fault)
      (fun _ => Tidy scratch env quiet disk) (fun _ => Tidy scratch env quiet disk) := by
  refine Triple.of_final fun world h => ?_
  rw [run_remove]
  split
  · refine h.of_disk rfl (Confined.erase fun path hpath => ?_)
    have hwalk := Fault.mem_of_mem_cut hpath
    rw [Disk.walkReversed, List.mem_insertionSort, Disk.inside, List.mem_map] at hwalk
    obtain ⟨entry, hentry, rfl⟩ := hwalk
    exact hroot.trans (by simpa using (List.mem_filter.mp hentry).2)
  · exact h

theorem createDirectories_tidy (path : Path) (fault : Option Fault) :
    Triple (Tidy scratch env quiet disk) (createDirectories path fault)
      (fun _ => Tidy scratch env quiet disk) (fun _ => Tidy scratch env quiet disk) := by
  refine Triple.of_final fun world h => ?_
  unfold createDirectories
  rw [run_bind_of_ok (run_get world)]
  dsimp only
  split
  · exact h
  · rw [run_bind_of_ok (run_set world _), run_fault_raise]
    refine h.of_disk rfl (Confined.directories fun directory hdirectory => ?_)
    have hholds := (List.mem_filter.mp (Fault.mem_of_mem_cut hdirectory)).2
    simp only [Disk.holds, Bool.not_eq_eq_eq_not, Bool.not_true, Bool.or_eq_false_iff] at hholds
    exact Option.isSome_eq_false_iff.mp hholds.2 |> Option.isNone_iff_eq_none.mp

theorem createTempDirectory_tidy (suffix : Except Throwable String) :
    Triple (Tidy scratch env quiet disk) (createTempDirectory scratch suffix)
      (fun root world => Tidy scratch env quiet disk world ∧ scratch <+: root)
      (fun _ => Tidy scratch env quiet disk) := by
  refine Triple.ofExcept_bind (fun suffix _ => ?_) fun _ _ _ h => h
  refine Triple.get_bind fun world h => ?_
  split
  · exact Triple.throw fun _ hcurrent => hcurrent ▸ h
  · rename_i hfresh
    simp only [not_or, Disk.holds, Bool.or_eq_true, Option.isSome_iff_ne_none, ne_eq, not_not]
      at hfresh
    refine Triple.bind (Triple.set ⟨h.of_disk rfl ?_, List.prefix_append _ _⟩)
      fun _ => Triple.pure fun _ h => h
    exact @Confined.directories scratch env world.disk [scratch ++ ["target-" ++ suffix]]
      fun path hpath => List.mem_singleton.mp hpath ▸ hfresh.2.1.2

theorem prepare_tidy :
    Triple (Tidy scratch env quiet disk) (prepare scratch env request output signature')
      (fun state world => Tidy scratch env quiet disk world ∧ scratch <+: state.root)
      (fun _ => Tidy scratch env quiet disk) := by
  have hrenew : Triple (Tidy scratch env quiet disk)
      (prepare.renew scratch env output signature')
      (fun state world => Tidy scratch env quiet disk world ∧ scratch <+: state.root)
      (fun _ => Tidy scratch env quiet disk) := by
    refine Triple.bind (createTempDirectory_tidy env.directory) fun root => ?_
    refine Triple.modify_bind (fun world => Tidy scratch env quiet disk world ∧ scratch <+: root)
      (fun world h => ?_) (Triple.pure fun _ h => h)
    exact ⟨⟨World.forall_store h.2 h.1.states, h.1.files⟩, h.2⟩
  -- a state that is kept has a root inside the scratch directory, as a new one has
  refine Triple.get_bind fun world h => ?_
  dsimp only
  split
  · rename_i state hstate
    split
    · have hremove := (remove_tidy (h.states output state hstate) env.outdated).at_state h
      exact Triple.bind hremove fun _ => hrenew
    · exact Triple.pure fun _ hcurrent => hcurrent ▸ ⟨h, h.states output state hstate⟩
  · exact hrenew.at_state h

theorem ensureCompiler_tidy :
    Triple (Tidy scratch env quiet disk) (ensureCompiler env)
      (fun _ => Tidy scratch env quiet disk) (fun _ => Tidy scratch env quiet disk) := by
  refine Triple.get_bind fun world h => ?_
  split
  · refine Triple.of_final fun _ hcurrent => ?_
    cases env.start with
    | none => exact hcurrent ▸ h.of_disk rfl (Confined.refl _)
    | some thrown => exact hcurrent ▸ h
  · exact Triple.pure fun _ hcurrent => hcurrent ▸ h

/-- What `compile` returns is the answer of the compiler, to the request that it was sent. -/
theorem compile_tidy {root : Path} (hroot : scratch <+: root) :
    Triple (Tidy scratch env quiet disk) (compile env root forwarded)
      (fun response world => Tidy scratch env quiet disk world ∧
        env.receive = .ok (some response) ∧ response.requestId = forwarded.requestId)
      (fun _ => Tidy scratch env quiet disk) := by
  -- the compiler deletes and writes inside its root
  have hdisk (world : World) : Confined scratch env world.disk (world.compiled root env).disk := by
    refine Confined.trans (Confined.erase fun path hpath => ?_) (Confined.writes hroot)
    obtain ⟨deleted, _, rfl⟩ := List.mem_map.mp hpath
    exact hroot.trans (List.prefix_append root deleted)
  have hsend : Triple (Tidy scratch env quiet disk) (raise env.send)
      (fun _ => Tidy scratch env quiet disk) (fun _ => Tidy scratch env quiet disk) :=
    Triple.of_final fun world h => (run_raise env.send world).symm ▸ h
  refine Triple.bind ensureCompiler_tidy fun _ => ?_
  refine Triple.modify_bind (Tidy scratch env quiet disk) (fun _ h => ⟨h.states, h.files⟩) ?_
  refine Triple.modify_bind (Tidy scratch env quiet disk)
    (fun world h => h.of_disk rfl (hdisk world)) ?_
  refine Triple.bind hsend fun _ => ?_
  refine Triple.ofExcept_bind (fun response hresponse => ?_) fun _ _ _ h => h
  cases response with
  | none => exact Triple.throw fun _ h => h
  | some response =>
      dsimp only
      split
      · rename_i hid
        exact Triple.pure fun _ h => ⟨h, hresponse, hid⟩
      · exact Triple.throw fun _ h => h

theorem Tidy.amend (h : Tidy scratch env quiet disk world) (change : Compilation → Compilation) :
    Tidy scratch env quiet disk (world.amend change) :=
  ⟨h.states, h.files⟩

theorem pack_tidy (hquiet : ¬ quiet) (classes jar : Path) (parent fault : Option Fault) :
    Triple (Tidy scratch env quiet disk) (pack classes jar parent fault)
      (fun _ => Tidy scratch env quiet disk) (fun _ => Tidy scratch env quiet disk) := by
  refine Triple.of_within (pack_within classes jar parent fault) fun world after h hsame => ?_
  obtain ⟨_, rfl⟩ := hsame
  exact ⟨h.states, fun hcontra => absurd hcontra hquiet⟩

theorem publish_tidy {response : WorkResponse} (hroot : scratch <+: state.root)
    (hquiet : quiet → response.exitCode ≠ 0) :
    Triple (Tidy scratch env quiet disk) (publish env output state response)
      (fun _ => Tidy scratch env quiet disk) (fun _ => Tidy scratch env quiet disk) := by
  refine Triple.modify_bind (Tidy scratch env quiet disk) (fun _ h => h.amend _) ?_
  -- a quiet call does not pack
  split
  · rename_i hexit
    refine Triple.bind (pack_tidy (fun h => hquiet h hexit) _ _ _ _) fun _ => ?_
    exact Triple.modify_bind (Tidy scratch env quiet disk) (fun _ h => h.amend _)
      (Triple.pure fun _ h => h)
  · refine Triple.modify_bind (Tidy scratch env quiet disk)
      (fun _ h => ⟨World.forall_drop h.states, h.files⟩) ?_
    exact Triple.bind (remove_tidy hroot env.failed) fun _ => Triple.pure fun _ h => h

theorem recover_tidy (failure : Throwable) :
    Triple (Tidy scratch env quiet disk) (recover scratch env failure)
      (fun _ => Tidy scratch env quiet disk) (fun _ => Tidy scratch env quiet disk) := by
  unfold recover
  split
  · refine Triple.bind ?_ fun _ => Triple.throw fun _ h => h
    refine Triple.modify_bind (Tidy scratch env quiet disk) (fun _ h => ⟨nofun, h.files⟩) ?_
    exact Triple.bind (remove_tidy List.prefix_rfl env.scratch)
      fun _ => createDirectories_tidy scratch env.recreate
  · exact Triple.throw fun _ h => h

/-- No answer to this request says that it succeeded. -/
def Unsuccessful (env : Environment) (request : WorkRequest) : Prop :=
  ∀ response, env.receive = .ok (some response) → response.requestId = request.requestId →
    response.exitCode ≠ 0

theorem attempt_tidy {args : List String} (hroot : scratch <+: state.root)
    (hquiet : quiet → Unsuccessful env request) :
    Triple (Tidy scratch env quiet disk) (attempt env request args output signature' state)
      (fun _ => Tidy scratch env quiet disk) (fun _ => Tidy scratch env quiet disk) := by
  refine Triple.ofExcept_bind (fun forwarded hforwarded => ?_) fun _ _ _ h => h
  have hid : forwarded.requestId = request.requestId := (sameButArguments hforwarded).2.requestId
  refine Triple.modify_bind (Tidy scratch env quiet disk) (fun _ h => ⟨h.states, h.files⟩) ?_
  refine Triple.bind (compile_tidy hroot) fun response => ?_
  apply Triple.of_states
  intro after hafter
  obtain ⟨h, hreceive, hresponse⟩ := hafter
  exact (publish_tidy hroot fun hq => hquiet hq response hreceive (hresponse.trans hid)).at_state h

theorem handle_tidy (hquiet : quiet → Unsuccessful env request) :
    Triple (Tidy scratch env quiet disk) (handle platform scratch env request)
      (fun _ => Tidy scratch env quiet disk) (fun _ => Tidy scratch env quiet disk) := by
  refine Triple.ofExcept_bind (fun output _ => ?_) fun _ _ _ h => h
  -- each step keeps the roots inside, and writes nothing while it is quiet
  refine Triple.bind prepare_tidy fun state => ?_
  apply Triple.of_states
  intro world hworld
  obtain ⟨h, hroot⟩ := hworld
  refine Triple.bind ((createDirectories_tidy _ env.classes).at_state h) fun _ => ?_
  exact Triple.tryCatch (attempt_tidy hroot hquiet) fun failure => recover_tidy failure

end

/-! ## Runs -/

/-- The roots of all states are in the scratch directory. -/
theorem rooted_of_reachable (h : Reachable (Initial scratch) (Step platform scratch) world) :
    ∀ output state, world.states output = some state → scratch <+: state.root := by
  revert h
  apply Reachable.invariant
  · intro world hinitial
    obtain ⟨disk, _, rfl⟩ := hinitial
    exact nofun
  · intro world after hstates hstep
    obtain ⟨env, request, rfl, _⟩ := hstep
    have htidy : Tidy scratch env False world.disk world := ⟨hstates, nofun⟩
    exact ((handle_tidy nofun).after htidy).states

/-- **A call without success** writes nothing: regular files appear only where the compiler
wrote them. -/
theorem confined_of_unsuccessful (h : Reachable (Initial scratch) (Step platform scratch) world)
    (hanswer : Unsuccessful env request) :
    Confined scratch env world.disk (call platform scratch world env request).2.disk :=
  have htidy : Tidy scratch env True world.disk world :=
    ⟨rooted_of_reachable h, fun _ => Confined.refl _⟩
  ((handle_tidy fun _ => hanswer).after htidy).files trivial

end RulesElide.IncrementalWorker
