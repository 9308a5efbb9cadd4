import RulesElide.IncrementalWorker.Model

/-!
# A root is used again only after success

`Sound` is the invariant between two calls of `handle`: the roots of the states are those
of one output each, and whatever was compiled in the root of a state was compiled for that
output with that signature and succeeded.  While a call compiles, the invariant holds of the
history before it (`Open`); a call that fails either takes the root out of the states or
drops all of them.
-/

namespace RulesElide.IncrementalWorker

open Effects Transition WorkerProtocol

/-- The compiler answered with exit code 0, and the classes were packed without an error. -/
def Compilation.Succeeded (compilation : Compilation) : Prop :=
  compilation.answer = some 0 ∧ compilation.packed = true

/-- If two requests were forwarded with one root, the first one was for the same output with
the same signature and succeeded, and the second one has inputs. -/
def Reusable (earlier later : Compilation) : Prop :=
  earlier.root = later.root →
    earlier.output = later.output ∧ earlier.signature = later.signature ∧ earlier.Succeeded ∧
      0 < later.inputs

/-- The invariant of the worker. -/
structure Sound (world : World) : Prop where
  stateIssued : ∀ output state, world.states output = some state → state.root ∈ world.issued
  historyIssued : ∀ compilation ∈ world.history, compilation.root ∈ world.issued
  distinct : world.DistinctRoots
  clean : ∀ output state, world.states output = some state →
    ∀ compilation ∈ world.history, compilation.root = state.root →
      compilation.output = output ∧ compilation.signature = state.signature ∧ compilation.Succeeded
  reusable : world.history.Pairwise Reusable

/-- The state that a request is about to use. -/
structure Prepared (request : WorkRequest) (output : Path) (signature : String) (state : State)
    (world : World) : Prop where
  sound : Sound world
  stored : world.states output = some state
  signature_eq : state.signature = signature
  inputs : ∀ compilation ∈ world.history, compilation.root = state.root →
    0 < request.inputs.length

/-- The last request of the history is still being compiled. -/
structure Open (output : Path) (state : State) (answer : Option JavaInt)
    (earlier : List Compilation)
    (last : Compilation) (world : World) : Prop where
  history : world.history = earlier ++ [last]
  sound : Sound { world with history := earlier }
  stored : world.states output = some state
  output_eq : last.output = output
  signature_eq : last.signature = state.signature
  root_eq : last.root = state.root
  answer_eq : last.answer = answer
  reusable : world.history.Pairwise Reusable

variable {platform : Platform} {scratch output : Path} {env : Environment} {request : WorkRequest}
  {signature : String} {state : State} {world : World}

/-! ## Steps on files -/

theorem Sound.of_files {after : World} (h : Sound world) (hsame : SameButFiles world after) :
    Sound after := by
  obtain ⟨disk, lost, rfl⟩ := hsame
  exact ⟨h.stateIssued, h.historyIssued, h.distinct, h.clean, h.reusable⟩

theorem Prepared.of_disk {after : World} (h : Prepared request output signature state world)
    (hsame : SameButDisk world after) : Prepared request output signature state after := by
  obtain ⟨disk, rfl⟩ := hsame
  exact ⟨h.sound.of_files ⟨disk, world.lost, rfl⟩, h.stored, h.signature_eq, h.inputs⟩

theorem remove_sound (root : Path) (fault : Option Fault) :
    Triple Sound (remove root fault) (fun _ => Sound) (fun _ => Sound) :=
  Triple.of_within (remove_within root fault) fun _ _ => Sound.of_files

/-! ## Preparing the state -/

/-- Neither a state nor a request of the history uses the root. -/
def Unused (root : Path) (world : World) : Prop :=
  (∀ output state, world.states output = some state → state.root ≠ root) ∧
    ∀ compilation ∈ world.history, compilation.root ≠ root

theorem createTempDirectory_sound (suffix : Except Throwable String) :
    Triple Sound (createTempDirectory scratch suffix)
      (fun root world => Sound world ∧ root ∈ world.issued ∧ Unused root world)
      (fun _ => Sound) := by
  apply Triple.of_states
  intro world hsound
  refine (createTempDirectory_spec scratch suffix world).mono ?_ fun _ _ hworld => hworld ▸ hsound
  intro root after hafter
  obtain ⟨_, hissued, disk, rfl⟩ := hafter
  have hadded : ∀ {root' : Path}, root' ∈ world.issued → root' ∈ world.issued ++ [root] :=
    fun hroot => List.mem_append_left _ hroot
  refine ⟨⟨?_, ?_, hsound.distinct, hsound.clean, hsound.reusable⟩, ?_, ?_, ?_⟩
  · exact fun output state hstate => hadded (hsound.stateIssued output state hstate)
  · exact fun compilation hmem => hadded (hsound.historyIssued compilation hmem)
  · exact List.mem_append_right _ List.mem_cons_self
  · intro output state hstate hroot
    exact hissued (hroot ▸ hsound.stateIssued output state hstate)
  · intro compilation hmem hroot
    exact hissued (hroot ▸ hsound.historyIssued compilation hmem)

/-- Storing a state with a root that nothing uses. -/
theorem Sound.store {root : Path} (h : Sound world) (hissued : root ∈ world.issued)
    (hunused : Unused root world) (output : Path) (signature : String) :
    Sound (world.store output { signature, root }) where
  stateIssued := World.forall_store hissued h.stateIssued
  historyIssued := h.historyIssued
  distinct := h.distinct.store hunused.1
  clean := World.forall_store
    (fun compilation hmem hroot => absurd hroot (hunused.2 compilation hmem)) h.clean
  reusable := h.reusable

theorem renew_sound :
    Triple Sound (prepare.renew scratch env output signature)
      (Prepared request output signature) (fun _ => Sound) := by
  refine Triple.bind (createTempDirectory_sound env.directory) fun root => ?_
  refine Triple.modify_bind (Prepared request output signature { signature, root })
    (fun world hworld => ?_) (Triple.pure fun _ h => h)
  obtain ⟨hsound, hissued, hunused⟩ := hworld
  exact ⟨hsound.store hissued hunused output signature,
    World.store_states.mpr (Or.inl ⟨rfl, rfl⟩), rfl,
    fun compilation hmem hroot => absurd hroot (hunused.2 compilation hmem)⟩

/-- The state a request gets is its own, and is an old one only if the request has inputs. -/
theorem prepare_sound :
    Triple Sound (prepare scratch env request output signature)
      (Prepared request output signature) (fun _ => Sound) := by
  have hrenew : Triple Sound (prepare.renew scratch env output signature)
      (Prepared request output signature) (fun _ => Sound) := renew_sound
  refine Triple.get_bind fun world hsound => ?_
  dsimp only
  split
  · rename_i state hstate
    split
    · exact Triple.bind ((remove_sound state.root env.outdated).at_state hsound) fun _ => hrenew
    · rename_i hreuse
      -- reused: the same signature, and a request with inputs
      simp only [not_or, ne_eq, not_not] at hreuse
      refine Triple.pure fun _ hworld => hworld ▸ ⟨hsound, hstate, hreuse.1.symm, fun _ _ _ => ?_⟩
      exact Nat.pos_of_ne_zero hreuse.2
  · exact hrenew.at_state hsound

/-! ## While the compiler runs -/

theorem Open.of_compiler {answer : Option JavaInt} {earlier : List Compilation} {last : Compilation}
    {after : World} (h : Open output state answer earlier last world)
    (hsame : SameButCompiler world after) : Open output state answer earlier last after := by
  obtain ⟨disk, compiler, started, sent, rfl⟩ := hsame
  have hsound := h.sound
  exact ⟨h.history, ⟨hsound.stateIssued, hsound.historyIssued, hsound.distinct, hsound.clean,
    hsound.reusable⟩, h.stored, h.output_eq, h.signature_eq, h.root_eq, h.answer_eq, h.reusable⟩

/-- Forwarding a request: whatever was compiled in its root before was fit for it. -/
theorem Prepared.forward (h : Prepared request output signature state world) :
    ∃ last, Open output state none world.history last
      (world.forward request output signature state.root) := by
  refine ⟨_, rfl, h.sound, h.stored, rfl, h.signature_eq.symm, rfl, rfl, ?_⟩
  refine List.pairwise_append.mpr ⟨h.sound.reusable, List.pairwise_singleton _ _, ?_⟩
  -- the new compilation against every earlier one of its root
  intro earlier hearlier last hlast hsame
  obtain rfl := List.mem_singleton.mp hlast
  obtain ⟨hout, hsig, hsucceeded⟩ :=
    h.sound.clean output state h.stored earlier hearlier hsame
  exact ⟨hout, hsig.trans h.signature_eq, hsucceeded, h.inputs earlier hearlier hsame⟩

/-- What is recorded of the answer does not change what the request was. -/
theorem Open.amend {answer : Option JavaInt} {earlier : List Compilation} {last : Compilation}
    (h : Open output state answer earlier last world) (change : Compilation → Compilation)
    (hchange : (change last).output = last.output ∧ (change last).signature = last.signature ∧
      (change last).root = last.root ∧ (change last).inputs = last.inputs) :
    Open output state (change last).answer earlier (change last) (world.amend change) := by
  obtain ⟨houtput, hsignature, hroot, hinputs⟩ := hchange
  have hhistory : (world.amend change).history = earlier ++ [change last] := by
    rw [World.amend, h.history, List.modifyLast_concat]
  have hpairs := h.reusable
  rw [h.history] at hpairs
  -- the pairs without the last compilation stay as they are
  obtain ⟨hearlier, _, hlast⟩ := List.pairwise_append.mp hpairs
  refine ⟨hhistory, h.sound, h.stored, houtput.trans h.output_eq, hsignature.trans h.signature_eq,
    hroot.trans h.root_eq, rfl, ?_⟩
  rw [hhistory]
  refine List.pairwise_append.mpr ⟨hearlier, List.pairwise_singleton _ _, ?_⟩
  intro compilation hmem amended hamended hsame
  obtain rfl := List.mem_singleton.mp hamended
  rw [houtput, hsignature, hinputs]
  exact hlast compilation hmem last List.mem_cons_self (hsame.trans hroot)

/-- The request that is being compiled has a root that was created. -/
theorem Open.historyIssued {answer : Option JavaInt} {earlier : List Compilation}
    {last : Compilation} (h : Open output state answer earlier last world) :
    ∀ compilation ∈ world.history, compilation.root ∈ world.issued := by
  intro compilation hmem
  rw [h.history] at hmem
  rcases List.mem_append.mp hmem with hearlier | hlast
  · exact h.sound.historyIssued compilation hearlier
  · obtain rfl := List.mem_singleton.mp hlast
    rw [h.root_eq]
    exact h.sound.stateIssued output state h.stored

/-- A compilation that succeeded leaves the worker sound. -/
theorem Open.close {answer : Option JavaInt} {earlier : List Compilation} {last : Compilation}
    (h : Open output state answer earlier last world) (hsucceeded : last.Succeeded) :
    Sound world := by
  have hsound := h.sound
  refine ⟨hsound.stateIssued, h.historyIssued, hsound.distinct, ?_, h.reusable⟩
  intro other found hfound compilation hmem hroot
  rw [h.history] at hmem
  rcases List.mem_append.mp hmem with hearlier | hlast
  · exact hsound.clean other found hfound compilation hearlier hroot
  · -- the roots of the states are distinct, so this is the state of the output itself
    obtain rfl := List.mem_singleton.mp hlast
    rw [h.root_eq] at hroot
    obtain rfl := hsound.distinct output other state found h.stored hfound hroot
    obtain rfl : state = found := Option.some.inj (h.stored.symm.trans hfound)
    exact ⟨h.output_eq, h.signature_eq, hsucceeded⟩

/-- A compilation that failed leaves the worker sound once its state is dropped. -/
theorem Open.drop {answer : Option JavaInt} {earlier : List Compilation} {last : Compilation}
    (h : Open output state answer earlier last world) : Sound (world.drop output) := by
  have hsound := h.sound
  refine ⟨World.forall_drop hsound.stateIssued, h.historyIssued, hsound.distinct.drop output, ?_,
    h.reusable⟩
  intro other found hfound compilation hmem hroot
  obtain ⟨hne, hfound⟩ := World.drop_states.mp hfound
  rw [show (world.drop output).history = world.history from rfl, h.history] at hmem
  rcases List.mem_append.mp hmem with hearlier | hlast
  · exact hsound.clean other found hfound compilation hearlier hroot
  · obtain rfl := List.mem_singleton.mp hlast
    rw [h.root_eq] at hroot
    -- no other state has the root of the compilation that failed
    exact absurd (hsound.distinct output other state found h.stored hfound hroot).symm hne

/-! ## A whole call -/

/-- What is left when a call has thrown: no request was forwarded with a root it must not
get, though a state may name a root that failed. -/
structure Settled (world : World) : Prop where
  historyIssued : ∀ compilation ∈ world.history, compilation.root ∈ world.issued
  reusable : world.history.Pairwise Reusable

theorem Sound.settled (h : Sound world) : Settled world :=
  ⟨h.historyIssued, h.reusable⟩

theorem Open.settled {answer : Option JavaInt} {earlier : List Compilation} {last : Compilation}
    (h : Open output state answer earlier last world) : Settled world :=
  ⟨h.historyIssued, h.reusable⟩

/-- Dropping all states leaves the worker sound. -/
theorem Settled.forget (h : Settled world) (compiler : Option ℕ) :
    Sound { world with states := fun _ => none, compiler } :=
  ⟨nofun, h.historyIssued, nofun, nofun, h.reusable⟩

/-- The last request is open, with some record of it. -/
def StillOpen (output : Path) (state : State) (answer : Option JavaInt) (world : World) : Prop :=
  ∃ earlier last, Open output state answer earlier last world

theorem StillOpen.settled {answer : Option JavaInt} (h : StillOpen output state answer world) :
    Settled world := by
  obtain ⟨_, _, hopen⟩ := h
  exact hopen.settled

theorem compile_open (forwarded : WorkRequest) :
    Triple (StillOpen output state none) (compile env state.root forwarded)
      (fun _ => StillOpen output state none) (fun _ => StillOpen output state none) := by
  apply Triple.of_within (compile_within env state.root forwarded)
  intro _ _ hopen hsame
  obtain ⟨earlier, last, hopen⟩ := hopen
  exact ⟨earlier, last, hopen.of_compiler hsame⟩

/-- A call that got an answer keeps the state only if the answer was 0 and the jar was packed. -/
theorem publish_sound (response : WorkResponse) :
    Triple (StillOpen output state none) (publish env output state response)
      (fun _ => Sound) (fun _ => Settled) := by
  refine Triple.modify_bind (StillOpen output state (some response.exitCode)) ?_ ?_
  · intro world hopen
    obtain ⟨earlier, last, hopen⟩ := hopen
    exact ⟨earlier, _, hopen.amend
      (fun compilation => { compilation with answer := some response.exitCode })
      ⟨rfl, rfl, rfl, rfl⟩⟩
  split
  · rename_i hexit
    rw [hexit]
    -- if packing throws, the answer is recorded and the state still there
    refine Triple.within_bind (pack_within _ _ _ _) ?_ (fun _ _ h => h.settled) fun _ => ?_
    · intro world after hopen hsame
      obtain ⟨earlier, last, hopen⟩ := hopen
      obtain ⟨disk, rfl⟩ := hsame
      exact ⟨earlier, last,
        hopen.of_compiler ⟨disk, world.compiler, world.started, world.sent, rfl⟩⟩
    · refine Triple.modify_bind Sound (fun world hopen => ?_) (Triple.pure fun _ h => h)
      obtain ⟨earlier, last, hopen⟩ := hopen
      have hamended := hopen.amend (fun compilation => { compilation with packed := true })
        ⟨rfl, rfl, rfl, rfl⟩
      exact hamended.close ⟨hopen.answer_eq, rfl⟩
  · refine Triple.modify_bind Sound (fun world hopen => ?_) ?_
    · obtain ⟨_, _, hopen⟩ := hopen
      exact hopen.drop
    · have hremove := remove_sound state.root env.failed
      exact Triple.bind (hremove.mono_fails fun _ _ h => h.settled) fun _ =>
        Triple.pure fun _ h => h

theorem attempt_sound {args : List String} :
    Triple (Prepared request output signature state)
      (attempt env request args output signature state)
      (fun _ => Sound) (fun _ => Settled) := by
  refine Triple.ofExcept_bind (fun forwarded _ => ?_) fun _ _ _ h => h.sound.settled
  -- from here on the request counts as forwarded
  refine Triple.modify_bind (StillOpen output state none) (fun _ h => ⟨_, h.forward⟩) ?_
  refine Triple.bind ((compile_open forwarded).mono_fails fun _ _ h => h.settled) ?_
  exact fun response => publish_sound response

theorem abandon_sound :
    Triple Settled (abandon scratch env) (fun _ => Sound) (fun _ => Sound) := by
  have hrecreate : Triple Sound (createDirectories scratch env.recreate) (fun _ => Sound)
      (fun _ => Sound) := by
    apply Triple.of_within (createDirectories_within scratch env.recreate)
    intro world after hsound hsame
    obtain ⟨disk, rfl⟩ := hsame
    exact hsound.of_files ⟨disk, world.lost, rfl⟩
  refine Triple.modify_bind Sound (fun _ h => h.forget none) ?_
  exact Triple.bind (remove_sound scratch env.scratch) fun _ => hrecreate

/-- A call keeps the invariant if it returns or throws an exception the worker survives. -/
theorem handle_sound :
    Triple Sound (handle platform scratch env request)
      (fun _ => Sound)
        (fun thrown world => Settled world ∧ (thrown.isException → Sound world)) := by
  have hkept : ∀ {thrown : Throwable} {world : World}, Sound world →
      Settled world ∧ (thrown.isException → Sound world) :=
    fun hsound => ⟨hsound.settled, fun _ => hsound⟩
  refine Triple.ofExcept_bind (fun output _ => ?_) fun _ _ _ h => hkept h
  refine Triple.bind (prepare_sound.mono_fails fun _ _ h => hkept h) fun state => ?_
  refine Triple.within_bind (createDirectories_within _ _) (fun _ _ => Prepared.of_disk)
    (fun _ _ h => hkept h.sound) fun _ => ?_
  refine Triple.tryCatch attempt_sound fun failure => ?_
  dsimp only
  split
  -- what is no exception is thrown on, and the states still name the root that failed
  · refine Triple.bind (abandon_sound.mono_fails fun _ _ h => hkept h)
      fun _ => Triple.throw fun _ h => hkept h
  · rename_i hescapes
    exact Triple.throw fun _ hsettled => ⟨hsettled, fun hexception => absurd hexception hescapes⟩

/-! ## Runs -/

theorem Sound.after_call (h : Sound world) (env : Environment) (request : WorkRequest) :
    Settled (call platform scratch world env request).2 ∧
      (GoesOn (call platform scratch world env request).1 →
        Sound (call platform scratch world env request).2) := by
  have hhandle : Triple Sound (handle platform scratch env request) (fun _ => Sound)
      (fun thrown world => Settled world ∧ (thrown.isException → Sound world)) := handle_sound
  -- a call that returns, or throws an exception, leaves the invariant
  match hcall : call platform scratch world env request with
  | (.ok response, final) =>
      have hsound : Sound final := hhandle.ok h hcall
      exact ⟨hsound.settled, fun _ => hsound⟩
  | (.error thrown, final) =>
      obtain ⟨hsettled, hsound⟩ := hhandle.error h hcall
      exact ⟨hsettled, fun hgoes => hsound (hgoes thrown rfl)⟩

theorem Sound.of_reachable (h : Reachable (Initial scratch) (Step platform scratch) world) :
    Sound world := by
  -- induction on the calls, with `Sound` as the invariant
  refine h.invariant ?_ ?_
  · intro world hinitial
    obtain ⟨disk, _, rfl⟩ := hinitial
    exact ⟨nofun, nofun, nofun, nofun, List.Pairwise.nil⟩
  · intro world after hsound hstep
    obtain ⟨env, request, rfl, hgoes⟩ := hstep
    exact (hsound.after_call env request).2 hgoes

/-- **A root is used again only after success.**  In every run, after every further call:
of two requests that were forwarded with one root, the first one had the output and the
signature of the second one, was answered with exit code 0 and packed without an error, and
the second one has inputs. -/
theorem root_reused_only_after_success (platform : Platform) (scratch : Path) (world : World)
    (hreachable : Reachable (Initial scratch) (Step platform scratch) world)
    (env : Environment) (request : WorkRequest) :
    (call platform scratch world env request).2.history.Pairwise Reusable :=
  ((Sound.of_reachable hreachable).after_call env request).1.reusable

/-- An empty scratch directory. -/
def sampleWorld : World := { disk := [(["scratch"], .directory)] }

/-- A call in which nothing fails: the compiler writes classes and answers with exit code 0. -/
def sampleEnvironment : Environment where
  directory := .ok "1"
  writes := [(["classes", "A.class"], .file [202, 254]), (["classes", "B.class"], .file [186, 190])]
  receive := (WorkResponse.ofBytes []).map some

def samplePlatform : Platform := ⟨sampleDigest, ':', []⟩

/-- The world after one call. -/
def warmWorld : World :=
  (call samplePlatform ["scratch"] sampleWorld sampleEnvironment inputsRequest).2

theorem sampleWorld_initial : Initial ["scratch"] sampleWorld :=
  ⟨[(["scratch"], .directory)], by decide, rfl⟩

theorem sample_goesOn :
    GoesOn (call samplePlatform ["scratch"] sampleWorld sampleEnvironment inputsRequest).1 := by
  decide +kernel

theorem root_reused_only_after_success_sample :
    let after := (call samplePlatform ["scratch"] warmWorld sampleEnvironment inputsRequest).2
    after.history.map Compilation.root = [["scratch", "target-1"], ["scratch", "target-1"]] ∧
      after.history.Pairwise Reusable := by
  constructor
  · decide +kernel
  · apply root_reused_only_after_success samplePlatform ["scratch"] warmWorld
    apply Reachable.next (Reachable.start sampleWorld_initial)
    exact ⟨sampleEnvironment, inputsRequest, rfl, sample_goesOn⟩

end RulesElide.IncrementalWorker
