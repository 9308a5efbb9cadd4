import RulesElide.IncrementalWorker.History

/-!
# What is sent

A call of `handle` writes one request at most, to the resident compiler process or to a new one.
`call_process` says what becomes of the process, and `Sends.spec` which request that is.
-/

namespace RulesElide.IncrementalWorker

open Effects WorkerProtocol

/-- Neither the compiler process nor what was sent to one differs. -/
structure SameProcess (world after : World) : Prop where
  compiler : after.compiler = world.compiler
  started : after.started = world.started
  sent : after.sent = world.sent

instance : Std.Refl SameProcess := ⟨fun _ => ⟨rfl, rfl, rfl⟩⟩

instance : IsTrans World SameProcess :=
  ⟨fun _ _ _ h h' => ⟨h'.compiler.trans h.compiler, h'.started.trans h.started,
    h'.sent.trans h.sent⟩⟩

theorem SameButDisk.sameProcess {world after : World} (h : SameButDisk world after) :
    SameProcess world after := by
  obtain ⟨_, rfl⟩ := h
  exact ⟨rfl, rfl, rfl⟩

theorem SameButFiles.sameProcess {world after : World} (h : SameButFiles world after) :
    SameProcess world after := by
  obtain ⟨_, _, rfl⟩ := h
  exact ⟨rfl, rfl, rfl⟩

/-- The process that `compile` writes to: the resident one, or a new one. -/
def World.processOf (world : World) (env : Environment) : Option ℕ :=
  match world.compiler with
  | some process => some process
  | none => if env.start.isNone then some world.started else none

/-- The number of started processes after that. -/
def World.startedOf (world : World) (env : Environment) : ℕ :=
  if world.compiler.isNone && env.start.isNone then world.started + 1 else world.started

/-- The process of the call runs, and it has got these requests from the call. -/
structure Attached (world : World) (env : Environment) (process : ℕ)
    (messages : List WorkRequest) (after : World) : Prop where
  processOf : world.processOf env = some process
  compiler : after.compiler = some process
  started : after.started = world.startedOf env
  sent : after.sent = world.sent ++ messages.map fun message => (process, message)

/-- The process of the call has got the request with these arguments. -/
def Delivered (world : World) (env : Environment) (request : WorkRequest) (args : List String)
    (after : World) : Prop :=
  ∃ process forwarded, request.withArguments args = .ok forwarded ∧
    Attached world env process [forwarded] after

variable {platform : Platform} {scratch output : Path} {env : Environment}
  {request forwarded : WorkRequest} {signature' : String} {state : State} {world after : World}
  {process : ℕ}

theorem processOf_lt
    (hattached : ∀ process, world.compiler = some process → process < world.started)
    (h : world.processOf env = some process) : process < world.startedOf env := by
  unfold World.processOf at h
  unfold World.startedOf
  split at h
  · rename_i resident hresident
    cases h
    simpa [hresident] using hattached process hresident
  · rename_i hnone
    split at h
    · rename_i hstart
      cases h
      simp [hnone, hstart]
    · cases h

theorem started_le_startedOf (world : World) (env : Environment) :
    world.started ≤ world.startedOf env := by
  unfold World.startedOf
  split <;> omega

/-! ## Steps that send nothing -/

theorem remove_sameProcess (root : Path) (fault : Option Fault) :
    Within SameProcess (remove root fault) :=
  (remove_within root fault).mono fun _ _ => SameButFiles.sameProcess

theorem createDirectories_sameProcess (path : Path) (fault : Option Fault) :
    Within SameProcess (createDirectories path fault) :=
  (createDirectories_within path fault).mono fun _ _ => SameButDisk.sameProcess

theorem createTempDirectory_sameProcess (suffix : Except Throwable String) :
    Within SameProcess (createTempDirectory scratch suffix) := by
  intro world
  refine ((createTempDirectory_spec scratch suffix world).mono ?_ fun _ _ hsame => ?_).after rfl
  · rintro root _ ⟨_, _, disk, rfl⟩
    exact ⟨rfl, rfl, rfl⟩
  · rw [hsame]
    exact Std.Refl.refl world

theorem prepare_sameProcess :
    Within SameProcess (prepare scratch env request output signature') := by
  have hrenew : Within SameProcess (prepare.renew scratch env output signature') := by
    refine Within.bind (createTempDirectory_sameProcess env.directory) fun root => ?_
    exact Within.bind (Within.modify fun world => ⟨rfl, rfl, rfl⟩) fun _ => Within.pure _
  unfold prepare
  refine Within.bind Within.get fun current => ?_
  dsimp only
  -- renewing and reusing a state only touch files
  split
  · split
    · exact Within.bind (remove_sameProcess _ env.outdated) fun _ => hrenew
    · exact Within.pure _
  · exact hrenew

theorem enter_sameProcess : Within SameProcess (enter platform scratch env request) :=
  Within.bind (Within.ofExcept _) fun _ => Within.bind prepare_sameProcess fun _ =>
    Within.bind (createDirectories_sameProcess _ env.classes) fun _ => Within.pure _

theorem publish_sameProcess {response : WorkResponse} :
    Within SameProcess (publish env output state response) := by
  refine Within.bind (Within.modify fun world => ⟨rfl, rfl, rfl⟩) fun _ => ?_
  split
  · refine Within.bind ((pack_within _ _ _ _).mono fun _ _ => SameButDisk.sameProcess) fun _ => ?_
    exact Within.bind (Within.modify fun world => ⟨rfl, rfl, rfl⟩) fun _ => Within.pure _
  · refine Within.bind (Within.modify fun world => ⟨rfl, rfl, rfl⟩) fun _ => ?_
    exact Within.bind (remove_sameProcess _ env.failed) fun _ => Within.pure _

/-! ## `compile` -/

theorem Attached.sameProcess {messages : List WorkRequest} {current : World}
    (h : Attached world env process messages current) (hsame : SameProcess current after) :
    Attached world env process messages after :=
  ⟨h.processOf, hsame.compiler.trans h.compiler, hsame.started.trans h.started,
    hsame.sent.trans h.sent⟩

theorem Attached.write (h : Attached world env process [] after) :
    Attached world env process [forwarded] (after.write forwarded) where
  processOf := h.processOf
  compiler := h.compiler
  started := h.started
  sent := by
    have hsent : after.sent = world.sent := h.sent.trans (List.append_nil _)
    rw [World.write, h.compiler, ← hsent]
    rfl

/-- If the compiler cannot be started, nothing is. -/
theorem ensureCompiler_process :
    Triple (SameProcess world) (ensureCompiler env)
      (fun _ after => ∃ process, Attached world env process [] after)
      (fun _ => SameProcess world) := by
  refine Triple.get_bind fun current h => ?_
  have hsent : current.sent = world.sent ++ [] := h.sent.trans (List.append_nil _).symm
  split
  · rename_i hnone
    rw [h.compiler, Option.isNone_iff_eq_none] at hnone
    -- a new process has the next number; if it cannot be started, nothing has changed
    cases hstart : env.start with
    | some thrown =>
        have hthrow : run (raise (some thrown) >>= fun _ => modify fun world : World =>
            { world with compiler := some world.started, started := world.started + 1 }) current =
              (.error thrown, current) := rfl
        rintro _ rfl
        rw [hthrow]
        exact h
    | none =>
        rintro _ rfl
        refine ⟨world.started, ?_, congrArg some h.started, ?_, hsent⟩
        · simp [World.processOf, hnone, hstart]
        · simp [World.startedOf, hnone, hstart, h.started]
  · rename_i hsome
    refine Triple.pure fun _ hcurrent => ?_
    subst hcurrent
    -- there is a resident process, and it stays
    obtain ⟨process, hprocess⟩ := Option.ne_none_iff_exists'.mp
      (mt Option.isNone_iff_eq_none.mpr hsome)
    have hresident : world.compiler = some process := h.compiler.symm.trans hprocess
    refine ⟨process, ?_, hprocess, ?_, hsent⟩
    · rw [World.processOf, hresident]
    · simp [World.startedOf, hresident, h.started]

/-- A process that was started gets the request, also when `compile` fails after that. -/
theorem compile_process {root : Path} :
    Triple (SameProcess world) (compile env root forwarded)
      (fun _ after => ∃ process, Attached world env process [forwarded] after)
      (fun _ after => SameProcess world after ∨
        ∃ process, Attached world env process [forwarded] after) := by
  have hsend : Triple (fun after => ∃ process, Attached world env process [forwarded] after)
      (raise env.send) (fun _ after => ∃ process, Attached world env process [forwarded] after)
      (fun _ after => ∃ process, Attached world env process [forwarded] after) :=
    Triple.of_final fun current h => (run_raise env.send current).symm ▸ h
  refine Triple.bind (ensureCompiler_process.mono_fails fun _ _ => Or.inl) fun _ => ?_
  -- from the write on, whatever fails, the request has been sent
  refine Triple.modify_bind (fun after => ∃ process, Attached world env process [forwarded] after)
    (fun _ h => h.imp fun _ => Attached.write) ?_
  refine Triple.modify_bind (fun after => ∃ process, Attached world env process [forwarded] after)
    (fun _ h => h.imp fun _ hattached => hattached.sameProcess ⟨rfl, rfl, rfl⟩) ?_
  refine Triple.bind (hsend.mono_fails fun _ _ => Or.inr) fun _ => ?_
  refine Triple.ofExcept_bind (fun response _ => ?_) fun _ _ _ => Or.inr
  cases response with
  | none => exact Triple.throw fun _ => Or.inr
  | some response =>
      dsimp only
      split
      · exact Triple.pure fun _ h => h
      · exact Triple.throw fun _ => Or.inr

/-! ## The `try` -/

/-- The body of the `try` sends the request, unless its arguments cannot be exchanged or the
compiler cannot be started. -/
theorem attempt_process {args : List String} :
    Triple (SameProcess world) (attempt env request args output signature' state)
      (fun _ => Delivered world env request args)
      (fun _ after => SameProcess world after ∨ Delivered world env request args after) := by
  refine Triple.ofExcept_bind (fun forwarded hforwarded => ?_) fun _ _ _ => Or.inl
  -- what `compile` sends are the arguments that `attempt` was given
  have hdelivered (after : World)
      (h : ∃ process, Attached world env process [forwarded] after) :
      Delivered world env request args after := by
    obtain ⟨process, hattached⟩ := h
    exact ⟨process, forwarded, hforwarded, hattached⟩
  refine Triple.modify_bind (SameProcess world) (fun _ h => ⟨h.compiler, h.started, h.sent⟩) ?_
  have hcompile : Triple (SameProcess world) (compile env state.root forwarded)
      (fun _ => Delivered world env request args)
      (fun _ after => SameProcess world after ∨ Delivered world env request args after) :=
    compile_process.mono (fun _ => hdelivered) fun _ after => Or.imp_right (hdelivered after)
  refine Triple.bind hcompile fun response => ?_
  have hpublish : Triple (Delivered world env request args)
      (publish env output state response) (fun _ => Delivered world env request args)
      (fun _ => Delivered world env request args) := by
    refine Triple.of_within publish_sameProcess fun _ _ h hsame => ?_
    obtain ⟨process, forwarded, hforwarded, hattached⟩ := h
    exact ⟨process, forwarded, hforwarded, hattached.sameProcess hsame⟩
  exact hpublish.mono_fails fun _ _ => Or.inr

/-- After an exception there is no resident process. -/
theorem recover_process (before : World) (failure : Throwable) :
    Triple (· = before) (recover scratch env failure) (fun _ _ => False)
      (fun thrown after => after.started = before.started ∧ after.sent = before.sent ∧
        (thrown.isException = true → after.compiler = none)) := by
  unfold recover
  split
  · -- `abandon` drops the process first, and then only deletes files
    have habandon : Triple (· = before) (abandon scratch env)
        (fun _ => SameProcess { before with compiler := none })
        (fun _ => SameProcess { before with compiler := none }) := by
      refine Triple.modify_bind (SameProcess { before with compiler := none }) ?_ ?_
      · rintro _ rfl
        exact ⟨rfl, rfl, rfl⟩
      · exact Triple.within_bind (remove_sameProcess _ _) (fun _ _ h => Trans.trans h)
          (fun _ _ h => h) fun _ =>
            Triple.of_within (createDirectories_sameProcess _ _) fun _ _ h => Trans.trans h
    refine Triple.bind (habandon.mono_fails fun _ _ h => ?_) fun _ => Triple.throw fun _ h => ?_
    · exact ⟨h.started, h.sent, fun _ => h.compiler⟩
    · exact ⟨h.started, h.sent, fun _ => h.compiler⟩
  · rename_i hescapes
    refine Triple.throw fun _ h => ?_
    subst h
    exact ⟨rfl, rfl, fun hexception => absurd hexception hescapes⟩

/-- The `try` of a call. -/
theorem guarded_process {args : List String} :
    Triple (SameProcess world)
      (tryCatch (attempt env request args output signature' state) (recover scratch env))
      (fun _ => Delivered world env request args)
      (fun thrown after => ∃ before,
        (SameProcess world before ∨ Delivered world env request args before) ∧
          after.started = before.started ∧ after.sent = before.sent ∧
          (thrown.isException = true → after.compiler = none)) := by
  -- the handler starts in a world in which the body has stopped
  refine Triple.tryCatch attempt_process fun failure => Triple.of_states fun before hbefore => ?_
  exact (recover_process before failure).mono (fun _ _ => False.elim) fun _ _ h =>
    ⟨before, hbefore, h⟩

/-! ## A call -/

/-- The call writes this request to this process. -/
def Sends (platform : Platform) (scratch : Path) (env : Environment) (request : WorkRequest)
    (world : World) (process : ℕ) (forwarded : WorkRequest) : Prop :=
  (call platform scratch world env request).2.sent = world.sent ++ [(process, forwarded)]

/-- The call is recorded as a compilation for this output, in this root. -/
def CompilesIn (platform : Platform) (scratch : Path) (env : Environment) (request : WorkRequest)
    (world : World) (output root : Path) : Prop :=
  (call platform scratch world env request).2.keys =
    world.keys ++ [keyOf platform request output root]

/-- What a call does to the compiler process. -/
inductive ProcessAfter (platform : Platform) (scratch : Path) (env : Environment)
    (request : WorkRequest) (world : World) (outcome : Except Throwable WorkResponse)
    (after : World) : Prop
  /-- The call fails and has sent nothing. -/
  | silent {failure : Throwable} (houtcome : outcome = .error failure)
      (hstarted : world.started ≤ after.started) (hsent : after.sent = world.sent)
      (hcompiler : failure.isException = true →
        after.compiler = none ∨ after.compiler = world.compiler)
  /-- The process stays when the call returns, and after an exception it is gone. -/
  | sends {output : Path} {state : State} {entered : World} {process : ℕ} {forwarded : WorkRequest}
      (henter : run (enter platform scratch env request) world = (.ok (output, state), entered))
      (hforwarded : request.withArguments (forwardedArguments request.arguments state.root) =
        .ok forwarded)
      (hprocess : world.processOf env = some process)
      (hstarted : after.started = world.startedOf env)
      (hsent : after.sent = world.sent ++ [(process, forwarded)])
      (hreturned : ∀ response, outcome = .ok response → after.compiler = some process)
      (hthrown : ∀ failure, outcome = .error failure → failure.isException = true →
        after.compiler = none)

theorem call_process (platform : Platform) (scratch : Path) (env : Environment)
    (request : WorkRequest) (world : World) :
    ProcessAfter platform scratch env request world (call platform scratch world env request).1
      (call platform scratch world env request).2 := by
  rw [call, handle_eq]
  rcases henter : run (enter platform scratch env request) world with ⟨outcome, entered⟩
  have hsame : SameProcess world entered := enter_sameProcess.of_run henter
  -- before the `try` nothing is sent
  cases outcome with
  | error failure =>
      rw [run_bind_of_error henter]
      exact ProcessAfter.silent rfl hsame.started.ge hsame.sent fun _ => Or.inr hsame.compiler
  | ok found =>
      obtain ⟨output, state⟩ := found
      rw [run_bind_of_ok henter]
      -- the `try`: it returns, or its handler throws
      rcases hrun : run (tryCatch (attempt env request (forwardedArguments request.arguments
        state.root) output (signature platform request) state) (recover scratch env)) entered
        with ⟨outcome, after⟩
      cases outcome with
      | ok response =>
          obtain ⟨process, forwarded, hforwarded, hattached⟩ := guarded_process.ok hsame hrun
          exact ProcessAfter.sends henter hforwarded hattached.processOf hattached.started
            hattached.sent (fun _ _ => hattached.compiler) fun _ h => by cases h
      | error failure =>
          obtain ⟨before, hbefore, hstarted, hsent, hnone⟩ := guarded_process.error hsame hrun
          rcases hbefore with hunsent | ⟨process, forwarded, hforwarded, hattached⟩
          · exact ProcessAfter.silent rfl (hstarted.trans hunsent.started).ge
              (hsent.trans hunsent.sent) fun hexception => Or.inl (hnone hexception)
          · refine ProcessAfter.sends henter hforwarded hattached.processOf
              (hstarted.trans hattached.started) (hsent.trans hattached.sent)
              (fun _ h => by cases h) ?_
            rintro _ ⟨⟩
            exact hnone

theorem call_started_le (platform : Platform) (scratch : Path) (env : Environment)
    (request : WorkRequest) (world : World) :
    world.started ≤ (call platform scratch world env request).2.started := by
  cases call_process platform scratch env request world with
  | silent _ hstarted _ _ => exact hstarted
  | sends _ _ _ hstarted _ _ _ => exact (started_le_startedOf world env).trans_eq hstarted.symm

/-- A call sends nothing, or one request. -/
theorem call_sent (platform : Platform) (scratch : Path) (env : Environment)
    (request : WorkRequest) (world : World) :
    (call platform scratch world env request).2.sent = world.sent ∨
      ∃ process forwarded, Sends platform scratch env request world process forwarded := by
  cases call_process platform scratch env request world with
  | silent _ _ hsent _ => exact Or.inl hsent
  | sends _ _ _ _ hsent _ _ => exact Or.inr ⟨_, _, hsent⟩

theorem Sends.unique {process' : ℕ} {forwarded' : WorkRequest}
    (h : Sends platform scratch env request world process forwarded)
    (h' : Sends platform scratch env request world process' forwarded') :
    process = process' ∧ forwarded = forwarded' := by
  have hsame := List.append_cancel_left (h.symm.trans h')
  cases hsame
  exact ⟨rfl, rfl⟩

theorem not_sends_of_sent
    (h : (call platform scratch world env request).2.sent = world.sent) (process : ℕ)
    (forwarded : WorkRequest) : ¬ Sends platform scratch env request world process forwarded := by
  intro hsends
  have hlength := congrArg List.length (h.symm.trans hsends)
  simp at hlength

/-- **The request that is sent** is the one of the call, with the arguments of the root that the
call is recorded with, and it goes to the process of the call. -/
theorem Sends.spec (h : Sends platform scratch env request world process forwarded) :
    world.processOf env = some process ∧
      world.startedOf env = (call platform scratch world env request).2.started ∧
      ∃ output root, requestedOutput platform request.arguments = .ok output ∧
        CompilesIn platform scratch env request world output root ∧
        request.withArguments (forwardedArguments request.arguments root) = .ok forwarded := by
  -- a call sends one request at most, so this is the one it sent
  cases call_process platform scratch env request world with
  | silent _ _ hsent _ => exact absurd h (not_sends_of_sent hsent process forwarded)
  | sends henter hforwarded hprocess hstarted hsent _ _ =>
      obtain ⟨rfl, rfl⟩ := h.unique hsent
      refine ⟨hprocess, hstarted.symm, _, _, enter_output henter, ?_, hforwarded⟩
      exact (call_keys_of_enter henter).resolve_left fun hnone => hnone.2 _ hforwarded

end RulesElide.IncrementalWorker
