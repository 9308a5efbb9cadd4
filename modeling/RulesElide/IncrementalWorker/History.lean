import RulesElide.IncrementalWorker.Forwarding

/-!
# The history of a run

A worker that serves a list of requests forwards some of them, each at most once and in order:
`Served.forwarded` pairs the compilations of its history with the requests they are of.
-/

namespace RulesElide.IncrementalWorker

open Effects Transition WorkerProtocol

variable {platform : Platform} {scratch output : Path} {env : Environment} {request : WorkRequest}
  {world : World} {requests : List WorkRequest}

/-- What a compilation is of, and where its classes and its cache are. -/
def Compilation.key (compilation : Compilation) : Path × String × Path :=
  (compilation.output, compilation.signature, compilation.root)

def World.keys (world : World) : List (Path × String × Path) :=
  world.history.map Compilation.key

/-- Nothing was forwarded in between. -/
def SameHistory (world after : World) : Prop :=
  after.keys = world.keys

instance : Std.Refl SameHistory := ⟨fun _ => rfl⟩

instance : IsTrans World SameHistory := ⟨fun _ _ _ h h' => Eq.trans h' h⟩

/-! ## Steps that forward nothing -/

theorem modify_sameHistory {update : World → World}
    (h : ∀ world, (update world).keys = world.keys) :
    Within SameHistory (modify update : Worker PUnit) :=
  Within.modify h

theorem remove_sameHistory (root : Path) (fault : Option Fault) :
    Within SameHistory (remove root fault) := by
  refine (remove_within root fault).mono ?_
  rintro world _ ⟨disk, lost, rfl⟩
  rfl

theorem createDirectories_sameHistory (path : Path) (fault : Option Fault) :
    Within SameHistory (createDirectories path fault) := by
  refine (createDirectories_within path fault).mono ?_
  rintro world _ ⟨disk, rfl⟩
  rfl

theorem createTempDirectory_sameHistory (suffix : Except Throwable String) :
    Within SameHistory (createTempDirectory scratch suffix) := by
  intro world
  have hspec := createTempDirectory_spec scratch suffix world
  cases hrun : run (createTempDirectory scratch suffix) world with
  | mk outcome after =>
      cases outcome with
      | ok root =>
          obtain ⟨_, _, disk, rfl⟩ := hspec.ok rfl hrun
          rfl
      | error thrown =>
          obtain rfl := hspec.error rfl hrun
          rfl

theorem prepare_sameHistory {signature : String} :
    Within SameHistory (prepare scratch env request output signature) := by
  have hrenew : Within SameHistory (prepare.renew scratch env output signature) := by
    refine (createTempDirectory_sameHistory env.directory).bind fun root => ?_
    refine Within.bind (modify_sameHistory ?_) fun _ => Within.pure _
    exact fun _ => rfl
  refine Within.get.bind fun world => ?_
  dsimp only
  split
  · split
    · exact (remove_sameHistory _ _).bind fun _ => hrenew
    · exact Within.pure _
  · exact hrenew

theorem compile_sameHistory (root : Path) : Within SameHistory (compile env root request) := by
  refine (compile_within env root request).mono ?_
  rintro world _ ⟨disk, compiler, started, sent, rfl⟩
  rfl

theorem abandon_sameHistory : Within SameHistory (abandon scratch env) := by
  refine Within.bind (modify_sameHistory ?_) fun _ => ?_
  · exact fun _ => rfl
  · exact (remove_sameHistory _ _).bind fun _ => createDirectories_sameHistory _ _

/-- What is recorded of a compilation later is not what it is of. -/
theorem keys_amend {change : Compilation → Compilation}
    (h : ∀ compilation, (change compilation).key = compilation.key) (world : World) :
    (world.amend change).keys = world.keys := by
  unfold World.keys World.amend
  dsimp only
  rcases List.eq_nil_or_concat world.history with hnil | ⟨earlier, last, hlast⟩
  · rw [hnil]
    rfl
  · rw [hlast, List.concat_eq_append, List.modifyLast_concat, List.map_append, List.map_append,
      List.map_singleton, List.map_singleton, h]

theorem pack_sameHistory (classes jar : Path) (parent fault : Option Fault) :
    Within SameHistory (pack classes jar parent fault) := by
  refine (pack_within classes jar parent fault).mono ?_
  rintro world _ ⟨disk, rfl⟩
  rfl

theorem publish_sameHistory {state : State} (response : WorkResponse) :
    Within SameHistory (publish env output state response) := by
  refine Within.bind (modify_sameHistory (keys_amend fun _ => rfl)) fun _ => ?_
  split
  · refine Within.bind (pack_sameHistory _ _ _ _) fun _ => ?_
    refine Within.bind (modify_sameHistory (keys_amend fun _ => rfl)) fun _ => Within.pure _
  · refine Within.bind (modify_sameHistory ?_) fun _ => ?_
    · exact fun _ => rfl
    · exact (remove_sameHistory _ _).bind fun _ => Within.pure _

/-! ## A call -/

/-- The compilation is of the request. -/
def Compilation.Of (compilation : Compilation) (platform : Platform)
    (request : WorkRequest) : Prop :=
  requestedOutput platform request.arguments = .ok compilation.output ∧
    compilation.signature = IncrementalWorker.signature platform request

/-- The key of the compilations of a request. -/
def keyOf (platform : Platform) (request : WorkRequest) (output root : Path) :
    Path × String × Path :=
  (output, signature platform request, root)

/-- The request is forwarded once, if its arguments can be exchanged. -/
theorem attempt_keys {args : List String} {state : State} (world : World) :
    let final :=
      (run (attempt env request args output (signature platform request) state) world).2
    (final.keys = world.keys ∧ ∀ forwarded, request.withArguments args ≠ .ok forwarded) ∨
      final.keys = world.keys ++ [keyOf platform request output state.root] := by
  unfold attempt
  dsimp only
  cases hforwarded : request.withArguments args with
  | error thrown => exact Or.inl ⟨rfl, fun _ h => by cases h⟩
  | ok forwarded =>
      right
      -- the request is recorded before `compile`, and nothing else is recorded after it
      have hrest : Within SameHistory (compile env state.root forwarded >>= fun response =>
          publish env output state response) :=
        (compile_sameHistory state.root).bind fun response => publish_sameHistory response
      rw [run_bind_of_ok (run_ofExcept _ world), run_bind_of_ok (run_modify _ world)]
      rw [show (run (compile env state.root forwarded >>= fun response =>
        publish env output state response) _).2.keys = _ from hrest _]
      simp [World.keys, World.forward, Compilation.key, keyOf]

theorem recover_sameHistory (failure : Throwable) :
    Within SameHistory (recover scratch env failure) := by
  unfold recover
  split
  · exact abandon_sameHistory.bind fun _ => Within.throw _
  · exact Within.throw _

theorem run_attempt_keys {args : List String} {state : State} (world : World) :
    let final := (run (tryCatch (attempt env request args output (signature platform request) state)
      (recover scratch env)) world).2
    (final.keys = world.keys ∧ ∀ forwarded, request.withArguments args ≠ .ok forwarded) ∨
      final.keys = world.keys ++ [keyOf platform request output state.root] := by
  have hkeys := @attempt_keys platform output env request args state world
  cases hrun : run (attempt env request args output (signature platform request) state) world with
  | mk outcome after =>
      rw [hrun] at hkeys
      -- the handler records nothing
      cases outcome with
      | ok response =>
          rw [run_tryCatch_of_ok hrun]
          exact hkeys
      | error failure =>
          rw [run_tryCatch_of_error hrun]
          dsimp only
          rw [show (run (recover scratch env failure) after).2.keys = after.keys from
            recover_sameHistory failure after]
          exact hkeys

theorem enter_sameHistory : Within SameHistory (enter platform scratch env request) := by
  refine (Within.ofExcept _).bind fun output => ?_
  refine prepare_sameHistory.bind fun state => ?_
  exact (createDirectories_sameHistory _ _).bind fun _ => Within.pure _

/-- `enter` returns the output of the request. -/
theorem enter_output {state : State} {entered : World}
    (h : run (enter platform scratch env request) world = (.ok (output, state), entered)) :
    requestedOutput platform request.arguments = .ok output := by
  obtain ⟨_, _, houtput, h⟩ := run_bind_eq_ok.mp h
  obtain ⟨_, _, _, h⟩ := run_bind_eq_ok.mp h
  obtain ⟨_, _, _, h⟩ := run_bind_eq_ok.mp h
  rw [run_ofExcept] at houtput
  cases h
  exact congrArg Prod.fst houtput

/-- What a call records once the state of its output is there. -/
theorem call_keys_of_enter {state : State} {entered : World}
    (h : run (enter platform scratch env request) world = (.ok (output, state), entered)) :
    ((call platform scratch world env request).2.keys = world.keys ∧
        ∀ forwarded, request.withArguments (forwardedArguments request.arguments state.root) ≠
          .ok forwarded) ∨
      (call platform scratch world env request).2.keys =
        world.keys ++ [keyOf platform request output state.root] := by
  have hentered : entered.keys = world.keys := enter_sameHistory.of_run h
  rw [call, handle_eq, run_bind_of_ok h, ← hentered]
  exact run_attempt_keys entered

theorem call_keys (env : Environment) (request : WorkRequest) (world : World) :
    (call platform scratch world env request).2.keys = world.keys ∨
      ∃ output root, requestedOutput platform request.arguments = .ok output ∧
        (call platform scratch world env request).2.keys =
          world.keys ++ [keyOf platform request output root] := by
  cases hrun : run (enter platform scratch env request) world with
  | mk outcome entered =>
      cases outcome with
      | error thrown =>
          rw [call, handle_eq, run_bind_of_error hrun]
          exact Or.inl (enter_sameHistory.of_run hrun)
      | ok result =>
          obtain ⟨output, state⟩ := result
          exact (call_keys_of_enter hrun).imp And.left fun hmore =>
            ⟨output, state.root, enter_output hrun, hmore⟩

/-! ## Runs -/

/-- A worker that has served these requests, one after the other, and lives on. -/
inductive Served (platform : Platform) (scratch : Path) : List WorkRequest → World → Prop
  | start {world : World} (h : Initial scratch world) : Served platform scratch [] world
  | next {requests : List WorkRequest} {world : World} (h : Served platform scratch requests world)
      (env : Environment) (request : WorkRequest)
      (hgoes : GoesOn (call platform scratch world env request).1) :
      Served platform scratch (requests ++ [request]) (call platform scratch world env request).2

theorem Served.reachable (h : Served platform scratch requests world) :
    Reachable (Initial scratch) (Step platform scratch) world := by
  induction h with
  | start h => exact Reachable.start h
  | next _ env request hgoes ih => exact Reachable.next ih ⟨env, request, rfl, hgoes⟩

/-- The compilations of a run are of some of its requests, in their order. -/
theorem Served.forwarded (h : Served platform scratch requests world) :
    ∃ forwarded, forwarded.Sublist requests ∧
      List.Forall₂ (fun compilation request => compilation.Of platform request) world.history
        forwarded := by
  have hkeys : ∃ forwarded, forwarded.Sublist requests ∧
      List.Forall₂ (fun key request => requestedOutput platform request.arguments = .ok key.1 ∧
        key.2.1 = signature platform request) world.keys forwarded := by
    induction h with
    | start h =>
        obtain ⟨disk, _, rfl⟩ := h
        exact ⟨[], List.Sublist.refl _, List.Forall₂.nil⟩
    | @next requests world _ env request _ ih =>
        obtain ⟨forwarded, hsublist, hof⟩ := ih
        -- a call that is not recorded leaves its request out
        rcases call_keys env request world with hsame | ⟨output, root, houtput, hmore⟩
        · refine ⟨forwarded, hsublist.trans (List.sublist_append_left _ _), ?_⟩
          rw [hsame]
          exact hof
        · refine ⟨forwarded ++ [request], hsublist.append (List.Sublist.refl _), ?_⟩
          rw [hmore]
          exact List.rel_append hof (List.Forall₂.cons ⟨houtput, rfl⟩ List.Forall₂.nil)
  obtain ⟨forwarded, hsublist, hof⟩ := hkeys
  refine ⟨forwarded, hsublist, ?_⟩
  rw [World.keys, List.forall₂_map_left_iff] at hof
  exact hof

end RulesElide.IncrementalWorker
