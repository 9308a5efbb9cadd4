import RulesElide.KotlinBuilder.Router
import RulesElide.KotlinBuilder.SourceJars

/-!
# One request of the builder

`Main.handle`, with `Jdeps` and `Fallback`.  In legacy mode the compiler is asked to report which
class path entries it used, in a file that `handle` has created before; `stub_written_iff` says
what becomes of the `.jdeps` output.
-/

namespace RulesElide.KotlinBuilder

open Effects FileTree

/-! ## What a request runs on -/

/-- `Config`, as far as `handle` reads it. -/
structure Config where
  elide : String
  fallback : String
  quietPluginRewrite : Bool := false
  nativeTools : Bool := false

/-- What the machine decides while a request is handled. -/
structure System extends Unpacking where
  host : Host := {}
  workingDirectory : Path := []
  /-- What `createTempDirectory` and `createTempFile` make up. -/
  temporaryDirectory : Except Throwable Path
  temporaryFile : Except Throwable Path
  oneShot : OneShot
  /-- What a command that is started does to the files. -/
  effect : Started → Files Bytes → Files Bytes := fun _ files => files
  /-- The feature version of the JDK at `JAVA_HOME`. -/
  jdkFeature : ℕ := 0
  /-- The text of bytes that are no UTF-8. -/
  malformed : Bytes → String := fun _ => ""
  /-- `writeTo` and `parseFrom` of `Deps.Dependencies`. -/
  serialize : Dependencies → Bytes
  parseFrom : Bytes → Except Throwable Dependencies

/-- `File(path)`. -/
def System.absolute (system : System) (path : String) : Path :=
  if startsWith path "/" then Path.names path else system.workingDirectory ++ Path.names path

/-- `exists()`. -/
def pathExists (files : Files Bytes) (path : Path) : Bool :=
  (realpath files path).isOk

/-- The bytes of a file. -/
def readFile (path : Path) : Program Bytes := do
  let machine ← get
  match realpath machine.files path with
  | .error _ => throw (.ioException (path.toString ++ " (No such file or directory)"))
  | .ok real =>
      match machine.files.node real with
      | some (.file bytes) => return bytes
      | _ => throw (.ioException (path.toString ++ " (Is a directory)"))

/-- `createTempDirectory` and `createTempFile`: something new. -/
def createTemp (path : Except Throwable Path) (node : Entry Bytes) : Program Path := do
  let path ← MonadExcept.ofExcept path
  let machine ← get
  match machine.files.walk true maxLinks [] path with
  | .error _ => throw (.ioException path.toString)
  | .ok real =>
      if h : machine.files.Free real then
        if (machine.files.node real).isSome then throw (.ioException path.toString)
        else do
          set (machine.put real node h)
          return path
      else throw (.ioException path.toString)

/-- The files without what is at a path. -/
def deleteAt (files : Files Bytes) (path : Path) : Files Bytes :=
  match path.getLast?, realpath files path.dropLast with
  | some name, .ok above => files.prune (above ++ [name]) (by simp)
  | _, _ => files

/-- Runs processes. -/
def processes {Result : Type} (system : System) (program : Builder Result) : Program Result :=
  ExceptT.mk fun machine =>
    let (outcome, trace) := run program []
    (outcome, { machine with
      started := machine.started ++ trace
      files := trace.foldl (fun files started => system.effect started files) machine.files })

/-- `try { … } finally { … }`, where the second part does not throw. -/
def withCleanup {Result : Type} (cleanup : Machine → Machine) (body : Program Result) :
    Program Result :=
  tryCatch
    (do
      let result ← body
      modify cleanup
      return result)
    fun failure => do
      modify cleanup
      throw failure

/-! ## `Fallback` -/

namespace Fallback

def unsafeSilencer (jdkFeature : ℕ) : List String :=
  if jdkFeature ≥ 23 then
    ["--wrapper_script_flag=--jvm_flag=--sun-misc-unsafe-memory-access=allow"]
  else []

def command (stockBuilder flagfile : String) (jdkFeature : ℕ) : Command :=
  [stockBuilder] ++ unsafeSilencer jdkFeature ++ ["--flagfile=" ++ flagfile]

end Fallback

/-- `Fallback.run`. -/
def runFallback (system : System) (stockBuilder flagfile : String) : Program (JavaInt × String) :=
  processes system
    (execute system.oneShot (Fallback.command stockBuilder flagfile system.jdkFeature))

/-! ## `Jdeps` -/

namespace Jdeps

/-- Writes a message, and records it. -/
def writeMessage (system : System) (path : String) (deps : Dependencies) : Program Unit := do
  writeFile system.denied (system.absolute path) (system.serialize deps)
  modify fun machine => { machine with reports := machine.reports ++ [(path, deps)] }

/-- The entries a report lists. -/
def usedEntries (system : System) (report : Bytes) : List String :=
  let text := (String.fromUTF8? ⟨report.toArray⟩).getD (system.malformed report)
  ((lines text).map trim).filter (· ≠ "")

def kindOf (used direct : List String) (entry : String) : Kind :=
  if entry ∉ used then .unused else if entry ∈ direct then .explicit else .implicit

/-- `write`. -/
def write (system : System) (path ruleLabel : String) (classpath directDeps : List String)
    (usedReport : Path) : Program Unit := do
  let used := usedEntries system (← readFile usedReport)
  writeMessage system path
    ⟨ruleLabel, true, classpath.map fun entry => ⟨entry, kindOf used directDeps entry⟩⟩

/-- The stub: no classification. -/
def stub (ruleLabel : String) : Dependencies :=
  ⟨ruleLabel, true, []⟩

/-- `writeStub`. -/
def writeStub (system : System) (path ruleLabel : String) : Program Unit :=
  writeMessage system path (stub ruleLabel)

/-- `check`. -/
def check (system : System) (path : String) (directDeps classpath : List String) (mode : String) :
    Program (JavaInt × String) := do
  if mode.toLower = "off" then return (0, "")
  else do
    let report ← MonadExcept.ofExcept (system.parseFrom (← readFile (system.absolute path)))
    let missing := ((report.dependency.filter fun dependency =>
      dependency.kind = .explicit ∧ dependency.path ∈ classpath ∧ dependency.path ∉ directDeps).map
        Dependency.path).reverse.dedup.reverse
    if missing = [] then return (0, "")
    else
      let error := mode.toLower = "error"
      return (if error then 1 else 0,
        "[" ++ (if error then "error" else "warning") ++
          "] strict Kotlin deps: add direct dependencies for " ++ ", ".intercalate missing ++ "\n")

end Jdeps

/-! ## `Main.handle` -/

/-- `BuiltinPlugins.warning`. -/
def pluginWarning (rewrites : List BuiltinPlugins.Rewrite) : String :=
  if rewrites = [] then ""
  else
    let lines := "\n".intercalate (rewrites.map fun rewrite =>
      "  - " ++ BuiltinPlugins.basename rewrite.jar ++ " -> --plugins=" ++ rewrite.builtin)
    "[warning] elide_kotlin_builder: dropped -Xplugin jar(s) that duplicate an Elide " ++
      "builtin compiler plugin and enabled the version-pinned builtin instead:\n" ++ lines ++
      "\n  (silence: --@rules_elide//config/kotlinc:warn_builtin_plugin_rewrite=false)\n"

/-- The flagfile of a request. -/
def flagfile (rest : List String) : Except Throwable String :=
  match rest.find? (startsWith · "--flagfile=") with
  | some argument => .ok (substringAfter argument '=')
  | none => .error (.noSuchElement "Collection contains no element matching the predicate.")

/-- `Flagfile.readTokens`. -/
def readTokens (system : System) (path : String) : Program (List String) := do
  let text ← MonadExcept.ofExcept (decodeUtf8 (← readFile (system.absolute path)))
  return (lines text).filter (· ≠ "")

def createIf (needed : Bool) (path : Except Throwable Path) (node : Entry Bytes) :
    Program (Option Path) :=
  if needed then some <$> createTemp path node else return none

/-- The temporary directory for the source jars and the temporary file for the report. -/
def prepare (system : System) (cfg : Config) (req : CompileRequest) :
    Program (Option Path × Option Path) := do
  let srcJarDir ← createIf (!req.sourceJars.isEmpty) system.temporaryDirectory .directory
  let usedReport ← createIf (!cfg.nativeTools && req.jdeps.isSome && !req.classpath.isEmpty)
    system.temporaryFile (.file [])
  return (srcJarDir, usedReport)

/-- `srcJarDir?.let { … } ?: emptyList()`. -/
def extraSources (system : System) (req : CompileRequest) : Option Path → Program (List String)
  | some srcJarDir => extractSourceJars system.toUnpacking req.sourceJars srcJarDir
  | none => return []

/-- The commands of the request. -/
def runPlan (system : System) (cfg : Config) (req : CompileRequest) (resident : Option Resident)
    (inputs : List (String × Bytes)) (srcJarDir usedReport : Option Path) :
    Program (JavaInt × String) := do
  let extraSources ← extraSources system req srcJarDir
  let cmds ← MonadExcept.ofExcept (ElideCompile.plan system.host req cfg.elide extraSources
    (usedReport.map Path.toString) cfg.nativeTools)
  processes system (compileCmds system.oneShot resident inputs cmds)

/-- What legacy mode writes as the `.jdeps` output. -/
def writeJdeps (system : System) (req : CompileRequest) (usedReport : Option Path) :
    Option String → Program Unit
  | none => return ()
  | some jdeps => do
      let ruleLabel := req.targetLabel.getD ""
      let machine ← get
      match usedReport.filter (pathExists machine.files) with
      | some usedReport =>
          Jdeps.write system jdeps ruleLabel req.classpath req.directDependencies usedReport
      | none => Jdeps.writeStub system jdeps ruleLabel

/-- What native mode does about the `.jdeps` output of the compiler. -/
def checkJdeps (system : System) (req : CompileRequest) (out : String) :
    Option String → Program (JavaInt × String)
  | none => return (0, out)
  | some jdeps => do
      let (depsCode, diagnostic) ←
        Jdeps.check system jdeps req.directDependencies req.classpath req.strictKotlinDeps
      return (depsCode, out ++ diagnostic)

/-- The rest of the `try`, once the commands have ended. -/
def finish (system : System) (cfg : Config) (req : CompileRequest) (usedReport : Option Path)
    (code : JavaInt) (out : String) : Program (JavaInt × String) :=
  if code ≠ 0 then return (code, out)
  else if cfg.nativeTools then checkJdeps system req out req.jdeps
  else do
    writeJdeps system req usedReport req.jdeps
    return (code, out)

/-- The `finally` of `handle`: nothing temporary is left. -/
def cleanUp (srcJarDir usedReport : Option Path) (machine : Machine) : Machine :=
  { machine with
    files := srcJarDir.toList.foldl deleteAt (usedReport.toList.foldl deleteAt machine.files) }

/-- `handle` for a request that is not routed to the fallback. -/
def handleFast (system : System) (cfg : Config) (req : CompileRequest) (resident : Option Resident)
    (inputs : List (String × Bytes)) : Program (JavaInt × String) := do
  let rewriteWarning :=
    if cfg.quietPluginRewrite then "" else pluginWarning (BuiltinPlugins.detect req)
  let (srcJarDir, usedReport) ← prepare system cfg req
  withCleanup (cleanUp srcJarDir usedReport) do
    let (code, compileOut) ← runPlan system cfg req resident inputs srcJarDir usedReport
    finish system cfg req usedReport code (rewriteWarning ++ compileOut)

/-- `handle`. -/
def handleRequest (system : System) (cfg : Config) (rest : List String) (resident : Option Resident)
    (inputs : List (String × Bytes)) : Program (JavaInt × String) := do
  let ff ← MonadExcept.ofExcept (flagfile rest)
  let req := Flagfile.parse (← readTokens system ff)
  if (Router.route req cfg.nativeTools).route = .fallback then runFallback system cfg.fallback ff
  else handleFast system cfg req resident inputs

/-! ## Reports are written at the end only -/

def SameReports (machine after : Machine) : Prop :=
  after.reports = machine.reports

instance : Std.Refl SameReports := ⟨fun _ => rfl⟩

instance : IsTrans Machine SameReports := ⟨fun _ _ _ h h' => h'.trans h⟩

variable {system : System} {cfg : Config} {req : CompileRequest} {resident : Option Resident}
  {inputs : List (String × Bytes)} {rest : List String} {machine entered middle after : Machine}

theorem mkdirs_within (denied : Path → Bool) (path : Path) :
    Within SameReports (mkdirs denied path) := by
  intro machine
  refine mkdirs_invariant (fun front _ after hafter => ?_) (Std.Refl.refl machine)
  rcases mkdir_cases denied after front with hsame | ⟨_, _, _, _, _, _, hmkdir⟩
  · rwa [hsame]
  · rw [hmkdir]
    exact hafter

theorem writeFile_within (denied : Path → Bool) (path : Path) (bytes : Bytes) :
    Within SameReports (writeFile denied path bytes) := by
  intro machine
  rcases run_writeFile denied path bytes machine with ⟨_, hrun⟩ | ⟨_, _, _, hrun⟩ <;>
    rw [hrun] <;> rfl

theorem extractEntry_within (system : Unpacking) (into directory : Path) (entry : ZipEntry) :
    Within SameReports (extractEntry system into directory entry) := by
  unfold extractEntry
  split
  · exact Within.pure _
  · refine Within.bind Within.get fun machine => Within.bind (Within.ofExcept _) fun dest => ?_
    split
    · exact Within.throw _
    · refine Within.bind (mkdirs_within _ _) fun _ =>
        Within.bind (Within.ofExcept _) fun content => ?_
      refine Within.bind (writeFile_within _ _ _) fun _ => ?_
      split
      · exact Within.throw _
      · exact Within.pure _

theorem extractItems_within (system : Unpacking) (into directory : Path) (extracted : List String)
    (items : List (Except Throwable ZipEntry)) :
    Within SameReports (extractItems system into directory extracted items) := by
  induction items generalizing extracted with
  | nil => exact Within.pure _
  | cons item items ih =>
      refine Within.bind (Within.ofExcept _) fun entry => ?_
      exact Within.bind (extractEntry_within system into directory entry) fun _ => ih _

theorem extractSourceJars_within (system : Unpacking) (sourceJars : List String) (into : Path) :
    Within SameReports (extractSourceJars system sourceJars into) := by
  unfold extractSourceJars
  refine Within.bind Within.get fun machine => Within.bind (Within.ofExcept _) fun directory => ?_
  rw [extractJars_eq]
  exact extractItems_within system into directory [] _

theorem createTemp_within (path : Except Throwable Path) (node : Entry Bytes) :
    Within SameReports (createTemp path node) := by
  unfold createTemp
  refine Within.bind (Within.ofExcept _) fun path => fun machine => ?_
  rw [run_bind_of_ok (run_get machine)]
  split
  · rfl
  · split
    · split
      · rfl
      · rfl
    · rfl

theorem processes_within {Result : Type} (program : Builder Result) :
    Within SameReports (processes system program) :=
  fun _ => rfl

theorem createIf_within (needed : Bool) (path : Except Throwable Path) (node : Entry Bytes) :
    Within SameReports (createIf needed path node) := by
  unfold createIf
  split
  · exact Within.bind (createTemp_within _ _) fun _ => Within.pure _
  · exact Within.pure _

theorem prepare_within : Within SameReports (prepare system cfg req) :=
  Within.bind (createIf_within _ _ _) fun _ => Within.bind (createIf_within _ _ _) fun _ =>
    Within.pure _

theorem runPlan_within (srcJarDir usedReport : Option Path) :
    Within SameReports (runPlan system cfg req resident inputs srcJarDir usedReport) := by
  have hsources : Within SameReports (extraSources system req srcJarDir) := by
    cases srcJarDir with
    | none => exact Within.pure _
    | some srcJarDir => exact extractSourceJars_within _ _ _
  exact Within.bind hsources fun _ => Within.bind (Within.ofExcept _) fun _ => processes_within _

/-! ## The stub -/

theorem run_withCleanup {Result : Type} (cleanup : Machine → Machine) (body : Program Result)
    (machine : Machine) :
    run (withCleanup cleanup body) machine =
      ((run body machine).1, cleanup (run body machine).2) := by
  unfold withCleanup
  match hrun : run body machine with
  | (.ok result, after) =>
      exact run_tryCatch_of_ok (run_bind_of_ok hrun)
  | (.error failure, after) =>
      exact run_tryCatch_of_error (run_bind_of_error hrun)

theorem reports_of_writeMessage {system : System} {path : String} {deps : Dependencies}
    {machine after : Machine}
    (h : run (Jdeps.writeMessage system path deps) machine = (.ok (), after)) :
    after.reports = machine.reports ++ [(path, deps)] := by
  unfold Jdeps.writeMessage at h
  rcases run_writeFile system.denied (system.absolute path) (system.serialize deps) machine with
    ⟨failure, hrun⟩ | ⟨_, _, _, hrun⟩
  · rw [run_bind_of_error hrun] at h
    cases h
  · rw [run_bind_of_ok hrun] at h
    cases h
    rfl

/-- Reading changes nothing. -/
theorem run_readFile (path : Path) (machine : Machine) :
    run (readFile path) machine = ((run (readFile path) machine).1, machine) := by
  unfold readFile
  rw [run_bind_of_ok (run_get machine)]
  split
  · rfl
  · split <;> rfl

theorem run_readTokens (path : String) (machine : Machine) :
    (run (readTokens system path) machine).2 = machine := by
  unfold readTokens
  have hread := run_readFile (system.absolute path) machine
  cases hbytes : (run (readFile (system.absolute path)) machine).1 with
  | error failure =>
      rw [hbytes] at hread
      rw [run_bind_of_error hread]
  | ok bytes =>
      rw [hbytes] at hread
      rw [run_bind_of_ok hread]
      cases decodeUtf8 bytes <;> rfl

theorem pathExists_of_readFile {path : Path} {bytes : Bytes}
    (h : run (readFile path) machine = (.ok bytes, after)) :
    pathExists machine.files path = true := by
  unfold readFile at h
  rw [run_bind_of_ok (run_get machine)] at h
  unfold pathExists
  split at h
  · cases h
  · rename_i hreal
    rw [hreal]
    rfl

/-- An empty report marks everything as unused. -/
theorem kindOf_empty (system : System) (direct : List String) (entry : String) :
    Jdeps.kindOf (Jdeps.usedEntries system []) direct entry = .unused := by
  have hempty : Jdeps.usedEntries system [] = [] := rfl
  rw [Jdeps.kindOf, hempty, if_pos List.not_mem_nil]

/-- A request in legacy mode that is not routed to the fallback and has a `.jdeps` output and a
class path.  In `middle` all commands have exited with code 0. -/
structure LegacyRun (system : System) (cfg : Config) (rest : List String)
    (resident : Option Resident) (inputs : List (String × Bytes)) (machine : Machine)
    (req : CompileRequest) (jdeps : String) (report : Path) (middle : Machine) : Prop where
  legacy : cfg.nativeTools = false
  request : ∃ path tokens, flagfile rest = .ok path ∧
    run (readTokens system path) machine = (.ok tokens, machine) ∧ req = Flagfile.parse tokens
  fast : (Router.route req cfg.nativeTools).route = .fast
  jdeps : req.jdeps = some jdeps
  classpath : req.classpath ≠ []
  commands : ∃ srcJarDir entered out,
    run (prepare system cfg req) machine = (.ok (srcJarDir, some report), entered) ∧
      run (runPlan system cfg req resident inputs srcJarDir (some report)) entered =
        (.ok (0, out), middle)

variable {jdeps : String} {report : Path}

/-- After the commands, a legacy run only writes the `.jdeps` output and cleans up. -/
theorem LegacyRun.outcome
    (h : LegacyRun system cfg rest resident inputs machine req jdeps report middle)
    (hreturns : (run (handleRequest system cfg rest resident inputs) machine).1.isOk = true) :
    ∃ written, run (writeJdeps system req (some report) (some jdeps)) middle = (.ok (), written) ∧
      (run (handleRequest system cfg rest resident inputs) machine).2.reports = written.reports ∧
      middle.reports = machine.reports := by
  obtain ⟨path, tokens, hpath, htokens, rfl⟩ := h.request
  obtain ⟨srcJarDir, entered, out, hprepare, hcommands⟩ := h.commands
  have hroute : (Router.route (Flagfile.parse tokens) cfg.nativeTools).route ≠ .fallback := by
    rw [h.fast]
    decide
  have hhandle : run (handleRequest system cfg rest resident inputs) machine =
      run (handleFast system cfg (Flagfile.parse tokens) resident inputs) machine := by
    unfold handleRequest
    rw [hpath]
    change run (readTokens system path >>= _) machine = _
    rw [run_bind_of_ok htokens, if_neg hroute]
  rw [hhandle] at hreturns ⊢
  unfold handleFast at hreturns ⊢
  rw [run_bind_of_ok hprepare, run_withCleanup, run_bind_of_ok hcommands] at hreturns ⊢
  simp only [finish, ne_eq, not_true_eq_false, if_false, h.legacy, Bool.false_eq_true, h.jdeps]
    at hreturns ⊢
  match hwrite :
    run (writeJdeps system (Flagfile.parse tokens) (some report) (some jdeps)) middle with
  | (.error failure, _) =>
      rw [run_bind_of_error hwrite] at hreturns
      cases hreturns
  | (.ok (), written) =>
      rw [run_bind_of_ok hwrite]
      have hprepared : SameReports machine entered := prepare_within.of_run hprepare
      have hran : SameReports entered middle :=
        (runPlan_within srcJarDir (some report)).of_run hcommands
      exact ⟨written, rfl, rfl, hran.trans hprepared⟩

/-- **The stub is written** exactly when the temporary file for the report, which `handle` has
created itself, is gone after the commands.  If it is still there and empty, every entry of the
class path is marked as unused. -/
theorem stub_written_iff (system : System) (cfg : Config) (rest : List String)
    (resident : Option Resident) (inputs : List (String × Bytes)) (machine middle : Machine)
    (req : CompileRequest) (jdeps : String) (report : Path)
    (hrun : LegacyRun system cfg rest resident inputs machine req jdeps report middle)
    (hreturns : (run (handleRequest system cfg rest resident inputs) machine).1.isOk = true) :
    ((run (handleRequest system cfg rest resident inputs) machine).2.reports =
        machine.reports ++ [(jdeps, Jdeps.stub (req.targetLabel.getD ""))] ↔
      pathExists middle.files report = false) ∧
    (run (readFile report) middle = (.ok [], middle) →
      (run (handleRequest system cfg rest resident inputs) machine).2.reports =
        machine.reports ++ [(jdeps, ⟨req.targetLabel.getD "", true,
          req.classpath.map fun entry => ⟨entry, .unused⟩⟩)]) := by
  obtain ⟨written, hwrite, hreports, hsame⟩ := hrun.outcome hreturns
  rw [hreports, ← hsame]
  unfold writeJdeps at hwrite
  dsimp only at hwrite
  rw [run_bind_of_ok (run_get middle)] at hwrite
  cases hexists : pathExists middle.files report with
  | false =>
      rw [Option.filter_some, hexists, if_neg Bool.false_ne_true] at hwrite
      refine ⟨iff_of_true (reports_of_writeMessage hwrite) rfl, fun hread => ?_⟩
      rw [pathExists_of_readFile hread] at hexists
      cases hexists
  | true =>
      rw [Option.filter_some, hexists, if_pos rfl] at hwrite
      obtain ⟨bytes, _, hread, hmessage⟩ := run_bind_eq_ok.mp hwrite
      obtain rfl := (Prod.mk.inj ((run_readFile report middle).symm.trans hread)).2
      rw [reports_of_writeMessage hmessage]
      refine ⟨iff_of_false (fun hstub => ?_) nofun, fun hempty => ?_⟩
      · -- there is an entry for each entry of the class path
        have hnone := List.append_cancel_left hstub
        simp only [Jdeps.stub, List.cons.injEq, Prod.mk.injEq, Dependencies.mk.injEq,
          List.map_eq_nil_iff, and_true, true_and] at hnone
        exact hrun.classpath hnone
      · obtain rfl : bytes = [] :=
          Except.ok.inj (Prod.mk.inj (hread.symm.trans hempty)).1
        simp only [kindOf_empty]

/-! ## A run with and without a report -/

def sampleTokens : List String :=
  ["--output", "a.jar", "--kotlin_output_jdeps", "out.jdeps", "--sources", "A.kt", "--classpath",
    "lib.jar"]

/-- A flagfile in the root directory. -/
def requestMachine : Machine where
  files := Files.empty.put ["flags"] (.file (getBytes ("\n".intercalate sampleTokens))) (by decide)

/-- All commands succeed and write nothing; they may delete the report. -/
def sampleSystem (deletes : Bool) : System where
  zipFile _ := .ok []
  temporaryDirectory := .ok ["srcjars"]
  temporaryFile := .ok ["used.txt"]
  oneShot _ := .ok (0, "")
  effect _ files := if deletes then deleteAt files ["used.txt"] else files
  serialize _ := []
  parseFrom _ := .error .malformedInput

def sampleConfig : Config := ⟨"elide", "stock", false, false⟩

def sampleMiddle (deletes : Bool) : Machine :=
  let prepared := run (prepare (sampleSystem deletes) sampleConfig (Flagfile.parse sampleTokens))
    requestMachine
  (run (runPlan (sampleSystem deletes) sampleConfig (Flagfile.parse sampleTokens) none [] none
    (some ["used.txt"])) prepared.2).2

theorem sample_legacyRun (deletes : Bool) :
    LegacyRun (sampleSystem deletes) sampleConfig ["--flagfile=flags"] none [] requestMachine
      (Flagfile.parse sampleTokens) "out.jdeps" ["used.txt"] (sampleMiddle deletes) where
  legacy := rfl
  request := by
    have htokens : (run (readTokens (sampleSystem deletes) "flags") requestMachine).1 =
        .ok sampleTokens := by
      cases deletes <;> decide +kernel
    refine ⟨"flags", sampleTokens, by decide +kernel, ?_, rfl⟩
    have hrun := run_eq htokens
    rwa [run_readTokens] at hrun
  fast := by decide +kernel
  jdeps := by decide +kernel
  classpath := by decide +kernel
  commands := by
    refine ⟨none, _, "", run_eq ?_, run_eq ?_⟩
    · cases deletes <;> decide +kernel
    · cases deletes <;> decide +kernel

theorem sample_returns (deletes : Bool) :
    (run (handleRequest (sampleSystem deletes) sampleConfig ["--flagfile=flags"] none [])
      requestMachine).1.isOk = true := by
  cases deletes <;> decide +kernel

theorem stub_written_iff_sample :
    (run (handleRequest (sampleSystem true) sampleConfig ["--flagfile=flags"] none [])
      requestMachine).2.reports = requestMachine.reports ++ [("out.jdeps", Jdeps.stub "")] := by
  have hgone : pathExists (sampleMiddle true).files ["used.txt"] = false := by
    decide +kernel
  exact (stub_written_iff (sampleSystem true) sampleConfig ["--flagfile=flags"] none []
    requestMachine (sampleMiddle true) (Flagfile.parse sampleTokens) "out.jdeps" ["used.txt"]
    (sample_legacyRun true) (sample_returns true)).1.mpr hgone

/-- The compiler leaves the report as it is, and `lib.jar` is marked as unused. -/
theorem missing_report_marks_unused :
    ¬ ∀ (system : System) (cfg : Config) (rest : List String) (resident : Option Resident)
      (inputs : List (String × Bytes)) (machine middle : Machine) (req : CompileRequest)
      (jdeps : String) (report : Path),
      LegacyRun system cfg rest resident inputs machine req jdeps report middle →
      (run (handleRequest system cfg rest resident inputs) machine).1.isOk = true →
      (pathExists middle.files report = true → run (readFile report) middle = (.ok [], middle)) →
      (run (handleRequest system cfg rest resident inputs) machine).2.reports =
        machine.reports ++ [(jdeps, Jdeps.stub (req.targetLabel.getD ""))] := by
  intro h
  have hempty : (run (readFile ["used.txt"]) (sampleMiddle false)).1 = .ok [] := by
    decide +kernel
  have hread := run_eq hempty
  rw [run_readFile] at hread
  have hstub := h (sampleSystem false) sampleConfig ["--flagfile=flags"] none [] requestMachine
    (sampleMiddle false) (Flagfile.parse sampleTokens) "out.jdeps" ["used.txt"]
    (sample_legacyRun false) (sample_returns false) fun _ => hread
  have hreports :
    (run (handleRequest (sampleSystem false) sampleConfig ["--flagfile=flags"] none [])
      requestMachine).2.reports = [("out.jdeps", ⟨"", true, [⟨"lib.jar", .unused⟩]⟩)] := by
    decide +kernel
  rw [hreports] at hstub
  exact absurd hstub (by decide +kernel)

end RulesElide.KotlinBuilder
