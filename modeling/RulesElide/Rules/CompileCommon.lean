import RulesElide.IncrementalWorker.Signature

/-!
# Kotlin targets

What `compile_common.bzl` makes of a Kotlin target: whether its actions let Bazel prune unused
inputs, whether the ABI jar comes out of the compilation itself, and the actions of
`run_kotlinc`.  Three tests on the options decide how plugins are treated: `_metadata`,
`run_kotlinc`, and `signature` in the incremental worker.  `plugins_classified_alike_iff` says
for which options they agree.
-/

namespace RulesElide.CompileCommon

/-! ## Targets -/

/-- `File`, by its directory and its name. -/
structure File where
  dirname : String
  basename : String
  deriving DecidableEq

namespace File

/-- `file.path`: the directory of a file at the top is empty. -/
def path (file : File) : String :=
  if file.dirname = "" then file.basename else file.dirname ++ "/" ++ file.basename

/-- `file.extension`. -/
def extension (file : File) : String :=
  if '.' ∈ file.basename.toList then substringAfterLast file.basename '.' else ""

/-- `ctx.actions.declare_file(name, sibling = file)`. -/
def sibling (file : File) (name : String) : File :=
  { file with basename := name }

/-- Files of one directory are told apart by their names. -/
theorem path_inj_of_dirname {dirname first second : String} :
    (File.mk dirname first).path = (File.mk dirname second).path ↔ first = second := by
  unfold path
  dsimp only
  split
  · exact Iff.rfl
  · exact String.append_right_inj _

end File

inductive IncrementalMode
  | inherit
  | off
  | on
  deriving DecidableEq

inductive AbiMode
  | inherit
  | off
  | separate
  | combined
  deriving DecidableEq

/-- `depset(…).to_list()`: each element once, in an order that Bazel leaves open. -/
structure DepsetOrder where
  toList : List String → List String
  mem_toList : ∀ {values : List String} {value : String}, value ∈ toList values ↔ value ∈ values
  nodup_toList : ∀ values, (toList values).Nodup

attribute [simp] DepsetOrder.mem_toList

/-- The first of several equal elements stays. -/
def distinct (values : List String) : List String :=
  values.reverse.dedup.reverse

@[simp] theorem mem_distinct {values : List String} {value : String} :
    value ∈ distinct values ↔ value ∈ values := by
  simp [distinct]

theorem nodup_distinct (values : List String) : (distinct values).Nodup :=
  List.nodup_reverse.mpr (List.nodup_dedup _)

def DepsetOrder.first : DepsetOrder := ⟨distinct, mem_distinct, nodup_distinct⟩

/-- The build settings that the Kotlin rules read. -/
structure Settings where
  emitJdeps : Bool := false
  pruneUnusedInputs : Bool := false
  useWorkers : Bool := true
  incremental : Bool := false
  abiCompileAvoidance : Bool := false
  abiFromCompile : Bool := false
  classpathCache : Bool := false

/-- A dependency that provides `JavaInfo`. -/
structure Dependency where
  /-- `compile_jars`, as paths. -/
  compileJars : List String := []
  /-- `transitive_runtime_jars`, as paths. -/
  runtimeJars : List String := []
  /-- `plugins.processor_classes`. -/
  processorClasses : List String := []

/-- `ctx` of a Kotlin rule. -/
structure Target where
  label : String
  name : String
  dirname : String
  srcs : List File
  deps : List Dependency := []
  plugins : List Dependency := []
  associates : List Dependency := []
  kotlincOpts : List String := []
  javacOpts : List String := []
  builtinPlugins : List String := []
  moduleName : String := ""
  incrementalMode : IncrementalMode := .inherit
  abiMode : AbiMode := .inherit
  resources : List File := []
  resourceJars : List File := []
  settings : Settings := {}
  /-- `compile_classpath(ctx.attr.deps)`, as `java_common.merge` orders it. -/
  classpath : List String := []
  /-- `_plugin_classpath(ctx.attr.plugins)`. -/
  pluginClasspath : List String := []
  /-- The jars of the bundled Kotlin standard library. -/
  kotlinStdlibJars : List String := []
  elideBinary : String := "elide"
  hostPathSeparator : String := ":"
  depsetOrder : DepsetOrder := .first

/-- `ctx.actions.declare_file(name)`. -/
def Target.declareFile (target : Target) (name : String) : File :=
  ⟨target.dirname, name⟩

/-! ## The code -/

/-- `_has_exported_processors`. -/
def hasExportedProcessors (deps : List Dependency) : Bool :=
  deps.any fun dep => !dep.processorClasses.isEmpty

/-- `_has_packaged_resources`. -/
def hasPackagedResources (target : Target) : Bool :=
  !target.resources.isEmpty || !target.resourceJars.isEmpty

/-- `_incremental_enabled`. -/
def incrementalEnabled (target : Target) : Bool :=
  if target.incrementalMode = .inherit then target.settings.incremental
  else target.incrementalMode = .on

/-- `any([opt.startswith(prefix) for opt in opts for prefix in prefixes])`. -/
def anyStartsWith (opts prefixes : List String) : Bool :=
  opts.any fun opt => prefixes.any fun text => startsWith opt text

/-- The prefixes that `_metadata` looks for. -/
def opaquePrefixes : List String :=
  ["-processor", "--processor", "-proc:", "-A", "-Xplugin", "-P"]

/-- `opaque`: the compiler may read what is in no class signature. -/
def isOpaque (target : Target) : Bool :=
  !target.plugins.isEmpty || hasExportedProcessors target.deps || !target.builtinPlugins.isEmpty ||
    incrementalEnabled target ||
      anyStartsWith (target.javacOpts ++ target.kotlincOpts) opaquePrefixes

structure Metadata where
  jdeps : Option File
  unused : Option File
  files : List File

/-- `_metadata`. -/
def metadata (target : Target) (output : File) : Metadata :=
  let jdeps :=
    if target.settings.emitJdeps then some (output.sibling (output.basename ++ ".jdeps")) else none
  let unused :=
    if target.settings.pruneUnusedInputs && !isOpaque target then
      some (output.sibling (output.basename ++ ".unused"))
    else none
  ⟨jdeps, unused, jdeps.toList ++ unused.toList⟩

/-- `_tool_args`. -/
def toolArgs (target : Target) (output : File) : List String :=
  let metadata := metadata target output
  (match metadata.jdeps with
    | some jdeps => ["--jdeps", jdeps.path, "--target-label=" ++ target.label]
    | none => []) ++
  match metadata.unused with
  | some unused => ["--unused-inputs", unused.path]
  | none => []

/-- `args.add_joined(flag, values, join_with = separator)`. -/
def addJoined (flag separator : String) (values : List String) : List String :=
  if values = [] then [] else [flag, separator.intercalate values]

/-- `_abi_selection`. -/
def abiSelection (target : Target) (enabled combined : Bool) : Bool × Bool :=
  if target.abiMode = .inherit then (enabled, enabled && combined)
  else (target.abiMode ≠ .off, target.abiMode = .combined)

/-- The sources with an extension. -/
def Target.sources (target : Target) (extension : String) : List File :=
  target.srcs.filter fun file => file.extension = extension

/-- `single_kt_only`. -/
def singleKtOnly (target : Target) : Bool :=
  !(target.sources "kt").isEmpty && (target.sources "java").isEmpty && !hasPackagedResources target

/-- `incremental`. -/
def incremental (target : Target) : Bool :=
  incrementalEnabled target && !(target.sources "kt").isEmpty

/-- `friend_path_strs`. -/
def friendPathStrs (target : Target) : List String :=
  target.associates.flatMap Dependency.compileJars

/-- `_abi_selection(ctx, ctx.attr._abi_compile_avoidance, ctx.attr._abi_from_compile)`. -/
def requestedAbi (target : Target) : Bool × Bool :=
  abiSelection target target.settings.abiCompileAvoidance target.settings.abiFromCompile

/-- `abi_avoidance`. -/
def abiAvoidance (target : Target) : Bool :=
  (requestedAbi target).1 && !(target.sources "kt").isEmpty

/-- `fused_abi`: the compilation emits the ABI jar as well. -/
def fusedAbi (target : Target) : Bool :=
  abiAvoidance target && (requestedAbi target).2 && (singleKtOnly target && !incremental target) &&
    (target.plugins.isEmpty && (friendPathStrs target).isEmpty) &&
    (target.builtinPlugins.isEmpty && !hasExportedProcessors target.deps) &&
    !anyStartsWith target.kotlincOpts ["-Xplugin", "-P"]

/-! ## Actions -/

/-- What `ctx.actions.run` is given, as far as it depends on the target. -/
structure Action where
  mnemonic : String
  lead : List String
  toolArgs : List String
  outputs : List File
  unusedInputsList : Option File
  useParamFile : Bool

/-- `_run_elide_compile`. -/
def runElideCompile (target : Target) (mnemonic subcommand : String) (toolArgs : List String)
    (outputs : List File) (output : File) (incremental : Bool) : Action :=
  let metadata := metadata target output
  { mnemonic, toolArgs
    lead := if incremental then ["--elide=" ++ target.elideBinary] else [subcommand]
    outputs := outputs ++ metadata.files
    unusedInputsList := metadata.unused
    useParamFile := target.settings.useWorkers }

/-- `--plugins=…`, if the target names builtin plugins. -/
def builtinPluginArgs (target : Target) : List String :=
  if target.builtinPlugins = [] then [] else ["--plugins=" ++ ",".intercalate target.builtinPlugins]

/-- The arguments that both Kotlin actions have in common, behind `-d`. -/
def kotlincArgs (target : Target) : List String :=
  let friendPathStrs := friendPathStrs target
  addJoined "-classpath" target.hostPathSeparator
      (target.depsetOrder.toList (target.classpath ++ target.pluginClasspath ++ friendPathStrs)) ++
    (if target.moduleName = "" then [] else ["-module-name", target.moduleName]) ++
    (if friendPathStrs = [] then [] else ["-Xfriend-paths=" ++ ",".intercalate friendPathStrs]) ++
    (target.plugins.flatMap fun plugin => plugin.runtimeJars.map ("-Xplugin=" ++ ·)) ++
    target.kotlincOpts

/-- `abi_jar`. -/
def abiJar (target : Target) : File :=
  target.declareFile (target.name ++ "_abi.jar")

/-- The action `ElideKotlincAbi`. -/
def abiAction (target : Target) : Action :=
  let toolArgs := toolArgs target (abiJar target) ++ builtinPluginArgs target ++
    ["--abi-only", "--", "-d", (abiJar target).path] ++ kotlincArgs target ++
    (target.sources "kt" ++ target.sources "java").map File.path
  runElideCompile target "ElideKotlincAbi" "kotlinc" toolArgs [abiJar target] (abiJar target) false

/-- The action `ElideKotlinc`. -/
def kotlincAction (target : Target) (compileOut : File) : Action :=
  let fused := fusedAbi target
  let toolArgs := toolArgs target compileOut ++ builtinPluginArgs target ++ ["--"] ++
    (if fused then ["--emit-abi", (abiJar target).path] else []) ++ ["-d", compileOut.path] ++
    kotlincArgs target ++ target.javacOpts.map ("-Xjavac-arguments=" ++ ·) ++
    target.srcs.map File.path
  runElideCompile target "ElideKotlinc" "kotlinc" toolArgs
    (if fused then [compileOut, abiJar target] else [compileOut]) compileOut (incremental target)

/-- The action `ElideKotlinJavac` of `_compile_java_aux`. -/
def javacAction (target : Target) (ktJar : Option File) : Action :=
  let javaJar := target.declareFile (target.name ++ "_java_classes.jar")
  let fullCp := target.depsetOrder.toList (ktJar.toList.map File.path ++ target.classpath ++
    target.pluginClasspath ++ target.kotlinStdlibJars)
  let toolArgs := toolArgs target javaJar ++ ["--jar", javaJar.path] ++
    (if target.settings.classpathCache then ["--classpath-cache"] else []) ++ ["--"] ++
    addJoined "-classpath" target.hostPathSeparator fullCp ++ ["-proc:none"] ++
    target.javacOpts ++ (target.sources "java").map File.path
  runElideCompile target "ElideKotlinJavac" "javac" toolArgs [javaJar] javaJar false

/-- The actions of `run_kotlinc` that run Elide. -/
def runKotlinc (target : Target) (outputJar : File) : List Action :=
  let ktJar :=
    if (target.sources "kt").isEmpty then none
    else if singleKtOnly target then some outputJar
    else some (target.declareFile (target.name ++ "_kotlin_classes.jar"))
  (if abiAvoidance target && !fusedAbi target then [abiAction target] else []) ++
    (ktJar.toList.map fun compileOut => kotlincAction target compileOut) ++
    -- with processors in the dependencies, `java_common.compile` compiles the Java sources
    if (target.sources "java").isEmpty || hasExportedProcessors target.deps then []
    else [javacAction target ktJar]

/-! ## Plugins -/

/-- The option loads or configures a compiler plugin, by the test in `signature`. -/
def loadsPlugin (opt : String) : Bool :=
  startsWith opt "-Xplugin" || startsWith opt "-Xcompiler-plugin" || opt == "-P" ||
    startsWith opt "-P=" || opt == "--plugins" || startsWith opt "--plugins="

/-- The option is a plugin to `_metadata` and to `run_kotlinc`. -/
def isRecognized (opt : String) : Bool :=
  startsWith opt "-Xplugin" || startsWith opt "-P"

/-- What `signature` calls conservative: an option of a plugin, or friend paths. -/
theorem conservative_eq (arguments : List String) :
    IncrementalWorker.conservative arguments =
      arguments.any fun arg => loadsPlugin arg || startsWith arg "-Xfriend-paths" := by
  unfold IncrementalWorker.conservative loadsPlugin
  refine congrArg arguments.any (funext fun arg => ?_)
  cases startsWith arg "-Xplugin" <;> cases startsWith arg "-Xcompiler-plugin" <;>
    cases arg == "-P" <;> cases startsWith arg "-P=" <;> cases startsWith arg "-Xfriend-paths" <;>
    simp

/-- Nothing is pruned for the target, and its ABI jar has a compilation of its own. -/
def TreatsAsPlugin (target : Target) : Prop :=
  (∀ output, (metadata target output).unused = none) ∧ fusedAbi target = false

/-- Every target with these options is treated as one with a plugin, if they load one. -/
def ClassifiedAlike (opts : List String) : Prop :=
  ∀ target : Target, target.kotlincOpts = opts → (∃ opt ∈ opts, loadsPlugin opt = true) →
    TreatsAsPlugin target

variable {target : Target} {opts : List String}

theorem anyStartsWith_iff {prefixes : List String} :
    anyStartsWith opts prefixes = true ↔
      ∃ opt ∈ opts, ∃ text ∈ prefixes, startsWith opt text = true := by
  simp only [anyStartsWith, List.any_eq_true]

theorem anyStartsWith_plugin :
    anyStartsWith opts ["-Xplugin", "-P"] = true ↔ ∃ opt ∈ opts, isRecognized opt = true := by
  simp only [anyStartsWith_iff, isRecognized, List.mem_cons, List.not_mem_nil, or_false,
    exists_eq_or_imp, exists_eq_left, Bool.or_eq_true]

/-- What `run_kotlinc` takes for a plugin, `_metadata` does, too. -/
theorem isOpaque_of_recognized (h : ∃ opt ∈ target.kotlincOpts, isRecognized opt = true) :
    isOpaque target = true := by
  obtain ⟨opt, hopt, hrecognized⟩ := anyStartsWith_iff.mp (anyStartsWith_plugin.mpr h)
  obtain ⟨text, htext, hstart⟩ := hrecognized
  have hbegins : text ∈ opaquePrefixes := by
    rcases List.mem_pair.mp htext with rfl | rfl
    · decide
    · decide
  have hany : anyStartsWith (target.javacOpts ++ target.kotlincOpts) opaquePrefixes = true :=
    anyStartsWith_iff.mpr ⟨opt, List.mem_append_right _ hopt, text, hbegins, hstart⟩
  rw [isOpaque, hany, Bool.or_true]

theorem unused_eq_none (h : isOpaque target = true) (output : File) :
    (metadata target output).unused = none := by
  rw [metadata, h, Bool.not_true, Bool.and_false]
  rfl

theorem TreatsAsPlugin.of_recognized (h : ∃ opt ∈ target.kotlincOpts, isRecognized opt = true) :
    TreatsAsPlugin target := by
  refine ⟨unused_eq_none (isOpaque_of_recognized h), ?_⟩
  rw [fusedAbi, anyStartsWith_plugin.mpr h, Bool.not_true, Bool.and_false]

/-- No action of such a target lets Bazel prune an input. -/
theorem TreatsAsPlugin.unusedInputsList (h : TreatsAsPlugin target) {outputJar : File}
    {action : Action} (haction : action ∈ runKotlinc target outputJar) :
    action.unusedInputsList = none := by
  unfold runKotlinc at haction
  rcases List.mem_append.mp haction with hkotlin | hjava
  · rcases List.mem_append.mp hkotlin with habi | hcompile
    · split at habi
      · obtain rfl := List.mem_singleton.mp habi
        exact h.1 _
      · exact absurd habi List.not_mem_nil
    · obtain ⟨compileOut, _, rfl⟩ := List.mem_map.mp hcompile
      exact h.1 _
  · split at hjava
    · exact absurd hjava List.not_mem_nil
    · obtain rfl := List.mem_singleton.mp hjava
      exact h.1 _

/-- Its ABI jar, if it has one, comes from an action of its own. -/
theorem TreatsAsPlugin.abiAction_mem (h : TreatsAsPlugin target) (habi : abiAvoidance target = true)
    (outputJar : File) : abiAction target ∈ runKotlinc target outputJar := by
  have hseparate : (abiAvoidance target && !fusedAbi target) = true := by
    rw [habi, h.2]
    rfl
  rw [runKotlinc, if_pos hseparate]
  exact List.mem_append_left _ (List.mem_append_left _ List.mem_cons_self)

/-- A target of one Kotlin source that asks for everything at once. -/
def eagerTarget (opts : List String) : Target where
  label := "//app:lib"
  name := "lib"
  dirname := "bazel-out/bin/app"
  srcs := [⟨"app", "A.kt"⟩]
  kotlincOpts := opts
  settings := { pruneUnusedInputs := true, abiCompileAvoidance := true, abiFromCompile := true }

theorem fusedAbi_eagerTarget (opts : List String) :
    fusedAbi (eagerTarget opts) = !anyStartsWith opts ["-Xplugin", "-P"] := by
  have hkt : (eagerTarget opts).sources "kt" = [⟨"app", "A.kt"⟩] :=
    List.filter_cons_of_pos (by decide)
  have hjava : (eagerTarget opts).sources "java" = [] := List.filter_cons_of_neg (by decide)
  unfold fusedAbi abiAvoidance singleKtOnly incremental
  rw [hkt, hjava]
  rfl

/-- **Plugins by their options.**  The tests agree on a list of options exactly when no option
is one of a plugin, or some option begins with `-Xplugin` or `-P`. -/
theorem plugins_classified_alike_iff (opts : List String) :
    ClassifiedAlike opts ↔
      (∀ opt ∈ opts, loadsPlugin opt = false) ∨
        ∃ opt ∈ opts, startsWith opt "-Xplugin" = true ∨ startsWith opt "-P" = true := by
  have hrecognized : (∃ opt ∈ opts, startsWith opt "-Xplugin" = true ∨ startsWith opt "-P" = true) ↔
      ∃ opt ∈ opts, isRecognized opt = true := by
    simp only [isRecognized, Bool.or_eq_true]
  rw [hrecognized]
  constructor
  · intro halike
    by_contra hnot
    obtain ⟨hloads, hnone⟩ := not_or.mp hnot
    have hplugin : ∃ opt ∈ opts, loadsPlugin opt = true := by
      simpa using hloads
    -- the ABI action is fused when the options are not recognized
    have hfused := (halike (eagerTarget opts) rfl hplugin).2
    rw [fusedAbi_eagerTarget, Bool.not_eq_false'] at hfused
    exact hnone (anyStartsWith_plugin.mp hfused)
  · rintro (hnone | hrecognized) target rfl hplugin
    · obtain ⟨opt, hopt, hloads⟩ := hplugin
      exact absurd hloads (hnone opt hopt ▸ Bool.false_ne_true)
    · exact TreatsAsPlugin.of_recognized hrecognized

/-- `-Xcompiler-plugin` and `--plugins` are options of a plugin to the incremental worker only. -/
theorem plugins_not_classified_alike : ¬ ∀ opts, ClassifiedAlike opts := by
  intro h
  have halike := h ["-Xcompiler-plugin=metro.jar"] (eagerTarget _) rfl (by decide)
  have hfused : fusedAbi (eagerTarget ["-Xcompiler-plugin=metro.jar"]) = true := by
    rw [fusedAbi_eagerTarget]
    decide
  exact Bool.false_ne_true (halike.2.symm.trans hfused)

end RulesElide.CompileCommon
