import RulesElide.Rules.CompileCommon

/-!
# Actions with their files

What `ctx.actions` registers for a target: command lines whose arguments know the files they
name, and with each command line the inputs, tools and outputs that Bazel is told about.  An
action is hermetic when its command line names no other files.  What `java_common` registers is
known as far as the rules rely on it.
-/

namespace RulesElide.CompileCommon

/-! ## Command lines -/

/-- What is added to `ctx.actions.args()`. -/
inductive Arg
  | text (value : String)
  /-- An option of the user, which is passed on unseen. -/
  | option (value : String)
  /-- The path of a file, with what stands in front of it and behind it. -/
  | file (front path back : String)
  /-- `add_joined`: nothing without files. -/
  | joined (flag : List String) (front separator : String) (paths : List String)

namespace Arg

/-- The arguments on the command line. -/
def strings : Arg → List String
  | text value => [value]
  | option value => [value]
  | file front path back => [front ++ path ++ back]
  | joined flag front separator paths =>
      if paths = [] then [] else flag ++ [front ++ separator.intercalate paths]

/-- The files that the rules name; those in the options of the user are not known. -/
def paths : Arg → List String
  | text _ => []
  | option _ => []
  | file _ path _ => [path]
  | joined _ _ _ paths => paths

/-- `args.add(file)`. -/
def path (path : String) : Arg := Arg.file "" path ""

/-- `args.add_all(files)`. -/
def all (paths : List String) : List Arg := paths.map Arg.path

/-- `args.add_all(options)`. -/
def options (values : List String) : List Arg := values.map .option

@[simp] theorem paths_text (value : String) : (text value).paths = [] := rfl

@[simp] theorem strings_text (value : String) : (text value).strings = [value] := rfl

@[simp] theorem paths_option (value : String) : (option value).paths = [] := rfl

@[simp] theorem strings_option (value : String) : (option value).strings = [value] := rfl

@[simp] theorem paths_file (front path back : String) : (file front path back).paths = [path] := rfl

@[simp] theorem strings_file (front path back : String) :
    (file front path back).strings = [front ++ path ++ back] := rfl

@[simp] theorem paths_joined (flag : List String) (front separator : String) (paths : List String) :
    (joined flag front separator paths).paths = paths := rfl

@[simp] theorem strings_joined (flag : List String) (front separator : String)
    (paths : List String) :
    (joined flag front separator paths).strings =
      if paths = [] then [] else flag ++ [front ++ separator.intercalate paths] := rfl

@[simp] theorem paths_path (file : String) : (path file).paths = [file] := rfl

@[simp] theorem strings_path (file : String) : (path file).strings = [file] := by
  simp [path]

@[simp] theorem flatMap_paths_all (files : List String) : (all files).flatMap paths = files := by
  simp [all, List.flatMap_map]

@[simp] theorem flatMap_strings_all (files : List String) :
    (all files).flatMap strings = files := by
  simp [all, List.flatMap_map]

@[simp] theorem flatMap_paths_options (values : List String) :
    (options values).flatMap paths = [] := by
  simp [options, List.flatMap_map]

@[simp] theorem flatMap_strings_options (values : List String) :
    (options values).flatMap strings = values := by
  simp [options, List.flatMap_map]

end Arg

/-! ## Registered actions -/

/-- What an action is registered with; files are given by their paths. -/
structure Registered where
  mnemonic : String
  executable : String
  lead : List Arg := []
  toolArgs : List Arg := []
  inputs : List String
  tools : List String := []
  outputs : List File
  unusedInputsList : Option File := none
  useParamFile : Bool := false
  executionRequirements : List (String × String) := []
  env : List (String × String) := []

namespace Registered

/-- The files that the rules put on the command line. -/
def named (action : Registered) : List String :=
  (action.lead ++ action.toolArgs).flatMap Arg.paths

/-- Bazel knows every file that the rules put on the command line. -/
def Hermetic (action : Registered) : Prop :=
  action.named ⊆ action.inputs ++ action.tools ++ action.outputs.map File.path

/-- The action reads the given files only. -/
def Reads (files : List String) (action : Registered) : Prop :=
  action.inputs ++ action.tools ⊆ files

/-- An action that runs Elide, without its files. -/
def elide (action : Registered) : Action where
  mnemonic := action.mnemonic
  lead := action.lead.flatMap Arg.strings
  toolArgs := action.toolArgs.flatMap Arg.strings
  outputs := action.outputs
  unusedInputsList := action.unusedInputsList
  useParamFile := action.useParamFile

end Registered

/-! ## Toolchains -/

/-- The attributes of `elide_toolchain`. -/
structure ElideToolchain where
  binary : File
  compileToolFiles : List String
  jextractToolFiles : List String := []
  kotlinStdlib : List String := []
  pythonToolFiles : List String := []
  toolFiles : List String := []
  version : String := ""

/-- `ElideToolchainInfo`. -/
structure ElideToolchainInfo where
  binary : File
  compileToolFiles : List String
  jextractToolFiles : List String
  kotlinStdlibJars : List String
  version : String
  toolFiles : List String
  pythonToolFiles : List String

/-- `_elide_toolchain_impl`. -/
def elideToolchainImpl (attrs : ElideToolchain) : ElideToolchainInfo :=
  let compileToolFiles := distinct (attrs.binary.path :: attrs.compileToolFiles)
  { binary := attrs.binary
    compileToolFiles
    jextractToolFiles := distinct (attrs.jextractToolFiles ++ compileToolFiles)
    kotlinStdlibJars := distinct attrs.kotlinStdlib
    version := attrs.version
    toolFiles := distinct (attrs.binary.path :: attrs.toolFiles)
    pythonToolFiles := distinct (attrs.binary.path :: attrs.pythonToolFiles) }

variable {attrs : ElideToolchain}

theorem binary_mem_compileToolFiles :
    attrs.binary.path ∈ (elideToolchainImpl attrs).compileToolFiles := by
  simp [elideToolchainImpl]

theorem binary_mem_toolFiles : attrs.binary.path ∈ (elideToolchainImpl attrs).toolFiles := by
  simp [elideToolchainImpl]

/-! ## `java_common` -/

/-- `JavaInfo(output_jar = jar, compile_jar = jar)`. -/
def jarInfo (jar : String) : Dependency where
  compileJars := [jar]
  runtimeJars := [jar]

/-- What `java_common.compile` is given. -/
structure JavaCompile where
  sources : List File
  output : File
  deps : List Dependency
  javacOpts : List String

/-- The actions make an output of some inputs: they write it, with files of their own besides, and
each of them reads the inputs, the tools and what those before it write. -/
structure Makes (toolFiles inputs : List String) (output : File) (byproducts : List File)
    (actions : List Registered) : Prop where
  outputs : (actions.flatMap Registered.outputs).Perm (output :: byproducts)
  reads : ∀ before action after, actions = before ++ action :: after →
    action.Reads (inputs ++ toolFiles ++ (before.flatMap Registered.outputs).map File.path)
  writes : ∀ action ∈ actions, action.outputs ≠ []

theorem Makes.singleton {toolFiles inputs : List String} {output : File} {byproducts : List File}
    {action : Registered} (houtputs : action.outputs = output :: byproducts)
    (hreads : action.Reads (inputs ++ toolFiles)) :
    Makes toolFiles inputs output byproducts [action] where
  outputs := by rw [List.flatMap_singleton, houtputs]
  reads before other after h := by
    obtain ⟨rfl, rfl, rfl⟩ : before = [] ∧ other = action ∧ after = [] := by
      cases before with
      | nil => simpa [eq_comm] using h
      | cons first rest => simp at h
    simpa using hreads
  writes other hother := by
    rw [List.mem_singleton.mp hother, houtputs]
    exact List.cons_ne_nil _ _

/-- What `java_common` does, as far as the rules rely on it. -/
structure JavaCommon where
  /-- Of `merge(infos)`: the jars of all of them. -/
  transitiveCompileTimeJars : List Dependency → List String
  transitiveRuntimeJars : List Dependency → List String
  /-- What its actions read besides: the JDK, the tools, the processors of the dependencies. -/
  toolFiles : List String := []
  compile : JavaCompile → List Registered
  /-- What `compile` writes besides the jar. -/
  byproducts : JavaCompile → List File
  /-- `pack_sources`. -/
  packSources : (sources : List File) → (output : File) → List Registered
  runIjar : (jar : File) → List Registered
  /-- The interface jar that `run_ijar` declares for a jar. -/
  interfaceJar : File → File
  compileTimeJars_append : ∀ infos infos', transitiveCompileTimeJars (infos ++ infos') ⊆
    transitiveCompileTimeJars infos ++ transitiveCompileTimeJars infos'
  compileTimeJars_jars : ∀ jars, transitiveCompileTimeJars (jars.map jarInfo) ⊆ jars
  runtimeJars_subset : ∀ infos, ∀ info ∈ infos, info.runtimeJars ⊆ transitiveRuntimeJars infos
  compile_makes : ∀ call, Makes toolFiles
    (call.sources.map File.path ++ transitiveCompileTimeJars call.deps) call.output
    (byproducts call) (compile call)
  packSources_makes : ∀ sources output, Makes toolFiles (sources.map File.path) output []
    (packSources sources output)
  runIjar_makes : ∀ jar, Makes toolFiles [jar.path] (interfaceJar jar) [] (runIjar jar)
  /-- `paths.replace_extension(jar.basename, "-ijar.jar")`, beside the jar. -/
  interfaceJar_eq : ∀ dirname stem,
    interfaceJar ⟨dirname, stem ++ ".jar"⟩ = ⟨dirname, stem ++ "-ijar.jar"⟩

/-- `compile_classpath`. -/
def compileClasspath (java : JavaCommon) (deps : List Dependency) : List String :=
  if deps = [] then [] else java.transitiveCompileTimeJars deps

/-- `runtime_classpath`. -/
def runtimeClasspath (java : JavaCommon) (deps runtimeDeps : List Dependency) : List String :=
  if deps ++ runtimeDeps = [] then [] else java.transitiveRuntimeJars (deps ++ runtimeDeps)

/-- `_plugin_classpath`. -/
def pluginClasspath (java : JavaCommon) (plugins : List Dependency) : List String :=
  if plugins = [] then [] else java.transitiveRuntimeJars plugins

/-! ## Targets -/

/-- `ctx` of a Java or Kotlin rule. -/
structure Context extends Target where
  java : JavaCommon
  toolchain : ElideToolchain
  runtimeDeps : List Dependency := []
  exports : List Dependency := []
  neverlink : Bool := false
  resourceStripPrefix : String := ""
  /-- `file.short_path`. -/
  shortPath : File → String
  javaAbiCompileAvoidance : Bool := false
  javaAbiFromCompile : Bool := false
  icWorker : String := "ic_worker"
  singleJar : String := "singlejar"
  windows : Bool := false
  classpath_eq : classpath = compileClasspath java deps
  pluginClasspath_eq : pluginClasspath = CompileCommon.pluginClasspath java plugins
  elideBinary_eq : elideBinary = toolchain.binary.path
  kotlinStdlibJars_eq : kotlinStdlibJars = (elideToolchainImpl toolchain).kotlinStdlibJars

/-- The interface jar of a jar, by its name. -/
def sampleInterfaceJar (jar : File) : File :=
  jar.sibling (String.ofList (jar.basename.toList.take (jar.basename.length - 4)) ++ "-ijar.jar")

/-- Providers that are merged in order, and one action for each call. -/
def sampleJavaCommon : JavaCommon where
  transitiveCompileTimeJars infos := distinct (infos.flatMap Dependency.compileJars)
  transitiveRuntimeJars infos := distinct (infos.flatMap Dependency.runtimeJars)
  compile call := [{
    mnemonic := "Javac"
    executable := "java"
    inputs := call.sources.map File.path ++ distinct (call.deps.flatMap Dependency.compileJars)
    outputs := [call.output] }]
  byproducts _ := []
  packSources sources output := [{
    mnemonic := "JavaSourceJar"
    executable := "singlejar"
    inputs := sources.map File.path
    outputs := [output] }]
  runIjar jar := [{
    mnemonic := "JavaIjar"
    executable := "ijar"
    toolArgs := [Arg.path jar.path]
    inputs := [jar.path]
    outputs := [sampleInterfaceJar jar] }]
  interfaceJar := sampleInterfaceJar
  compileTimeJars_append infos infos' jar hjar := by
    rw [List.mem_append, mem_distinct, mem_distinct, ← List.mem_append, ← List.flatMap_append]
    exact mem_distinct.mp hjar
  compileTimeJars_jars jars jar hjar := by
    simpa [jarInfo, List.flatMap_map] using mem_distinct.mp hjar
  runtimeJars_subset infos info hinfo jar hjar := by
    rw [mem_distinct]
    exact List.mem_flatMap.mpr ⟨info, hinfo, hjar⟩
  compile_makes _ := Makes.singleton rfl (by simp [Registered.Reads])
  packSources_makes _ _ := Makes.singleton rfl (by simp [Registered.Reads])
  runIjar_makes _ := Makes.singleton rfl (by simp [Registered.Reads])
  interfaceJar_eq dirname stem := by
    have hlength : (stem ++ ".jar").length - 4 = stem.toList.length := by
      rw [String.length_append, String.length_toList]
      exact Nat.add_sub_cancel stem.length 4
    rw [sampleInterfaceJar, File.sibling, hlength, String.toList_append, List.take_left,
      String.ofList_toList]

/-- A Kotlin target with one source that depends on one jar. -/
def sampleContext (settings : Settings) : Context where
  label := "//app:lib"
  name := "lib"
  dirname := "bazel-out/bin/app"
  srcs := [⟨"app", "A.kt"⟩]
  deps := [{ compileJars := ["base.jar"], runtimeJars := ["base.jar"] }]
  settings
  classpath := ["base.jar"]
  elideBinary := "tools/elide"
  java := sampleJavaCommon
  toolchain := { binary := ⟨"tools", "elide"⟩, compileToolFiles := [] }
  shortPath := File.path
  classpath_eq := by decide +kernel
  pluginClasspath_eq := by decide +kernel
  elideBinary_eq := by decide +kernel
  kotlinStdlibJars_eq := by decide +kernel

namespace Context

variable (ctx : Context)

/-- `elide.compile_tool_files`. -/
def compileToolFiles : List String :=
  (elideToolchainImpl ctx.toolchain).compileToolFiles

theorem elideBinary_mem : ctx.elideBinary ∈ ctx.compileToolFiles := by
  rw [ctx.elideBinary_eq]
  exact binary_mem_compileToolFiles

/-- The jars of the plugins are on the class path of the plugins. -/
theorem runtimeJars_mem {plugin : Dependency} (hplugin : plugin ∈ ctx.plugins) {jar : String}
    (hjar : jar ∈ plugin.runtimeJars) : jar ∈ ctx.pluginClasspath := by
  rw [ctx.pluginClasspath_eq, CompileCommon.pluginClasspath, if_neg (List.ne_nil_of_mem hplugin)]
  exact ctx.java.runtimeJars_subset _ plugin hplugin hjar

/-- The options that ask for the reports. -/
def reportArgs (metadata : Metadata) : List Arg :=
  (match metadata.jdeps with
    | some jdeps =>
        [Arg.text "--jdeps", Arg.path jdeps.path, Arg.text ("--target-label=" ++ ctx.label)]
    | none => []) ++
  match metadata.unused with
  | some unused => [Arg.text "--unused-inputs", Arg.path unused.path]
  | none => []

/-- `_tool_args`. -/
def toolArgs (output : File) : List Arg :=
  ctx.reportArgs (metadata ctx.toTarget output)

/-- `_WORKER_EXEC_REQUIREMENTS`, and what an incremental action has in its place. -/
def executionRequirements (incremental : Bool) : List (String × String) :=
  if incremental then [("requires-worker-protocol", "proto"), ("supports-workers", "1")]
  else [("requires-worker-protocol", "proto"), ("supports-multiplex-workers", "1"),
    ("supports-workers", "1")]

/-- `_run_elide_compile`, whose first output is `output`. -/
def runElideCompile (mnemonic subcommand : String) (toolArgs : List Arg) (inputs : List String)
    (output : File) (others : List File) (incremental : Bool) : Registered :=
  let metadata := metadata ctx.toTarget output
  let useWorkers := ctx.settings.useWorkers
  { mnemonic, toolArgs, inputs
    executable := if incremental then ctx.icWorker else ctx.elideBinary
    lead := if incremental then [Arg.file "--elide=" ctx.elideBinary ""] else [Arg.text subcommand]
    -- compiler changes must restart the adapter's resident subprocess
    tools := if incremental then ctx.compileToolFiles else []
    outputs := output :: others ++ metadata.files
    unusedInputsList := metadata.unused
    useParamFile := useWorkers
    executionRequirements := if useWorkers then executionRequirements incremental else []
    env := [("ELIDE_BAZEL", "1")] }

/-- A string as `%r` shows it. -/
def quoted (value : String) : String :=
  "\"" ++ String.ofList (value.toList.flatMap fun character =>
    if character = '\\' ∨ character = '"' then ['\\', character]
    else if character = '\n' then ['\\', 'n']
    else if character = '\r' then ['\\', 'r']
    else if character = '\t' then ['\\', 't']
    else [character]) ++ "\""

/-- `_resource_jar_path`. -/
def resourceJarPath (file : File) : Except String String :=
  let path := ctx.shortPath file
  if ctx.resourceStripPrefix = "" then .ok path
  else
    let strip := if endsWith ctx.resourceStripPrefix "/" then ctx.resourceStripPrefix
      else ctx.resourceStripPrefix ++ "/"
    if startsWith path strip then .ok (removePrefix path strip)
    else .error ("resource " ++ path ++ " is not under resource_strip_prefix " ++
      quoted ctx.resourceStripPrefix)

/-- The argument for a resource. -/
def resourceArg (file : File) : Except String Arg := do
  let entry ← ctx.resourceJarPath file
  .ok (Arg.file "" file.path (":" ++ entry))

/-- `_merge_resources`. -/
def mergeResources (classJars : List File) (outputJar : File) : Except String Registered := do
  let resources ← ctx.resources.mapM ctx.resourceArg
  let sources := (classJars ++ ctx.resourceJars).map File.path
  .ok {
    mnemonic := "ElideResourceJar"
    executable := ctx.singleJar
    toolArgs := [Arg.text "--output", Arg.path outputJar.path, Arg.text "--normalize",
        Arg.text "--exclude_build_data"] ++
      (if sources = [] then [] else Arg.text "--sources" :: Arg.all sources) ++
      (if ctx.resources = [] then [] else Arg.text "--resources" :: resources)
    inputs := (classJars ++ ctx.resources ++ ctx.resourceJars).map File.path
    outputs := [outputJar] }

/-- `pack_source_jar`. -/
def packSourceJar : List Registered :=
  ctx.java.packSources ctx.srcs (ctx.declareFile (ctx.name ++ "-sources.jar"))

end Context

/-- What `run_javac` and `run_kotlinc` register and return. -/
structure Compilation where
  actions : List Registered
  abiJar : Option File
  reports : List File

/-! ## Hermetic actions -/

namespace Registered

variable {action : Registered}

/-- Files on the command line that are inputs or outputs, tools aside. -/
theorem Hermetic.of_subset (h : action.named ⊆ action.inputs ++ action.outputs.map File.path) :
    action.Hermetic := by
  intro path hpath
  rcases List.mem_append.mp (h hpath) with hinput | houtput
  · exact List.mem_append_left _ (List.mem_append_left _ hinput)
  · exact List.mem_append_right _ houtput

end Registered

variable {ctx : Context} {output : File}

/-- The report files on the command line are outputs of the action. -/
theorem paths_toolArgs :
    (ctx.toolArgs output).flatMap Arg.paths =
      (metadata ctx.toTarget output).files.map File.path := by
  have hfiles :
    (metadata ctx.toTarget output).files = (metadata ctx.toTarget output).jdeps.toList ++
      (metadata ctx.toTarget output).unused.toList := rfl
  rw [hfiles, Context.toolArgs]
  rcases metadata ctx.toTarget output with ⟨jdeps, unused, files⟩
  cases jdeps <;> cases unused <;> simp [Context.reportArgs]

/-- An action that runs Elide is hermetic when what follows the reports on its command line are
inputs or its outputs. -/
theorem hermetic_runElideCompile {mnemonic subcommand : String} {rest : List Arg}
    {inputs : List String} {others : List File} {incremental : Bool}
    (hrest : rest.flatMap Arg.paths ⊆ inputs ++ (output :: others).map File.path) :
    (ctx.runElideCompile mnemonic subcommand (ctx.toolArgs output ++ rest) inputs output others
      incremental).Hermetic := by
  intro path hpath
  simp only [Registered.named, Context.runElideCompile, List.flatMap_append,
    List.mem_append] at hpath
  simp only [Context.runElideCompile, List.map_append, List.mem_append]
  rcases hpath with hlead | hmetadata | hpath
  · -- the lead names Elide, which is a tool of the incremental worker
    cases incremental
    · simp at hlead
    · obtain rfl : path = ctx.elideBinary := by simpa using hlead
      exact .inl (.inr ctx.elideBinary_mem)
  · exact .inr (.inr (paths_toolArgs ▸ hmetadata))
  · rcases List.mem_append.mp (hrest hpath) with hinput | houtput
    · exact .inl (.inl hinput)
    · exact .inr (.inl houtput)

/-- The options of the action report to the files that the action declares. -/
theorem strings_toolArgs :
    (ctx.toolArgs output).flatMap Arg.strings = toolArgs ctx.toTarget output := by
  unfold Context.toolArgs toolArgs
  dsimp only
  rcases metadata ctx.toTarget output with ⟨jdeps, unused, files⟩
  cases jdeps <;> cases unused <;> simp [Context.reportArgs]

/-- Without its files, an action that runs Elide is what it was without files. -/
theorem elide_runElideCompile {mnemonic subcommand : String} {rest : List Arg}
    {inputs : List String} {others : List File} {incremental : Bool} :
    (ctx.runElideCompile mnemonic subcommand rest inputs output others incremental).elide =
      runElideCompile ctx.toTarget mnemonic subcommand (rest.flatMap Arg.strings) (output :: others)
        output incremental := by
  cases incremental <;>
    simp [Context.runElideCompile, runElideCompile, Registered.elide]

/-- An option with files names these files at most. -/
theorem flatMap_paths_option_subset {missing : Prop} [Decidable missing] {flag : String}
    {args : List Arg} :
    (if missing then [] else Arg.text flag :: args).flatMap Arg.paths ⊆ args.flatMap Arg.paths := by
  split <;> simp

theorem flatMap_paths_of_mapM {files : List File} {args : List Arg}
    (h : files.mapM ctx.resourceArg = .ok args) : args.flatMap Arg.paths = files.map File.path := by
  induction files generalizing args with
  | nil =>
      cases h
      rfl
  | cons file files ih =>
      rw [List.mapM_cons] at h
      unfold Context.resourceArg at h
      cases hentry : ctx.resourceJarPath file with
      | error failure =>
          rw [hentry] at h
          cases h
      | ok entry =>
          rw [hentry] at h
          cases hrest : files.mapM ctx.resourceArg with
          | error failure =>
              unfold Context.resourceArg at hrest
              rw [hrest] at h
              cases h
          | ok rest =>
              have hpaths := ih hrest
              unfold Context.resourceArg at hrest
              rw [hrest] at h
              cases h
              simp [hpaths]

/-- What an action says that merges the jars of a target. -/
structure Merges (ctx : Context) (classJars : List File) (outputJar : File) (action : Registered) :
    Prop where
  hermetic : action.Hermetic
  inputs : action.inputs = (classJars ++ ctx.resources ++ ctx.resourceJars).map File.path
  tools : action.tools = []
  outputs : action.outputs = [outputJar]

theorem mergeResources_spec {classJars : List File} {outputJar : File} {action : Registered}
    (h : ctx.mergeResources classJars outputJar = .ok action) :
    Merges ctx classJars outputJar action := by
  unfold Context.mergeResources at h
  cases hresources : ctx.resources.mapM ctx.resourceArg with
  | error failure =>
      rw [hresources] at h
      cases h
  | ok resources =>
      rw [hresources] at h
      cases h
      refine ⟨Registered.Hermetic.of_subset ?_, rfl, rfl, rfl⟩
      intro path hpath
      simp only [Registered.named, List.nil_append, List.flatMap_append, List.mem_append] at hpath
      -- the command names the output, the merged jars and the resources
      rcases hpath with (hoptions | hsources) | hresource
      · obtain rfl : path = outputJar.path := by simpa using hoptions
        simp
      · have hpath := flatMap_paths_option_subset hsources
        rw [Arg.flatMap_paths_all] at hpath
        simp only [List.map_append, List.mem_append] at hpath ⊢
        tauto
      · have hpath := flatMap_paths_option_subset hresource
        rw [flatMap_paths_of_mapM hresources] at hpath
        simp only [List.map_append, List.mem_append]
        tauto

end RulesElide.CompileCommon
