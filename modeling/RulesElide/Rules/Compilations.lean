import RulesElide.Rules.Actions

/-!
# Compilations

`run_javac` and `run_kotlinc` with the files of their actions.  Without the files, the actions
that `run_kotlinc` runs Elide with are those of `CompileCommon`.
-/

namespace RulesElide.CompileCommon

namespace Context

variable (ctx : Context)

/-! ## `run_javac` -/

/-- `class_jar`. -/
def classJar (outputJar : File) : File :=
  if hasPackagedResources ctx.toTarget then ctx.declareFile (ctx.name ++ "_classes.jar")
  else outputJar

/-- `processors`. -/
def processors : Bool :=
  !ctx.plugins.isEmpty || hasExportedProcessors ctx.deps

/-- `processor_opts`. -/
def processorOpts : Bool :=
  anyStartsWith ctx.javacOpts ["-processor", "--processor", "-proc:", "-A", "-Xplugin"]

/-- `_abi_selection(ctx, ctx.attr._java_abi_compile_avoidance, ctx.attr._java_abi_from_compile)`. -/
def requestedJavaAbi : Bool × Bool :=
  abiSelection ctx.toTarget ctx.javaAbiCompileAvoidance ctx.javaAbiFromCompile

/-- `abi_avoidance` of `run_javac`. -/
def javaAbiAvoidance : Bool :=
  ctx.requestedJavaAbi.1 && !ctx.srcs.isEmpty && !ctx.processors && !ctx.processorOpts &&
    ctx.resourceJars.isEmpty

/-- `fused_abi` of `run_javac`. -/
def javaFusedAbi : Bool :=
  ctx.javaAbiAvoidance && ctx.requestedJavaAbi.2

/-- The paths of the sources. -/
def srcPaths : List String :=
  ctx.srcs.map File.path

/-- The class path, the options and the sources behind `--`. -/
def javacArgs (classpath : List String) : List Arg :=
  [Arg.joined ["-classpath"] "" ctx.hostPathSeparator (ctx.depsetOrder.toList classpath)] ++
    Arg.options ctx.javacOpts ++ Arg.all ctx.srcPaths

/-- The action `ElideJavac`. -/
def elideJavac (outputJar : File) : Registered :=
  let classJar := ctx.classJar outputJar
  let cache := ctx.settings.classpathCache
  let toolArgs := ctx.toolArgs classJar ++ ([Arg.text "--jar", Arg.path classJar.path] ++
    (if ctx.javaFusedAbi then [Arg.text "--emit-abi", Arg.path (abiJar ctx.toTarget).path]
    else []) ++ (if cache then [Arg.text "--classpath-cache"] else []) ++ [Arg.text "--"] ++
    -- cached file managers require processing to be explicitly disabled
    (if cache && !ctx.processors && !ctx.processorOpts then [Arg.text "-proc:none"] else []) ++
    ctx.javacArgs (ctx.classpath ++ ctx.pluginClasspath))
  ctx.runElideCompile "ElideJavac" "javac" toolArgs
    (ctx.srcPaths ++ (ctx.classpath ++ ctx.pluginClasspath ++ ctx.compileToolFiles)) classJar
    (if ctx.javaFusedAbi then [abiJar ctx.toTarget] else []) false

/-- The action `ElideJavacAbi`. -/
def elideJavacAbi : Registered :=
  let abiJar := abiJar ctx.toTarget
  let toolArgs := ctx.toolArgs abiJar ++ ([Arg.text "--abi-only", Arg.text "--jar",
    Arg.path abiJar.path, Arg.text "--"] ++ ctx.javacArgs ctx.classpath)
  ctx.runElideCompile "ElideJavacAbi" "javac" toolArgs
    (ctx.srcPaths ++ (ctx.classpath ++ ctx.compileToolFiles)) abiJar [] false

/-- The files of the reports on an output. -/
def reportsOn (output : File) : List File :=
  (metadata ctx.toTarget output).files

/-- `run_javac`. -/
def runJavac (outputJar : File) : Except String Compilation := do
  let hasRes := hasPackagedResources ctx.toTarget
  let merge ← if hasRes then
      List.singleton <$> ctx.mergeResources [ctx.classJar outputJar] outputJar
    else .ok []
  let separate := ctx.javaAbiAvoidance && !ctx.javaFusedAbi
  .ok {
    actions := [ctx.elideJavac outputJar] ++ merge ++ (if separate then [ctx.elideJavacAbi] else [])
    abiJar := if ctx.javaAbiAvoidance then some (abiJar ctx.toTarget) else none
    reports := ctx.reportsOn (ctx.classJar outputJar) ++
      (if separate then ctx.reportsOn (abiJar ctx.toTarget) else []) }

/-! ## `run_kotlinc` -/

/-- The class path and the options that both Kotlin actions have. -/
def kotlincArgs : List Arg :=
  [Arg.joined ["-classpath"] "" ctx.hostPathSeparator
      (ctx.depsetOrder.toList
        (ctx.classpath ++ ctx.pluginClasspath ++ friendPathStrs ctx.toTarget))] ++
    Arg.options (if ctx.moduleName = "" then [] else ["-module-name", ctx.moduleName]) ++
    [Arg.joined [] "-Xfriend-paths=" "," (friendPathStrs ctx.toTarget)] ++
    (ctx.plugins.flatMap fun plugin =>
    plugin.runtimeJars.map fun jar => Arg.file "-Xplugin=" jar "") ++ Arg.options ctx.kotlincOpts

/-- The transitive inputs of both Kotlin actions. -/
def kotlincInputs : List String :=
  ctx.classpath ++ ctx.pluginClasspath ++ friendPathStrs ctx.toTarget ++ ctx.compileToolFiles

/-- The sources of the ABI action: the Kotlin ones go first. -/
def abiSources : List String :=
  (ctx.sources "kt" ++ ctx.sources "java").map File.path

/-- The action `ElideKotlincAbi`. -/
def elideKotlincAbi : Registered :=
  let abiJar := abiJar ctx.toTarget
  let toolArgs := ctx.toolArgs abiJar ++ (Arg.options (builtinPluginArgs ctx.toTarget) ++
    [Arg.text "--abi-only", Arg.text "--", Arg.text "-d", Arg.path abiJar.path] ++
    ctx.kotlincArgs ++ Arg.all ctx.abiSources)
  ctx.runElideCompile "ElideKotlincAbi" "kotlinc" toolArgs (ctx.abiSources ++ ctx.kotlincInputs)
    abiJar [] false

/-- The action `ElideKotlinc`. -/
def elideKotlinc (compileOut : File) : Registered :=
  let fused := fusedAbi ctx.toTarget
  let toolArgs := ctx.toolArgs compileOut ++ (Arg.options (builtinPluginArgs ctx.toTarget) ++
    [Arg.text "--"] ++
    (if fused then [Arg.text "--emit-abi", Arg.path (abiJar ctx.toTarget).path] else []) ++
    [Arg.text "-d", Arg.path compileOut.path] ++ ctx.kotlincArgs ++
    Arg.options (ctx.javacOpts.map ("-Xjavac-arguments=" ++ ·)) ++ Arg.all ctx.srcPaths)
  ctx.runElideCompile "ElideKotlinc" "kotlinc" toolArgs (ctx.srcPaths ++ ctx.kotlincInputs)
    compileOut (if fused then [abiJar ctx.toTarget] else []) (incremental ctx.toTarget)

/-- `java_jar`. -/
def javaJar : File :=
  ctx.declareFile (ctx.name ++ "_java_classes.jar")

/-- The paths of the Java sources. -/
def javaSrcPaths : List String :=
  (ctx.sources "java").map File.path

/-- The action `ElideKotlinJavac`. -/
def elideKotlinJavac (ktJar : Option File) : Registered :=
  let ktJars := ktJar.toList.map File.path
  let toolArgs := ctx.toolArgs ctx.javaJar ++ ([Arg.text "--jar", Arg.path ctx.javaJar.path] ++
    (if ctx.settings.classpathCache then [Arg.text "--classpath-cache"] else []) ++
    [Arg.text "--"] ++
    [Arg.joined ["-classpath"] "" ctx.hostPathSeparator
      (ctx.depsetOrder.toList
        (ktJars ++ ctx.classpath ++ ctx.pluginClasspath ++ ctx.kotlinStdlibJars))] ++
    [Arg.text "-proc:none"] ++ Arg.options ctx.javacOpts ++ Arg.all ctx.javaSrcPaths)
  ctx.runElideCompile "ElideKotlinJavac" "javac" toolArgs
    (ctx.javaSrcPaths ++ ktJars ++ (ctx.classpath ++ ctx.pluginClasspath ++ ctx.kotlinStdlibJars ++
      ctx.compileToolFiles)) ctx.javaJar [] false

/-- What `_compile_java_processed` gives `java_common.compile`. -/
def javaCompile (ktJar : Option File) : JavaCompile where
  sources := ctx.sources "java"
  output := ctx.javaJar
  deps := ctx.deps ++ ctx.plugins ++
    (ktJar.toList.map File.path ++ ctx.kotlinStdlibJars).map jarInfo
  javacOpts := ctx.javacOpts

/-- `_compile_java_processed`. -/
def compileJavaProcessed (ktJar : Option File) : List Registered :=
  ctx.java.compile (ctx.javaCompile ktJar)

/-- `_compile_java_aux`: the actions, and the files of their reports. -/
def compileJavaAux (ktJar : Option File) : List Registered × List File :=
  if hasExportedProcessors ctx.deps then (ctx.compileJavaProcessed ktJar, [])
  else ([ctx.elideKotlinJavac ktJar], ctx.reportsOn ctx.javaJar)

/-- `has_kt`. -/
def hasKt : Bool := !(ctx.sources "kt").isEmpty

/-- `has_java`. -/
def hasJava : Bool := !(ctx.sources "java").isEmpty

/-- `kt_jar`. -/
def ktJar (outputJar : File) : Option File :=
  if ctx.hasKt then
    some (if singleKtOnly ctx.toTarget then outputJar
      else ctx.declareFile (ctx.name ++ "_kotlin_classes.jar"))
  else none

/-- The ABI jar is emitted by an action of its own. -/
def separateAbi : Bool :=
  abiAvoidance ctx.toTarget && !fusedAbi ctx.toTarget

/-- The Kotlin actions of `run_kotlinc`. -/
def kotlinActions (outputJar : File) : List Registered :=
  (if ctx.separateAbi then [ctx.elideKotlincAbi] else []) ++
    (ctx.ktJar outputJar).toList.map fun compileOut => ctx.elideKotlinc compileOut

/-- The files of their reports. -/
def kotlinReports (outputJar : File) : List File :=
  (if ctx.separateAbi then ctx.reportsOn (abiJar ctx.toTarget) else []) ++
    (ctx.ktJar outputJar).toList.flatMap fun compileOut => ctx.reportsOn compileOut

/-- `run_kotlinc`. -/
def runKotlinc (outputJar : File) : Except String Compilation := do
  let ktJar := ctx.ktJar outputJar
  let actions := ctx.kotlinActions outputJar
  let reports := ctx.kotlinReports outputJar
  let abiJar := if abiAvoidance ctx.toTarget then some (abiJar ctx.toTarget) else none
  if singleKtOnly ctx.toTarget then .ok { actions, abiJar, reports }
  else if ctx.hasJava then do
    let (javaActions, javaReports) := ctx.compileJavaAux ktJar
    let merge ← ctx.mergeResources (ktJar.toList ++ [ctx.javaJar]) outputJar
    .ok {
      actions := actions ++ javaActions ++ [merge]
      abiJar
      reports := reports ++ javaReports }
  else do
    let merge ← ctx.mergeResources ktJar.toList outputJar
    .ok { actions := actions ++ [merge], abiJar, reports }

end Context

/-! ## Without the files -/

variable {ctx : Context} {outputJar compileOut : File} {ktJar : Option File}

theorem strings_kotlincArgs :
    ctx.kotlincArgs.flatMap Arg.strings = kotlincArgs ctx.toTarget := by
  have hplugins : (ctx.plugins.flatMap fun plugin =>
        plugin.runtimeJars.map fun jar => Arg.file "-Xplugin=" jar "").flatMap Arg.strings =
      ctx.plugins.flatMap fun plugin => plugin.runtimeJars.map ("-Xplugin=" ++ ·) := by
    simp [List.flatMap_assoc, List.map_eq_flatMap]
  unfold Context.kotlincArgs kotlincArgs
  simp only [List.flatMap_append, hplugins]
  simp [addJoined]

/-- Without their files, the actions that run Elide are those of `CompileCommon`. -/
theorem elide_elideKotlincAbi : ctx.elideKotlincAbi.elide = abiAction ctx.toTarget := by
  rw [Context.elideKotlincAbi, elide_runElideCompile, abiAction]
  simp [strings_toolArgs, strings_kotlincArgs, Context.abiSources, List.append_assoc]

theorem elide_elideKotlinc :
    (ctx.elideKotlinc compileOut).elide = kotlincAction ctx.toTarget compileOut := by
  rw [Context.elideKotlinc, elide_runElideCompile, kotlincAction]
  cases fusedAbi ctx.toTarget <;>
    simp [strings_toolArgs, strings_kotlincArgs, Context.srcPaths, List.append_assoc]

theorem elide_elideKotlinJavac :
    (ctx.elideKotlinJavac ktJar).elide = javacAction ctx.toTarget ktJar := by
  rw [Context.elideKotlinJavac, elide_runElideCompile, javacAction]
  cases ctx.settings.classpathCache <;>
    simp [strings_toolArgs, Context.javaSrcPaths, Context.javaJar, addJoined, List.append_assoc]

/-! ## Hermetic actions -/

theorem paths_option {present : Bool} {flag path : String} :
    (if present then [Arg.text flag, Arg.path path] else []).flatMap Arg.paths =
      if present then [path] else [] := by
  cases present <;> rfl

theorem paths_flag {present : Bool} {flag : String} :
    (if present then [Arg.text flag] else []).flatMap Arg.paths = [] := by
  cases present <;> rfl

theorem paths_javacArgs {classpath : List String} :
    (ctx.javacArgs classpath).flatMap Arg.paths =
      ctx.depsetOrder.toList classpath ++ ctx.srcPaths := by
  simp [Context.javacArgs]

theorem mem_kotlincInputs {path : String} (h : path ∈ ctx.kotlincArgs.flatMap Arg.paths) :
    path ∈ ctx.kotlincInputs := by
  have hplugins : path ∈ (ctx.plugins.flatMap fun plugin =>
      plugin.runtimeJars.map fun jar => Arg.file "-Xplugin=" jar "").flatMap Arg.paths →
      path ∈ ctx.pluginClasspath := by
    intro hpath
    simp only [List.mem_flatMap, List.mem_map] at hpath
    obtain ⟨_, ⟨plugin, hplugin, jar, hjar, rfl⟩, hpath⟩ := hpath
    obtain rfl : path = jar := by simpa using hpath
    exact ctx.runtimeJars_mem hplugin hjar
  simp only [Context.kotlincArgs, List.flatMap_append, Arg.flatMap_paths_options, List.mem_append,
    List.flatMap_cons, List.flatMap_nil, List.append_nil, Arg.paths_joined,
    DepsetOrder.mem_toList] at h
  simp only [Context.kotlincInputs, List.mem_append]
  rcases h with (hclasspath | hfriend) | hplugin
  · tauto
  · tauto
  · exact .inl (.inl (.inr (hplugins hplugin)))

theorem hermetic_elideJavac : (ctx.elideJavac outputJar).Hermetic := by
  apply hermetic_runElideCompile
  simp only [List.flatMap_append, paths_option, paths_flag, paths_javacArgs]
  intro path hpath
  cases hfused : ctx.javaFusedAbi <;> simp [hfused] at hpath ⊢ <;> tauto

theorem hermetic_elideJavacAbi : ctx.elideJavacAbi.Hermetic := by
  apply hermetic_runElideCompile
  simp only [List.flatMap_append, paths_javacArgs]
  intro path hpath
  simp at hpath ⊢
  tauto

theorem hermetic_elideKotlincAbi : ctx.elideKotlincAbi.Hermetic := by
  apply hermetic_runElideCompile
  simp only [List.flatMap_append]
  intro path hpath
  have hargs := @mem_kotlincInputs ctx path
  simp [-List.mem_flatMap] at hpath ⊢
  tauto

theorem hermetic_elideKotlinc : (ctx.elideKotlinc compileOut).Hermetic := by
  apply hermetic_runElideCompile
  simp only [List.flatMap_append, paths_option]
  intro path hpath
  have hargs := @mem_kotlincInputs ctx path
  cases hfused : fusedAbi ctx.toTarget <;> simp [hfused, -List.mem_flatMap] at hpath ⊢ <;> tauto

theorem hermetic_elideKotlinJavac : (ctx.elideKotlinJavac ktJar).Hermetic := by
  apply hermetic_runElideCompile
  simp only [List.flatMap_append, paths_flag]
  intro path hpath
  simp [-List.mem_map] at hpath ⊢
  tauto

end RulesElide.CompileCommon
