import RulesElide.Rules.Compilations

/-!
# Java and Kotlin targets

The implementations of the rules `elide_java_*` and `elide_kotlin_*`: what a target registers,
and the providers it returns.  `declared_written_once` says that every file a target declares has
one producer.
-/

namespace RulesElide.CompileCommon

/-! ## Providers -/

/-- What `JavaInfo` is made of. -/
structure JavaInfo where
  outputJar : File
  compileJar : File
  jdeps : Option File
  compileJdeps : Option File
  sourceJar : Option File
  deps : List Dependency
  runtimeDeps : List Dependency
  exports : List Dependency
  neverlink : Bool

/-- The output groups of the reports. -/
structure OutputGroups where
  jdeps : List File
  unusedInputs : List File

/-- `compile_output_groups`. -/
def compileOutputGroups (compilation : Compilation) : OutputGroups where
  jdeps := compilation.reports.filter fun file => file.extension = "jdeps"
  unusedInputs := compilation.reports.filter fun file => file.extension = "unused"

/-- `header_reports`. -/
def headerReports (override : Option File) (reports : List File) : List File :=
  match override with
  | some jar => reports.filter fun file => file.path = jar.path ++ ".jdeps"
  | none => []

/-- `implementation_reports`. -/
def implementationReports (override : Option File) (reports : List File) : List File :=
  reports.filter fun file => file.extension = "jdeps" ∧ file ∉ headerReports override reports

namespace Context

variable (ctx : Context)

/-- `make_java_info`. -/
def makeJavaInfo (outputJar : File) (sourceJar override : Option File) (reports : List File)
    (includeKotlinStdlib : Bool) : JavaInfo where
  outputJar
  compileJar := override.getD (ctx.java.interfaceJar outputJar)
  -- of several reports none is advertised; what `java_common.compile` writes is not among them
  jdeps :=
    match implementationReports override reports with
    | [report] => some report
    | _ => none
  compileJdeps := (headerReports override reports).head?
  sourceJar
  deps := ctx.deps ++ if includeKotlinStdlib then ctx.kotlinStdlibJars.map jarInfo else []
  runtimeDeps := ctx.runtimeDeps
  exports := ctx.exports
  neverlink := ctx.neverlink

/-! ## Rules -/

/-- `<name>.jar`. -/
def outputJar : File :=
  ctx.declareFile (ctx.name ++ ".jar")

/-- `<name>-sources.jar`. -/
def sourceJar : File :=
  ctx.declareFile (ctx.name ++ "-sources.jar")

/-- The script that `build_launcher` and `build_test_launcher` write. -/
def launcher : File :=
  ctx.declareFile (ctx.name ++ if ctx.windows then "_launcher.bat" else "_launcher.sh")

/-- `ctx.actions.write` of the launcher. -/
def writeLauncher : Registered where
  mnemonic := "FileWrite"
  executable := ""
  inputs := []
  outputs := [ctx.launcher]

end Context

inductive Language
  | java
  | kotlin
  deriving DecidableEq

inductive RuleKind
  | library
  | binary
  | test
  deriving DecidableEq

/-- `run_javac` or `run_kotlinc`. -/
def Language.compile (language : Language) (ctx : Context) (outputJar : File) :
    Except String Compilation :=
  match language with
  | .java => ctx.runJavac outputJar
  | .kotlin => ctx.runKotlinc outputJar

/-- What a rule registers and returns. -/
structure Analysis where
  actions : List Registered
  javaInfo : JavaInfo
  outputGroups : OutputGroups
  files : List File

/-- The implementation of a rule. -/
def analyze (language : Language) (kind : RuleKind) (ctx : Context) : Except String Analysis := do
  let compilation ← language.compile ctx ctx.outputJar
  let launcher := if kind = .library then [] else [ctx.writeLauncher]
  let ijar := if compilation.abiJar = none then ctx.java.runIjar ctx.outputJar else []
  .ok {
    actions := compilation.actions ++ ctx.packSourceJar ++ launcher ++ ijar
    javaInfo := ctx.makeJavaInfo ctx.outputJar (some ctx.sourceJar) compilation.abiJar
      compilation.reports (language = .kotlin)
    outputGroups := compileOutputGroups compilation
    files := [if kind = .library then ctx.outputJar else ctx.launcher] }

/-! ## What a compilation consists of -/

variable {ctx : Context} {outputJar : File} {compilation : Compilation} {language : Language}
  {kind : RuleKind} {analysis : Analysis}

/-- The merge of the jars of a Java target, if there are resources. -/
def MergesJava (ctx : Context) (outputJar : File) (merge : List Registered) : Prop :=
  if hasPackagedResources ctx.toTarget then
    ∃ action, ctx.mergeResources [ctx.classJar outputJar] outputJar = .ok action ∧ merge = [action]
  else merge = []

theorem MergesJava.of_mem {merge : List Registered} {action : Registered}
    (h : MergesJava ctx outputJar merge) (haction : action ∈ merge) :
    ctx.mergeResources [ctx.classJar outputJar] outputJar = .ok action := by
  unfold MergesJava at h
  split at h
  · obtain ⟨merged, hok, rfl⟩ := h
    rwa [List.mem_singleton.mp haction]
  · exact absurd (h ▸ haction) List.not_mem_nil

theorem runJavac_spec (h : ctx.runJavac outputJar = .ok compilation) :
    ∃ merge, MergesJava ctx outputJar merge ∧
      compilation.actions = ctx.elideJavac outputJar :: merge ++
        (if ctx.javaAbiAvoidance && !ctx.javaFusedAbi then [ctx.elideJavacAbi] else []) ∧
      compilation.abiJar = (if ctx.javaAbiAvoidance then some (abiJar ctx.toTarget) else none) ∧
      compilation.reports = ctx.reportsOn (ctx.classJar outputJar) ++
        (if ctx.javaAbiAvoidance && !ctx.javaFusedAbi then ctx.reportsOn (abiJar ctx.toTarget)
          else []) := by
  unfold Context.runJavac at h
  unfold MergesJava
  cases hres : hasPackagedResources ctx.toTarget with
  | false =>
      rw [hres] at h
      cases h
      exact ⟨[], rfl, rfl, rfl, rfl⟩
  | true =>
      rw [hres] at h
      cases hmerge : ctx.mergeResources [ctx.classJar outputJar] outputJar with
      | error failure =>
          rw [hmerge] at h
          cases h
      | ok action =>
          rw [hmerge] at h
          cases h
          exact ⟨[action], ⟨action, rfl, rfl⟩, rfl, rfl, rfl⟩

/-- The Java actions of a Kotlin target, and the reports of them. -/
def javaAux (ctx : Context) (outputJar : File) : List Registered × List File :=
  if ctx.hasJava then ctx.compileJavaAux (ctx.ktJar outputJar) else ([], [])

/-- The jars that are merged into the jar of a Kotlin target. -/
def classJars (ctx : Context) (outputJar : File) : List File :=
  (ctx.ktJar outputJar).toList ++ if ctx.hasJava then [ctx.javaJar] else []

/-- The merge of the jars of a Kotlin target, unless there is one jar only. -/
def MergesKotlin (ctx : Context) (outputJar : File) (merge : List Registered) : Prop :=
  if singleKtOnly ctx.toTarget then merge = []
  else ∃ action, ctx.mergeResources (classJars ctx outputJar) outputJar = .ok action ∧
    merge = [action]

theorem MergesKotlin.of_mem {merge : List Registered} {action : Registered}
    (h : MergesKotlin ctx outputJar merge) (haction : action ∈ merge) :
    ctx.mergeResources (classJars ctx outputJar) outputJar = .ok action := by
  unfold MergesKotlin at h
  split at h
  · exact absurd (h ▸ haction) List.not_mem_nil
  · obtain ⟨merged, hok, rfl⟩ := h
    rwa [List.mem_singleton.mp haction]

theorem hasJava_of_singleKtOnly (h : singleKtOnly ctx.toTarget = true) : ctx.hasJava = false := by
  unfold singleKtOnly at h
  unfold Context.hasJava
  simp only [Bool.and_eq_true] at h
  rw [h.1.2]
  rfl

theorem runKotlinc_spec (h : ctx.runKotlinc outputJar = .ok compilation) :
    ∃ merge, MergesKotlin ctx outputJar merge ∧
      compilation.actions = ctx.kotlinActions outputJar ++ (javaAux ctx outputJar).1 ++ merge ∧
      compilation.abiJar =
        (if abiAvoidance ctx.toTarget then some (abiJar ctx.toTarget) else none) ∧
      compilation.reports = ctx.kotlinReports outputJar ++ (javaAux ctx outputJar).2 := by
  unfold Context.runKotlinc at h
  unfold MergesKotlin javaAux classJars
  dsimp only at h
  by_cases hsingle : singleKtOnly ctx.toTarget = true
  · rw [if_pos hsingle] at h
    cases h
    simp [hsingle, hasJava_of_singleKtOnly hsingle]
  · rw [if_neg hsingle] at h
    simp only [if_neg hsingle]
    cases hjava : ctx.hasJava with
    | false =>
        simp only [hjava, Bool.false_eq_true, if_false, List.append_nil] at h ⊢
        cases hmerge : ctx.mergeResources (ctx.ktJar outputJar).toList outputJar with
        | error failure =>
            rw [hmerge] at h
            cases h
        | ok action =>
            rw [hmerge] at h
            cases h
            exact ⟨[action], ⟨action, rfl, rfl⟩, rfl, rfl, rfl⟩
    | true =>
        simp only [hjava, if_true] at h ⊢
        cases hmerge :
          ctx.mergeResources ((ctx.ktJar outputJar).toList ++ [ctx.javaJar]) outputJar with
        | error failure =>
            rw [hmerge] at h
            cases h
        | ok action =>
            rw [hmerge] at h
            cases h
            exact ⟨[action], ⟨action, rfl, rfl⟩, rfl, rfl, rfl⟩

/-! ## Without the files -/

/-- The actions of `run_kotlinc` that run Elide, in their order. -/
def Context.elideActions (ctx : Context) (outputJar : File) : List Registered :=
  ctx.kotlinActions outputJar ++
    if ctx.hasJava && !hasExportedProcessors ctx.deps then
      [ctx.elideKotlinJavac (ctx.ktJar outputJar)]
    else []

theorem elideActions_sublist (h : ctx.runKotlinc outputJar = .ok compilation) :
    (ctx.elideActions outputJar).Sublist compilation.actions := by
  obtain ⟨merge, -, hactions, -, -⟩ := runKotlinc_spec h
  rw [hactions]
  refine List.Sublist.trans ?_ (List.sublist_append_left _ merge)
  apply List.Sublist.append_left
  unfold javaAux Context.compileJavaAux
  cases ctx.hasJava <;> cases hasExportedProcessors ctx.deps <;> simp

/-- Without their files, these are the actions of `CompileCommon`. -/
theorem map_elide_elideActions :
    (ctx.elideActions outputJar).map Registered.elide = runKotlinc ctx.toTarget outputJar := by
  have hktJar : ctx.ktJar outputJar =
      if (ctx.sources "kt").isEmpty then none
      else if singleKtOnly ctx.toTarget then some outputJar
      else some (ctx.declareFile (ctx.name ++ "_kotlin_classes.jar")) := by
    unfold Context.ktJar Context.hasKt
    cases (ctx.sources "kt").isEmpty <;> cases singleKtOnly ctx.toTarget <;> rfl
  unfold Context.elideActions Context.kotlinActions runKotlinc Context.separateAbi Context.hasJava
  rw [← hktJar, List.map_append, List.map_append]
  have habi : (if abiAvoidance ctx.toTarget && !fusedAbi ctx.toTarget then [ctx.elideKotlincAbi]
      else []).map Registered.elide =
        if abiAvoidance ctx.toTarget && !fusedAbi ctx.toTarget then [abiAction ctx.toTarget]
        else [] := by
    split
    · rw [List.map_singleton, elide_elideKotlincAbi]
    · rfl
  have hkotlinc :
    ((ctx.ktJar outputJar).toList.map fun compileOut => ctx.elideKotlinc compileOut).map
      Registered.elide = (ctx.ktJar outputJar).toList.map fun compileOut =>
        kotlincAction ctx.toTarget compileOut := by
    rw [List.map_map]
    exact List.map_congr_left fun compileOut _ => elide_elideKotlinc
  rw [habi, hkotlinc]
  congr 1
  cases (ctx.sources "java").isEmpty <;> cases hasExportedProcessors ctx.deps <;>
    simp [elide_elideKotlinJavac]

/-- **A target with a plugin.**  Nothing that its Kotlin and Java actions read is pruned, and its
ABI jar, if there is one, has an action of its own. -/
theorem TreatsAsPlugin.elideActions (hplugin : TreatsAsPlugin ctx.toTarget)
    (outputJar : File) :
    (∀ action ∈ ctx.elideActions outputJar, action.unusedInputsList = none) ∧
      (abiAvoidance ctx.toTarget = true →
        ∃ action ∈ ctx.elideActions outputJar, action.elide = abiAction ctx.toTarget) := by
  refine ⟨fun action haction => ?_, fun habi => ?_⟩
  · have hmem : action.elide ∈ runKotlinc ctx.toTarget outputJar :=
      map_elide_elideActions ▸ List.mem_map_of_mem haction
    exact hplugin.unusedInputsList hmem
  · have hmem := hplugin.abiAction_mem habi outputJar
    rw [← map_elide_elideActions] at hmem
    exact List.mem_map.mp hmem

/-! ## The names of the files -/

/-- A file of the target, by what follows its name. -/
def Context.file (ctx : Context) (suffix : String) : File :=
  ctx.declareFile (ctx.name ++ suffix)

theorem declareFile_name (ctx : Context) (suffix : String) :
    ctx.declareFile (ctx.name ++ suffix) = ctx.file suffix := rfl

theorem outputJar_eq (ctx : Context) : ctx.outputJar = ctx.file ".jar" := rfl

theorem abiJar_eq (ctx : Context) : abiJar ctx.toTarget = ctx.file "_abi.jar" := rfl

theorem javaJar_eq (ctx : Context) : ctx.javaJar = ctx.file "_java_classes.jar" := rfl

theorem classJar_outputJar (ctx : Context) :
    ctx.classJar ctx.outputJar =
      ctx.file (if hasPackagedResources ctx.toTarget then "_classes.jar" else ".jar") := by
  unfold Context.classJar
  split <;> rfl

theorem path_file_injective (ctx : Context) :
    Function.Injective fun suffix => (ctx.file suffix).path := by
  intro first second h
  exact String.append_right_inj ctx.name |>.mp (File.path_inj_of_dirname.mp h)

/-- The reports on a file, by what follows the name of the target. -/
def reportSuffixes (jdeps unused : Bool) (suffix : String) : List String :=
  (if jdeps then [suffix ++ ".jdeps"] else []) ++ if unused then [suffix ++ ".unused"] else []

/-- The reports are asked for. -/
def Context.prunes (ctx : Context) : Bool :=
  ctx.settings.pruneUnusedInputs && !isOpaque ctx.toTarget

theorem reportsOn_file (suffix : String) :
    ctx.reportsOn (ctx.file suffix) =
      (reportSuffixes ctx.settings.emitJdeps ctx.prunes suffix).map ctx.file := by
  unfold Context.reportsOn metadata reportSuffixes Context.prunes
  cases ctx.settings.emitJdeps <;>
    cases ctx.settings.pruneUnusedInputs && !isOpaque ctx.toTarget <;>
      simp [Context.file, Target.declareFile, File.sibling, String.append_assoc]

theorem outputs_runElideCompile {mnemonic subcommand : String} {toolArgs : List Arg}
    {inputs : List String} {output : File} {others : List File} {incremental : Bool} :
    (ctx.runElideCompile mnemonic subcommand toolArgs inputs output others incremental).outputs =
      output :: others ++ ctx.reportsOn output := rfl

/-- What a Java compilation writes. -/
def javaSuffixes (res fused separate jdeps unused : Bool) : List String :=
  let classes := if res then "_classes.jar" else ".jar"
  classes :: (if fused then ["_abi.jar"] else []) ++ reportSuffixes jdeps unused classes ++
    (if res then [".jar"] else []) ++
    if separate then "_abi.jar" :: reportSuffixes jdeps unused "_abi.jar" else []

/-- What the Java sources of a Kotlin target are compiled to. -/
def javaAuxSuffixes (java processed jdeps unused : Bool) : List String :=
  if java then "_java_classes.jar" ::
    if processed then [] else reportSuffixes jdeps unused "_java_classes.jar" else []

/-- What a Kotlin compilation writes. -/
def kotlinSuffixes (kt java res processed fused separate jdeps unused : Bool) : List String :=
  let single := kt && !java && !res
  let compileOut := if single then ".jar" else "_kotlin_classes.jar"
  (if separate then "_abi.jar" :: reportSuffixes jdeps unused "_abi.jar" else []) ++
    (if kt then compileOut :: (if fused then ["_abi.jar"] else []) ++
      reportSuffixes jdeps unused compileOut else []) ++
    javaAuxSuffixes java processed jdeps unused ++
    if single then [] else [".jar"]

/-- What the rules write besides. -/
def ruleSuffixes (launcher windows ijar : Bool) : List String :=
  "-sources.jar" ::
    (if launcher then [if windows then "_launcher.bat" else "_launcher.sh"] else []) ++
    if ijar then ["-ijar.jar"] else []

theorem outputs_runJavac (h : ctx.runJavac ctx.outputJar = .ok compilation) :
    compilation.actions.flatMap Registered.outputs =
      (javaSuffixes (hasPackagedResources ctx.toTarget) ctx.javaFusedAbi
        (ctx.javaAbiAvoidance && !ctx.javaFusedAbi) ctx.settings.emitJdeps ctx.prunes).map
          ctx.file := by
  obtain ⟨merge, hmerge, hactions, -, -⟩ := runJavac_spec h
  have hmerged : merge.flatMap Registered.outputs =
      (if hasPackagedResources ctx.toTarget then [".jar"] else []).map ctx.file := by
    unfold MergesJava at hmerge
    split at hmerge
    · obtain ⟨action, haction, rfl⟩ := hmerge
      simp [(mergeResources_spec haction).outputs, *, Context.outputJar, Context.file]
    · subst hmerge
      simp [*]
  have hjavac : (ctx.elideJavac ctx.outputJar).outputs = ctx.classJar ctx.outputJar ::
      (if ctx.javaFusedAbi then [ctx.file "_abi.jar"] else []) ++
        ctx.reportsOn (ctx.classJar ctx.outputJar) := rfl
  have habi : ctx.elideJavacAbi.outputs =
    ctx.file "_abi.jar" :: ctx.reportsOn (ctx.file "_abi.jar") :=
    rfl
  rw [hactions]
  simp only [List.flatMap_append, List.flatMap_cons, hmerged, hjavac]
  rw [classJar_outputJar, reportsOn_file]
  unfold javaSuffixes
  cases hfused : ctx.javaFusedAbi <;>
    cases hseparate : ctx.javaAbiAvoidance <;> simp [habi, reportsOn_file]

theorem ktJar_outputJar :
    ctx.ktJar ctx.outputJar = if ctx.hasKt then
      some (ctx.file (if singleKtOnly ctx.toTarget then ".jar" else "_kotlin_classes.jar"))
    else none := by
  unfold Context.ktJar
  split
  · split <;> rfl
  · rfl

theorem singleKtOnly_eq :
    singleKtOnly ctx.toTarget =
      (ctx.hasKt && !ctx.hasJava && !hasPackagedResources ctx.toTarget) := by
  simp [singleKtOnly, Context.hasKt, Context.hasJava]

/-- What `java_common.compile` writes for a target besides its jar. -/
def Context.byproducts (ctx : Context) (language : Language) : List File :=
  match language with
  | .java => []
  | .kotlin =>
      if ctx.hasJava && hasExportedProcessors ctx.deps then
        ctx.java.byproducts (ctx.javaCompile (ctx.ktJar ctx.outputJar))
      else []

theorem outputs_javaAux :
    ((javaAux ctx ctx.outputJar).1.flatMap Registered.outputs).Perm
      ((javaAuxSuffixes ctx.hasJava (hasExportedProcessors ctx.deps) ctx.settings.emitJdeps
        ctx.prunes).map ctx.file ++ ctx.byproducts .kotlin) := by
  have houtputs : ∀ ktJar, (ctx.elideKotlinJavac ktJar).outputs =
      ctx.file "_java_classes.jar" :: ctx.reportsOn (ctx.file "_java_classes.jar") := fun _ => rfl
  have hprocessed : ((ctx.compileJavaProcessed (ctx.ktJar ctx.outputJar)).flatMap
      Registered.outputs).Perm (ctx.file "_java_classes.jar" ::
        ctx.java.byproducts (ctx.javaCompile (ctx.ktJar ctx.outputJar))) :=
    (ctx.java.compile_makes _).outputs
  unfold javaAux Context.compileJavaAux javaAuxSuffixes Context.byproducts
  cases ctx.hasJava with
  | false => simp
  | true =>
      cases hasExportedProcessors ctx.deps with
      | false => simp [houtputs, reportsOn_file]
      | true => simpa using hprocessed

theorem outputs_runKotlinc (h : ctx.runKotlinc ctx.outputJar = .ok compilation) :
    (compilation.actions.flatMap Registered.outputs).Perm
      ((kotlinSuffixes ctx.hasKt ctx.hasJava (hasPackagedResources ctx.toTarget)
        (hasExportedProcessors ctx.deps) (fusedAbi ctx.toTarget) ctx.separateAbi
        ctx.settings.emitJdeps ctx.prunes).map ctx.file ++ ctx.byproducts .kotlin) := by
  obtain ⟨merge, hmerge, hactions, -, -⟩ := runKotlinc_spec h
  have hmerged : merge.flatMap Registered.outputs =
      (if singleKtOnly ctx.toTarget then [] else [".jar"]).map ctx.file := by
    unfold MergesKotlin at hmerge
    split at hmerge
    · subst hmerge
      simp [*]
    · obtain ⟨action, haction, rfl⟩ := hmerge
      simp [(mergeResources_spec haction).outputs, *, Context.outputJar, Context.file]
  have habi : (if ctx.separateAbi then [ctx.elideKotlincAbi] else []).flatMap Registered.outputs =
      (if ctx.separateAbi then "_abi.jar" ::
        reportSuffixes ctx.settings.emitJdeps ctx.prunes "_abi.jar" else []).map ctx.file := by
    split
    · have houtputs : ctx.elideKotlincAbi.outputs =
          ctx.file "_abi.jar" :: ctx.reportsOn (ctx.file "_abi.jar") := rfl
      simp [houtputs, reportsOn_file]
    · rfl
  have hkotlinc : ∀ suffix, (ctx.elideKotlinc (ctx.file suffix)).outputs = ctx.file suffix ::
      (if fusedAbi ctx.toTarget then [ctx.file "_abi.jar"] else []) ++
        ctx.reportsOn (ctx.file suffix) := fun _ => rfl
  have hown : (ctx.kotlinActions ctx.outputJar).flatMap Registered.outputs ++
      ((javaAuxSuffixes ctx.hasJava (hasExportedProcessors ctx.deps) ctx.settings.emitJdeps
        ctx.prunes).map ctx.file ++ merge.flatMap Registered.outputs) =
      (kotlinSuffixes ctx.hasKt ctx.hasJava (hasPackagedResources ctx.toTarget)
        (hasExportedProcessors ctx.deps) (fusedAbi ctx.toTarget) ctx.separateAbi
        ctx.settings.emitJdeps ctx.prunes).map ctx.file := by
    rw [Context.kotlinActions, ktJar_outputJar, List.flatMap_append, habi, hmerged]
    unfold kotlinSuffixes
    rw [singleKtOnly_eq]
    cases ctx.hasKt <;> cases hfused : fusedAbi ctx.toTarget <;>
      simp [hkotlinc, hfused, reportsOn_file]
  rw [hactions, ← hown, List.flatMap_append, List.flatMap_append, List.append_assoc,
    List.append_assoc]
  apply List.Perm.append_left
  -- what `java_common` writes besides comes before the merged jar
  apply (outputs_javaAux.append_right _).trans
  rw [List.append_assoc, List.append_assoc]
  exact List.perm_append_comm.append_left _

theorem outputs_compile (h : language.compile ctx ctx.outputJar = .ok compilation) :
    (compilation.actions.flatMap Registered.outputs).Perm
      ((match language with
        | .java => javaSuffixes (hasPackagedResources ctx.toTarget) ctx.javaFusedAbi
            (ctx.javaAbiAvoidance && !ctx.javaFusedAbi) ctx.settings.emitJdeps ctx.prunes
        | .kotlin => kotlinSuffixes ctx.hasKt ctx.hasJava (hasPackagedResources ctx.toTarget)
            (hasExportedProcessors ctx.deps) (fusedAbi ctx.toTarget) ctx.separateAbi
            ctx.settings.emitJdeps ctx.prunes).map ctx.file ++ ctx.byproducts language) := by
  cases language with
  | java =>
      have houtputs := outputs_runJavac h
      rw [houtputs]
      exact (List.append_nil _).symm ▸ List.Perm.refl _
  | kotlin => exact outputs_runKotlinc h

/-! ## One producer for every file -/

namespace Context

variable (ctx : Context)

/-- The files that `run_javac` declares. -/
def javaDeclared : List File :=
  (if hasPackagedResources ctx.toTarget then [ctx.declareFile (ctx.name ++ "_classes.jar")]
    else []) ++ (if ctx.javaAbiAvoidance then [abiJar ctx.toTarget] else []) ++
    ctx.reportsOn (ctx.classJar ctx.outputJar) ++
    (if ctx.javaAbiAvoidance && !ctx.javaFusedAbi then ctx.reportsOn (abiJar ctx.toTarget) else [])

/-- The files that `run_kotlinc` declares. -/
def kotlinDeclared : List File :=
  (if abiAvoidance ctx.toTarget then [abiJar ctx.toTarget] else []) ++
    (if ctx.separateAbi then ctx.reportsOn (abiJar ctx.toTarget) else []) ++
    (if ctx.hasKt && !singleKtOnly ctx.toTarget then
      [ctx.declareFile (ctx.name ++ "_kotlin_classes.jar")] else []) ++
    (ctx.ktJar ctx.outputJar).toList.flatMap (fun compileOut => ctx.reportsOn compileOut) ++
    (if ctx.hasJava then ctx.javaJar ::
      if hasExportedProcessors ctx.deps then [] else ctx.reportsOn ctx.javaJar else [])

/-- The files that a rule declares. -/
def declared (language : Language) (kind : RuleKind) : List File :=
  [ctx.outputJar] ++
    (match language with
      | .java => ctx.javaDeclared
      | .kotlin => ctx.kotlinDeclared) ++
    [ctx.sourceJar] ++ if kind = .library then [] else [ctx.launcher]

/-- The ABI jar that takes the place of the interface jar. -/
def override (language : Language) : Option File :=
  match language with
  | .java => if ctx.javaAbiAvoidance then some (abiJar ctx.toTarget) else none
  | .kotlin => if abiAvoidance ctx.toTarget then some (abiJar ctx.toTarget) else none

/-- The file that `run_ijar` declares. -/
def interfaceJars (language : Language) : List File :=
  if ctx.override language = none then [ctx.java.interfaceJar ctx.outputJar] else []

/-- The files of the target. -/
def files (language : Language) (kind : RuleKind) : List File :=
  ctx.declared language kind ++ ctx.interfaceJars language

end Context

theorem interfaceJars_eq (language : Language) :
    ctx.interfaceJars language =
      (if ctx.override language = none then ["-ijar.jar"] else []).map ctx.file := by
  have hijar : ctx.java.interfaceJar ctx.outputJar = ctx.file "-ijar.jar" :=
    ctx.java.interfaceJar_eq ctx.dirname ctx.name
  unfold Context.interfaceJars
  split
  · rw [hijar]
    rfl
  · rfl

/-- What a rule writes, by what follows the name of the target. -/
def Context.suffixes (ctx : Context) (language : Language) (kind : RuleKind) : List String :=
  (match language with
    | .java => javaSuffixes (hasPackagedResources ctx.toTarget) ctx.javaFusedAbi
        (ctx.javaAbiAvoidance && !ctx.javaFusedAbi) ctx.settings.emitJdeps ctx.prunes
    | .kotlin => kotlinSuffixes ctx.hasKt ctx.hasJava (hasPackagedResources ctx.toTarget)
        (hasExportedProcessors ctx.deps) (fusedAbi ctx.toTarget) ctx.separateAbi
        ctx.settings.emitJdeps ctx.prunes) ++
    ruleSuffixes (kind ≠ .library) ctx.windows (ctx.override language = none)

/-- Whatever follows the name of a target in the name of a file. -/
def allSuffixes : List String :=
  ["-sources.jar", "_launcher.sh", "_launcher.bat", "-ijar.jar"] ++
    [".jar", "_classes.jar", "_abi.jar", "_kotlin_classes.jar", "_java_classes.jar"].flatMap
      fun suffix => [suffix, suffix ++ ".jdeps", suffix ++ ".unused"]

/-- These names are different ones. -/
theorem javaSuffixes_spec : ∀ res fused separate jdeps unused launcher windows ijar : Bool,
    let suffixes :=
      javaSuffixes res fused separate jdeps unused ++ ruleSuffixes launcher windows ijar
    suffixes ⊆ allSuffixes ∧ ((fused && separate) = false → suffixes.Nodup) := by
  decide +kernel

theorem kotlinSuffixes_spec :
    ∀ kt java res processed fused separate jdeps unused launcher windows ijar : Bool,
      let suffixes := kotlinSuffixes kt java res processed fused separate jdeps unused ++
        ruleSuffixes launcher windows ijar
      suffixes ⊆ allSuffixes ∧ ((fused && separate) = false → suffixes.Nodup) := by
  decide +kernel

theorem nodup_suffixes (ctx : Context) (language : Language) (kind : RuleKind) :
    (ctx.suffixes language kind).Nodup := by
  cases language with
  | java =>
      apply (javaSuffixes_spec _ _ _ _ _ _ _ _).2
      cases ctx.javaFusedAbi <;> simp
  | kotlin =>
      apply (kotlinSuffixes_spec _ _ _ _ _ _ _ _ _ _ _).2
      unfold Context.separateAbi
      cases fusedAbi ctx.toTarget <;> simp

/-- How a compilation ended. -/
theorem analyze_spec (h : analyze language kind ctx = .ok analysis) :
    ∃ compilation, language.compile ctx ctx.outputJar = .ok compilation ∧
      compilation.abiJar = ctx.override language ∧
      analysis.actions = compilation.actions ++ ctx.packSourceJar ++
        (if kind = .library then [] else [ctx.writeLauncher]) ++
        (if ctx.override language = none then ctx.java.runIjar ctx.outputJar else []) ∧
      analysis.javaInfo = ctx.makeJavaInfo ctx.outputJar (some ctx.sourceJar)
        (ctx.override language) compilation.reports (language = .kotlin) ∧
      analysis.outputGroups = compileOutputGroups compilation := by
  unfold analyze at h
  cases hcompile : language.compile ctx ctx.outputJar with
  | error failure =>
      rw [hcompile] at h
      cases h
  | ok compilation =>
      rw [hcompile] at h
      cases h
      have habi : compilation.abiJar = ctx.override language := by
        cases language with
        | java =>
            obtain ⟨_, -, -, habi, -⟩ := runJavac_spec hcompile
            exact habi
        | kotlin =>
            obtain ⟨_, -, -, habi, -⟩ := runKotlinc_spec hcompile
            exact habi
      refine ⟨compilation, rfl, habi, ?_, ?_, rfl⟩ <;> rw [← habi]

theorem outputs_analyze (h : analyze language kind ctx = .ok analysis) :
    (analysis.actions.flatMap Registered.outputs).Perm
      ((ctx.suffixes language kind).map ctx.file ++ ctx.byproducts language) := by
  obtain ⟨compilation, hcompile, -, hactions, -, -⟩ := analyze_spec h
  have hsources : (ctx.packSourceJar.flatMap Registered.outputs).Perm [ctx.file "-sources.jar"] :=
    (ctx.java.packSources_makes _ _).outputs
  have hijar : ((if ctx.override language = none then ctx.java.runIjar ctx.outputJar
      else []).flatMap Registered.outputs).Perm (ctx.interfaceJars language) := by
    unfold Context.interfaceJars
    split
    · exact (ctx.java.runIjar_makes ctx.outputJar).outputs
    · exact List.Perm.refl _
  -- what the rule itself adds: the sources, the launcher and the interface jar
  have hrule : (ctx.packSourceJar.flatMap Registered.outputs ++
      ((if kind = .library then [] else [ctx.writeLauncher]).flatMap Registered.outputs ++
        (if ctx.override language = none then ctx.java.runIjar ctx.outputJar else []).flatMap
          Registered.outputs)).Perm
        ((ruleSuffixes (kind ≠ .library) ctx.windows (ctx.override language = none)).map
          ctx.file) := by
    apply (hsources.append (hijar.append_left _)).trans
    rw [interfaceJars_eq]
    unfold ruleSuffixes
    cases kind <;> simp [Context.writeLauncher, Context.launcher, Context.file]
  rw [hactions, List.flatMap_append, List.flatMap_append, List.flatMap_append,
    List.append_assoc, List.append_assoc]
  apply ((outputs_compile hcompile).append hrule).trans
  unfold Context.suffixes
  rw [List.map_append, List.append_assoc, List.append_assoc]
  exact List.perm_append_comm.append_left _

/-- What a Java rule declares, by what follows the name of the target. -/
def javaDeclaredSuffixes (res abi fused jdeps unused : Bool) : List String :=
  ".jar" :: (if res then ["_classes.jar"] else []) ++ (if abi then ["_abi.jar"] else []) ++
    reportSuffixes jdeps unused (if res then "_classes.jar" else ".jar") ++
    if abi && !fused then reportSuffixes jdeps unused "_abi.jar" else []

/-- What a Kotlin rule declares. -/
def kotlinDeclaredSuffixes (kt java res processed abi fused jdeps unused : Bool) : List String :=
  let single := kt && !java && !res
  ".jar" :: (if abi then ["_abi.jar"] else []) ++
    (if abi && !fused then reportSuffixes jdeps unused "_abi.jar" else []) ++
    (if kt && !single then ["_kotlin_classes.jar"] else []) ++
    (if kt then reportSuffixes jdeps unused (if single then ".jar" else "_kotlin_classes.jar")
      else []) ++
    if java then "_java_classes.jar" ::
      if processed then [] else reportSuffixes jdeps unused "_java_classes.jar" else []

theorem javaDeclaredSuffixes_perm : ∀ res abi fused jdeps unused : Bool, (!fused || abi) = true →
    (javaDeclaredSuffixes res abi fused jdeps unused).Perm
      (javaSuffixes res fused (abi && !fused) jdeps unused) := by
  decide +kernel

theorem kotlinDeclaredSuffixes_perm : ∀ kt java res processed abi fused jdeps unused : Bool,
    (!fused || (abi && kt)) = true →
      (kotlinDeclaredSuffixes kt java res processed abi fused jdeps unused).Perm
        (kotlinSuffixes kt java res processed fused (abi && !fused) jdeps unused) := by
  decide +kernel

theorem javaDeclared_perm :
    (ctx.outputJar :: ctx.javaDeclared).Perm
      ((javaSuffixes (hasPackagedResources ctx.toTarget) ctx.javaFusedAbi
        (ctx.javaAbiAvoidance && !ctx.javaFusedAbi) ctx.settings.emitJdeps ctx.prunes).map
          ctx.file) := by
  have hdeclared : ctx.outputJar :: ctx.javaDeclared =
      (javaDeclaredSuffixes (hasPackagedResources ctx.toTarget) ctx.javaAbiAvoidance
        ctx.javaFusedAbi ctx.settings.emitJdeps ctx.prunes).map ctx.file := by
    unfold Context.javaDeclared javaDeclaredSuffixes
    rw [classJar_outputJar, abiJar_eq, reportsOn_file, reportsOn_file]
    cases hasPackagedResources ctx.toTarget <;> cases ctx.javaAbiAvoidance <;>
      cases ctx.javaFusedAbi <;> simp [Context.file, Context.outputJar]
  rw [hdeclared]
  apply List.Perm.map
  apply javaDeclaredSuffixes_perm
  unfold Context.javaFusedAbi
  cases ctx.javaAbiAvoidance <;> simp

theorem kotlinDeclared_perm :
    (ctx.outputJar :: ctx.kotlinDeclared).Perm
      ((kotlinSuffixes ctx.hasKt ctx.hasJava (hasPackagedResources ctx.toTarget)
        (hasExportedProcessors ctx.deps) (fusedAbi ctx.toTarget) ctx.separateAbi
        ctx.settings.emitJdeps ctx.prunes).map ctx.file) := by
  have hdeclared : ctx.outputJar :: ctx.kotlinDeclared =
      (kotlinDeclaredSuffixes ctx.hasKt ctx.hasJava (hasPackagedResources ctx.toTarget)
        (hasExportedProcessors ctx.deps) (abiAvoidance ctx.toTarget) (fusedAbi ctx.toTarget)
        ctx.settings.emitJdeps ctx.prunes).map ctx.file := by
    unfold Context.kotlinDeclared kotlinDeclaredSuffixes Context.separateAbi
    rw [ktJar_outputJar, abiJar_eq, javaJar_eq, reportsOn_file, reportsOn_file, singleKtOnly_eq]
    cases ctx.hasKt <;> cases ctx.hasJava <;> cases hasPackagedResources ctx.toTarget <;>
      cases abiAvoidance ctx.toTarget <;> cases fusedAbi ctx.toTarget <;>
        cases hasExportedProcessors ctx.deps <;>
          simp [declareFile_name, outputJar_eq, reportsOn_file]
  rw [hdeclared]
  apply List.Perm.map
  apply kotlinDeclaredSuffixes_perm
  unfold fusedAbi abiAvoidance Context.hasKt
  cases (ctx.sources "kt").isEmpty <;> cases (requestedAbi ctx.toTarget).1 <;> simp

theorem files_perm (ctx : Context) (language : Language) (kind : RuleKind) :
    (ctx.files language kind).Perm ((ctx.suffixes language kind).map ctx.file) := by
  have hrule : [ctx.sourceJar] ++ ((if kind = .library then [] else [ctx.launcher]) ++
      ctx.interfaceJars language) =
        (ruleSuffixes (kind ≠ .library) ctx.windows (ctx.override language = none)).map
          ctx.file := by
    rw [interfaceJars_eq]
    unfold ruleSuffixes
    cases kind <;> simp [Context.sourceJar, Context.launcher, Context.file]
  unfold Context.files Context.declared Context.suffixes
  rw [List.append_assoc, List.append_assoc, hrule, List.map_append]
  apply List.Perm.append_right
  cases language with
  | java => exact javaDeclared_perm
  | kotlin => exact kotlinDeclared_perm

theorem outputs_perm (h : analyze language kind ctx = .ok analysis) :
    (analysis.actions.flatMap Registered.outputs).Perm
      (ctx.files language kind ++ ctx.byproducts language) :=
  (outputs_analyze h).trans ((files_perm ctx language kind).symm.append_right _)

theorem nodup_files (ctx : Context) (language : Language) (kind : RuleKind) :
    ((ctx.files language kind).map File.path).Nodup := by
  apply ((files_perm ctx language kind).map File.path).nodup_iff.mpr
  rw [List.map_map]
  exact (nodup_suffixes ctx language kind).map (path_file_injective ctx)

/-- **Every file has one producer.**  The actions of a target write the files that the rule
declares and the interface jar, and what `java_common.compile` writes besides; a file that is not
written besides is written once. -/
theorem declared_written_once (h : analyze language kind ctx = .ok analysis) :
    (analysis.actions.flatMap Registered.outputs).Perm
        (ctx.files language kind ++ ctx.byproducts language) ∧
      ((ctx.files language kind).map File.path).Nodup ∧
      ∀ file ∈ ctx.files language kind, file.path ∉ (ctx.byproducts language).map File.path →
        ((analysis.actions.flatMap Registered.outputs).map File.path).count file.path = 1 := by
  refine ⟨outputs_perm h, nodup_files ctx language kind, fun file hfile hbesides => ?_⟩
  calc ((analysis.actions.flatMap Registered.outputs).map File.path).count file.path
      = ((ctx.files language kind ++ ctx.byproducts language).map File.path).count file.path :=
        ((outputs_perm h).map File.path).count_eq file.path
    _ = ((ctx.files language kind).map File.path).count file.path +
          ((ctx.byproducts language).map File.path).count file.path := by
        rw [List.map_append, List.count_append]
    _ = 1 := by
        rw [List.count_eq_zero_of_not_mem hbesides,
          List.count_eq_one_of_mem (nodup_files ctx language kind) (List.mem_map_of_mem hfile)]

/-- The sample target as a program that reports on its dependencies and keeps its header apart. -/
def reportingContext : Context :=
  sampleContext { emitJdeps := true, pruneUnusedInputs := true, abiCompileAvoidance := true }

/-- What the rule of this program does. -/
def reportingAnalysis : Analysis :=
  (analyze .kotlin .binary reportingContext).toOption.get (by decide +kernel)

theorem analyze_reporting : analyze .kotlin .binary reportingContext = .ok reportingAnalysis :=
  Reader.eq_ok_get _

theorem declared_written_once_reporting :
    (reportingContext.files .kotlin .binary).length = 8 ∧
      (reportingAnalysis.actions.flatMap Registered.outputs).Perm
        (reportingContext.files .kotlin .binary ++ reportingContext.byproducts .kotlin) ∧
      ((reportingContext.files .kotlin .binary).map File.path).Nodup ∧
      ∀ file ∈ reportingContext.files .kotlin .binary,
        file.path ∉ (reportingContext.byproducts .kotlin).map File.path →
          ((reportingAnalysis.actions.flatMap Registered.outputs).map File.path).count
            file.path = 1 :=
  ⟨by decide +kernel, declared_written_once analyze_reporting⟩

/-! ## Targets of one package -/

theorem suffixes_subset (ctx : Context) (language : Language) (kind : RuleKind) :
    ctx.suffixes language kind ⊆ allSuffixes := by
  cases language with
  | java => exact (javaSuffixes_spec _ _ _ _ _ _ _ _).1
  | kotlin => exact (kotlinSuffixes_spec _ _ _ _ _ _ _ _ _ _ _).1

/-- What can stand between the name of a target and one of these. -/
def nameParts : List String :=
  ["_abi", "_classes", "_java", "_java_classes", "_kotlin", "_kotlin_classes", "-sources", "-ijar"]

theorem mem_nameParts : ∀ suffix ∈ allSuffixes, ∀ longer ∈ allSuffixes,
    endsWith longer suffix = true → longer ≠ suffix →
      String.ofList (longer.toList.take (longer.length - suffix.length)) ∈ nameParts := by
  decide +kernel

/-- Two names that make one file name with what follows them are the same, or one goes on with a
part. -/
theorem name_eq_or_part {name other suffix suffix' : String} (hsuffix : suffix ∈ allSuffixes)
    (hsuffix' : suffix' ∈ allSuffixes) (hlonger : name.length ≤ other.length)
    (h : name ++ suffix = other ++ suffix') :
    name = other ∨ ∃ part ∈ nameParts, other = name ++ part := by
  have hlists : name.toList ++ suffix.toList = other.toList ++ suffix'.toList := by
    rw [← String.toList_append, h, String.toList_append]
  obtain ⟨part, hother, hparts⟩ : ∃ part, other.toList = name.toList ++ part ∧
      suffix.toList = part ++ suffix'.toList := by
    rcases List.append_eq_append_iff.mp hlists with
      ⟨part, hother, hsuffixes⟩ | ⟨part, hname, hsuffixes⟩
    · exact ⟨part, hother, hsuffixes⟩
    · -- the other name is no shorter, so there is no such part
      have hlength := congrArg List.length hname
      simp only [List.length_append, String.length_toList] at hlength
      obtain rfl : part = [] := List.length_eq_zero_iff.mp (by omega)
      exact ⟨[], by simpa using hname.symm, by simpa using hsuffixes.symm⟩
  by_cases hnil : part = []
  · left
    apply String.toList_injective
    rw [hother, hnil, List.append_nil]
  · right
    have hlength := congrArg List.length hparts
    simp only [List.length_append, String.length_toList] at hlength
    have hends : endsWith suffix suffix' = true := by
      rw [endsWith, List.isSuffixOf_iff_suffix]
      exact ⟨part, hparts.symm⟩
    have hne : suffix ≠ suffix' := by
      rintro rfl
      exact hnil (List.length_eq_zero_iff.mp (by omega))
    have hmem := mem_nameParts suffix' hsuffix' suffix hsuffix hends hne
    rw [hparts, List.take_left' (by omega)] at hmem
    refine ⟨String.ofList part, hmem, ?_⟩
    apply String.toList_injective
    rw [hother, String.toList_append, String.toList_ofList]

variable {ctx' : Context} {language' : Language} {kind' : RuleKind}

/-- **Targets of one package keep apart.**  Two targets of a package have a file in common only if
the name of one is that of the other, followed by what the rules put behind names themselves. -/
theorem names_of_same_file (hpackage : ctx.dirname = ctx'.dirname) {file file' : File}
    (hfile : file ∈ ctx.files language kind) (hfile' : file' ∈ ctx'.files language' kind')
    (hpath : file.path = file'.path) :
    ctx.name = ctx'.name ∨ (∃ part ∈ nameParts, ctx'.name = ctx.name ++ part) ∨
      ∃ part ∈ nameParts, ctx.name = ctx'.name ++ part := by
  obtain ⟨suffix, hsuffix, rfl⟩ :=
    List.mem_map.mp ((files_perm ctx language kind).mem_iff.mp hfile)
  obtain ⟨suffix', hsuffix', rfl⟩ :=
    List.mem_map.mp ((files_perm ctx' language' kind').mem_iff.mp hfile')
  have hnames : ctx.name ++ suffix = ctx'.name ++ suffix' := by
    change (File.mk ctx.dirname _).path = (File.mk ctx'.dirname _).path at hpath
    rw [hpackage] at hpath
    exact File.path_inj_of_dirname.mp hpath
  have hmem := suffixes_subset ctx language kind hsuffix
  have hmem' := suffixes_subset ctx' language' kind' hsuffix'
  -- the longer name ends in the difference of the two suffixes
  rcases le_total ctx.name.length ctx'.name.length with hle | hle
  · rcases name_eq_or_part hmem hmem' hle hnames with hsame | hpart
    · exact .inl hsame
    · exact .inr (.inl hpart)
  · rcases name_eq_or_part hmem' hmem hle hnames.symm with hsame | hpart
    · exact .inl hsame.symm
    · exact .inr (.inr hpart)

/-- A target with the name of the header of the sample target. -/
def headerContext : Context := { reportingContext with name := "lib_abi" }

/-- Its jar is the header of the sample target. -/
theorem names_of_same_file_header :
    reportingContext.name = headerContext.name ∨
      (∃ part ∈ nameParts, headerContext.name = reportingContext.name ++ part) ∨
      ∃ part ∈ nameParts, reportingContext.name = headerContext.name ++ part := by
  have hfiles : abiJar reportingContext.toTarget ∈ reportingContext.files .kotlin .binary ∧
      headerContext.outputJar ∈ headerContext.files .kotlin .library ∧
      (abiJar reportingContext.toTarget).path = headerContext.outputJar.path := by
    decide +kernel
  exact names_of_same_file rfl hfiles.1 hfiles.2.1 hfiles.2.2

end RulesElide.CompileCommon
