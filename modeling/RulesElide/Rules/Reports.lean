import RulesElide.Rules.Targets

/-!
# Dependency reports

Each action that runs Elide writes its own reports.  `make_java_info` advertises at most one of
the implementation and one of the header, and `compile_output_groups` exposes all of them:
`reports_advertised` says which.
-/

namespace RulesElide.CompileCommon

variable {ctx : Context} {compilation : Compilation} {language : Language} {kind : RuleKind}
  {analysis : Analysis}

/-! ## By what follows the name of the target -/

theorem rtakeWhile_append_of_mem {first second : List Char} {delimiter : Char}
    (h : delimiter ∈ second) :
    (first ++ second).rtakeWhile (· ≠ delimiter) = second.rtakeWhile (· ≠ delimiter) := by
  induction second using List.reverseRecOn with
  | nil => exact absurd h List.not_mem_nil
  | append_singleton second character ih =>
      rw [← List.append_assoc, List.rtakeWhile_concat, List.rtakeWhile_concat]
      split
      · rename_i hother
        rcases List.mem_append.mp h with hmem | hlast
        · rw [ih hmem]
        · simp [List.mem_singleton.mp hlast] at hother
      · rfl

/-- The extension of a file is in what follows the name. -/
theorem extension_file {suffix : String} (h : '.' ∈ suffix.toList) :
    (ctx.file suffix).extension = substringAfterLast suffix '.' := by
  have hdot : '.' ∈ (ctx.file suffix).basename.toList := by
    change '.' ∈ (ctx.name ++ suffix).toList
    rw [String.toList_append]
    exact List.mem_append_right _ h
  rw [File.extension, if_pos hdot]
  change substringAfterLast (ctx.name ++ suffix) '.' = _
  rw [substringAfterLast, substringAfterLast, String.toList_append, rtakeWhile_append_of_mem h]

/-- The reports of a Java compilation. -/
def javaReportSuffixes (res separate jdeps unused : Bool) : List String :=
  reportSuffixes jdeps unused (if res then "_classes.jar" else ".jar") ++
    if separate then reportSuffixes jdeps unused "_abi.jar" else []

/-- The reports of a Kotlin compilation. -/
def kotlinReportSuffixes (kt java res processed separate jdeps unused : Bool) : List String :=
  (if separate then reportSuffixes jdeps unused "_abi.jar" else []) ++
    (if kt then reportSuffixes jdeps unused
      (if kt && !java && !res then ".jar" else "_kotlin_classes.jar") else []) ++
    if java && !processed then reportSuffixes jdeps unused "_java_classes.jar" else []

/-- The reports of a target. -/
def Context.reports (ctx : Context) (language : Language) : List String :=
  match language with
  | .java => javaReportSuffixes (hasPackagedResources ctx.toTarget)
      (ctx.javaAbiAvoidance && !ctx.javaFusedAbi) ctx.settings.emitJdeps ctx.prunes
  | .kotlin => kotlinReportSuffixes ctx.hasKt ctx.hasJava (hasPackagedResources ctx.toTarget)
      (hasExportedProcessors ctx.deps) ctx.separateAbi ctx.settings.emitJdeps ctx.prunes

theorem reports_compile (h : language.compile ctx ctx.outputJar = .ok compilation) :
    compilation.reports = (ctx.reports language).map ctx.file := by
  cases language with
  | java =>
      obtain ⟨_, -, -, -, hreports⟩ := runJavac_spec h
      rw [hreports, classJar_outputJar, abiJar_eq, reportsOn_file, reportsOn_file]
      unfold Context.reports javaReportSuffixes
      dsimp only
      cases ctx.javaAbiAvoidance && !ctx.javaFusedAbi <;> simp
  | kotlin =>
      obtain ⟨_, -, -, -, hreports⟩ := runKotlinc_spec h
      rw [hreports, Context.kotlinReports, ktJar_outputJar, abiJar_eq, singleKtOnly_eq]
      unfold Context.reports kotlinReportSuffixes javaAux Context.compileJavaAux
      rw [javaJar_eq, reportsOn_file, reportsOn_file]
      dsimp only
      cases ctx.separateAbi <;> cases ctx.hasKt <;> cases ctx.hasJava <;>
        cases hasExportedProcessors ctx.deps <;> simp [reportsOn_file]

theorem dot_mem : ∀ suffix ∈ allSuffixes, '.' ∈ String.toList suffix := by
  simp [allSuffixes]

/-- The reports that are kept, of those with an extension. -/
theorem filter_extension {suffixes : List String} (h : suffixes ⊆ allSuffixes)
    (extension : String) :
    (suffixes.map ctx.file).filter (fun file => file.extension = extension) =
      (suffixes.filter fun suffix => substringAfterLast suffix '.' = extension).map ctx.file := by
  rw [List.filter_map]
  congr 1
  apply List.filter_congr
  intro suffix hsuffix
  simp only [Function.comp_apply, extension_file (dot_mem suffix (h hsuffix))]

/-- The header is what stands for the ABI jar, and everything else is the implementation. -/
def isHeader (suffix : String) : Bool := suffix = "_abi.jar.jdeps"

/-- Which reports a Java compilation writes. -/
theorem javaReportSuffixes_spec : ∀ res separate jdeps unused : Bool,
    let suffixes := javaReportSuffixes res separate jdeps unused
    suffixes ⊆ allSuffixes ∧
    suffixes.filter isHeader = (if jdeps && separate then ["_abi.jar.jdeps"] else []) ∧
    suffixes.filter (fun suffix => substringAfterLast suffix '.' = "jdeps" ∧ ¬ isHeader suffix) =
      (if jdeps then [(if res then "_classes.jar" else ".jar") ++ ".jdeps"] else []) ∧
    (suffixes.filter (fun suffix => substringAfterLast suffix '.' = "unused")).Perm
      (if unused then (if separate then ["_abi.jar.unused"] else []) ++
        [(if res then "_classes.jar" else ".jar") ++ ".unused"] else []) := by
  decide +kernel

/-- Which reports a Kotlin compilation writes. -/
theorem kotlinReportSuffixes_spec : ∀ kt java res processed separate jdeps unused : Bool,
    let suffixes := kotlinReportSuffixes kt java res processed separate jdeps unused
    suffixes ⊆ allSuffixes ∧
    suffixes.filter isHeader = (if jdeps && separate then ["_abi.jar.jdeps"] else []) ∧
    suffixes.filter (fun suffix => substringAfterLast suffix '.' = "jdeps" ∧ ¬ isHeader suffix) =
      (if jdeps then
        (if kt then [(if kt && !java && !res then ".jar" else "_kotlin_classes.jar") ++ ".jdeps"]
          else []) ++ if java && !processed then ["_java_classes.jar.jdeps"] else []
      else []) ∧
    (suffixes.filter (fun suffix => substringAfterLast suffix '.' = "unused")).Perm
      (if unused then (if separate then ["_abi.jar.unused"] else []) ++
        (if kt then [(if kt && !java && !res then ".jar" else "_kotlin_classes.jar") ++ ".unused"]
          else []) ++ (if java && !processed then ["_java_classes.jar.unused"] else [])
      else []) := by
  decide +kernel

theorem reports_subset (ctx : Context) (language : Language) :
    ctx.reports language ⊆ allSuffixes := by
  cases language with
  | java => exact (javaReportSuffixes_spec _ _ _ _).1
  | kotlin => exact (kotlinReportSuffixes_spec _ _ _ _ _ _ _).1

/-! ## Headers and implementations -/

/-- The ABI jar, if an action of its own writes it. -/
def Context.header (ctx : Context) (language : Language) : Option File :=
  match language with
  | .java => if ctx.javaAbiAvoidance && !ctx.javaFusedAbi then some (abiJar ctx.toTarget) else none
  | .kotlin => if ctx.separateAbi then some (abiJar ctx.toTarget) else none

/-- The class jars that Elide writes. -/
def Context.implementation (ctx : Context) (language : Language) : List File :=
  match language with
  | .java => [ctx.classJar ctx.outputJar]
  | .kotlin => (ctx.ktJar ctx.outputJar).toList ++
      if ctx.hasJava && !hasExportedProcessors ctx.deps then [ctx.javaJar] else []

/-- `output.basename + "." + extension`, beside the output. -/
def File.report (output : File) (extension : String) : File :=
  output.sibling (output.basename ++ "." ++ extension)

theorem report_file (ctx : Context) (suffix extension : String) :
    (ctx.file suffix).report extension = ctx.file (suffix ++ "." ++ extension) := by
  simp [File.report, File.sibling, Context.file, Target.declareFile, String.append_assoc]

theorem reports_header :
    ((ctx.reports language).filter isHeader).map ctx.file =
      if ctx.settings.emitJdeps then (ctx.header language).toList.map (·.report "jdeps")
      else [] := by
  have habi : (abiJar ctx.toTarget).report "jdeps" = ctx.file "_abi.jar.jdeps" :=
    report_file ctx "_abi.jar" "jdeps"
  cases language with
  | java =>
      unfold Context.reports Context.header
      dsimp only
      rw [(javaReportSuffixes_spec _ _ _ _).2.1]
      cases ctx.settings.emitJdeps <;> cases ctx.javaAbiAvoidance && !ctx.javaFusedAbi <;>
        simp [habi]
  | kotlin =>
      unfold Context.reports Context.header
      dsimp only
      rw [(kotlinReportSuffixes_spec _ _ _ _ _ _ _).2.1]
      cases ctx.settings.emitJdeps <;> cases ctx.separateAbi <;> simp [habi]

theorem reports_implementation :
    ((ctx.reports language).filter
        (fun suffix => substringAfterLast suffix '.' = "jdeps" ∧ ¬ isHeader suffix)).map ctx.file =
      if ctx.settings.emitJdeps then (ctx.implementation language).map (·.report "jdeps")
      else [] := by
  cases language with
  | java =>
      unfold Context.reports Context.implementation
      dsimp only
      rw [(javaReportSuffixes_spec _ _ _ _).2.2.1, classJar_outputJar]
      cases ctx.settings.emitJdeps <;> simp [report_file, String.append_assoc]
  | kotlin =>
      have hjava : ctx.javaJar.report "jdeps" = ctx.file "_java_classes.jar.jdeps" :=
        report_file ctx "_java_classes.jar" "jdeps"
      unfold Context.reports Context.implementation
      dsimp only
      rw [(kotlinReportSuffixes_spec _ _ _ _ _ _ _).2.2.1, ktJar_outputJar, singleKtOnly_eq]
      cases ctx.settings.emitJdeps <;> cases ctx.hasKt <;>
        cases ctx.hasJava && !hasExportedProcessors ctx.deps <;>
          simp [report_file, hjava, String.append_assoc]

/-- The jars on which Elide reports. -/
def Context.reported (ctx : Context) (language : Language) : List File :=
  (ctx.header language).toList ++ ctx.implementation language

theorem reports_unused :
    (((ctx.reports language).filter
        (fun suffix => substringAfterLast suffix '.' = "unused")).map ctx.file).Perm
      (if ctx.prunes then (ctx.reported language).map (·.report "unused") else []) := by
  have habi : (abiJar ctx.toTarget).report "unused" = ctx.file "_abi.jar.unused" :=
    report_file ctx "_abi.jar" "unused"
  cases language with
  | java =>
      apply ((javaReportSuffixes_spec _ _ _ _).2.2.2.map ctx.file).trans
      unfold Context.reported Context.header Context.implementation
      dsimp only
      rw [classJar_outputJar]
      cases ctx.prunes <;> cases ctx.javaAbiAvoidance && !ctx.javaFusedAbi <;>
        simp [habi, report_file, String.append_assoc]
  | kotlin =>
      have hjava : ctx.javaJar.report "unused" = ctx.file "_java_classes.jar.unused" :=
        report_file ctx "_java_classes.jar" "unused"
      apply ((kotlinReportSuffixes_spec _ _ _ _ _ _ _).2.2.2.map ctx.file).trans
      unfold Context.reported Context.header Context.implementation
      dsimp only
      rw [ktJar_outputJar, singleKtOnly_eq]
      cases ctx.prunes <;> cases ctx.separateAbi <;> cases ctx.hasKt <;>
        cases ctx.hasJava && !hasExportedProcessors ctx.deps <;>
          simp [habi, hjava, report_file, String.append_assoc]

/-! ## The actions that report -/

/-- The action writes the jar, and the reports on it that the settings ask for. -/
structure ReportsOn (ctx : Context) (jar : File) (action : Registered) : Prop where
  jar_mem : jar ∈ action.outputs
  jdeps_mem : ctx.settings.emitJdeps = true → jar.report "jdeps" ∈ action.outputs
  unused_mem : ctx.prunes = true → jar.report "unused" ∈ action.outputs

theorem reportsOn_runElideCompile {mnemonic subcommand : String} {toolArgs : List Arg}
    {inputs : List String} {output : File} {others : List File} {incremental : Bool} :
    ReportsOn ctx output
      (ctx.runElideCompile mnemonic subcommand toolArgs inputs output others incremental) := by
  have hreports : ∀ report ∈ ctx.reportsOn output, report ∈ (ctx.runElideCompile mnemonic
      subcommand toolArgs inputs output others incremental).outputs := by
    intro report hreport
    rw [outputs_runElideCompile]
    exact List.mem_append_right _ hreport
  constructor
  · rw [outputs_runElideCompile]
    exact List.mem_append_left _ List.mem_cons_self
  · intro hjdeps
    apply hreports
    simp [Context.reportsOn, metadata, hjdeps, File.report, String.append_assoc]
  · intro hprunes
    apply hreports
    unfold Context.prunes at hprunes
    simp [Context.reportsOn, metadata, hprunes, File.report, String.append_assoc]

/-- Each jar on which Elide reports has an action that compiles it. -/
theorem exists_reportsOn (h : language.compile ctx ctx.outputJar = .ok compilation) {jar : File}
    (hjar : jar ∈ ctx.reported language) :
    ∃ action ∈ compilation.actions, ReportsOn ctx jar action := by
  cases language with
  | java =>
      obtain ⟨merge, -, hactions, -, -⟩ := runJavac_spec h
      unfold Context.reported Context.header Context.implementation at hjar
      rw [hactions]
      rcases List.mem_append.mp hjar with hheader | himplementation
      · dsimp only at hheader
        -- a header only of a separate ABI action
        split at hheader
        · rename_i hseparate
          obtain rfl := Option.mem_toList.mp hheader |> Option.some.inj |> Eq.symm
          refine ⟨ctx.elideJavacAbi, ?_, reportsOn_runElideCompile⟩
          rw [if_pos hseparate]
          exact List.mem_append_right _ (List.mem_singleton_self _)
        · cases hheader
      · obtain rfl := List.mem_singleton.mp himplementation
        exact ⟨ctx.elideJavac ctx.outputJar, List.mem_cons_self, reportsOn_runElideCompile⟩
  | kotlin =>
      have hmem := (elideActions_sublist h).subset
      unfold Context.elideActions Context.kotlinActions at hmem
      unfold Context.reported Context.header Context.implementation at hjar
      rcases List.mem_append.mp hjar with hheader | himplementation
      · dsimp only at hheader
        split at hheader
        · rename_i hseparate
          obtain rfl := Option.mem_toList.mp hheader |> Option.some.inj |> Eq.symm
          refine ⟨ctx.elideKotlincAbi, hmem ?_, reportsOn_runElideCompile⟩
          rw [if_pos hseparate]
          simp
        · cases hheader
      · dsimp only at himplementation
        rcases List.mem_append.mp himplementation with hkotlin | hjava
        · exact ⟨ctx.elideKotlinc jar, hmem (List.mem_append_left _ (List.mem_append_right _
            (List.mem_map_of_mem hkotlin))), reportsOn_runElideCompile⟩
        · split at hjava
          · rename_i hunprocessed
            obtain rfl := List.mem_singleton.mp hjava
            refine ⟨ctx.elideKotlinJavac (ctx.ktJar ctx.outputJar), hmem ?_,
              reportsOn_runElideCompile⟩
            rw [if_pos hunprocessed]
            exact List.mem_append_right _ (List.mem_singleton_self _)
          · cases hjava

/-! ## What is advertised -/

/-- Without an ABI jar there is no report on it. -/
theorem override_of_header (h : ctx.header language ≠ none) :
    ctx.override language = some (abiJar ctx.toTarget) := by
  cases language with
  | java =>
      unfold Context.header at h
      unfold Context.override
      cases habi : ctx.javaAbiAvoidance <;> simp_all
  | kotlin =>
      unfold Context.header Context.separateAbi at h
      unfold Context.override
      cases habi : abiAvoidance ctx.toTarget <;> simp_all

theorem override_cases (ctx : Context) (language : Language) :
    ctx.override language = none ∨ ctx.override language = some (abiJar ctx.toTarget) := by
  cases language <;> simp only [Context.override] <;> split <;> simp

theorem headerReports_eq :
    headerReports (ctx.override language) ((ctx.reports language).map ctx.file) =
      if ctx.settings.emitJdeps then (ctx.header language).toList.map (·.report "jdeps")
      else [] := by
  rcases override_cases ctx language with hnone | hsome
  · have hheader : ctx.header language = none := by
      by_contra hheader
      rw [override_of_header hheader] at hnone
      cases hnone
    simp [headerReports, hnone, hheader]
  · rw [← reports_header, hsome, headerReports, List.filter_map]
    congr 1
    apply List.filter_congr
    intro suffix _
    have hpath : (abiJar ctx.toTarget).path ++ ".jdeps" = (ctx.file "_abi.jar.jdeps").path := by
      change (File.mk ctx.dirname (ctx.name ++ "_abi.jar")).path ++ ".jdeps" =
        (File.mk ctx.dirname (ctx.name ++ "_abi.jar.jdeps")).path
      unfold File.path
      dsimp only
      split <;> simp only [String.append_assoc] <;> rfl
    simp only [Function.comp_apply, hpath, isHeader, (path_file_injective ctx).eq_iff]

theorem implementationReports_eq :
    implementationReports (ctx.override language) ((ctx.reports language).map ctx.file) =
      if ctx.settings.emitJdeps then (ctx.implementation language).map (·.report "jdeps")
      else [] := by
  rw [← reports_implementation, implementationReports, headerReports_eq, ← reports_header,
    List.filter_map]
  congr 1
  apply List.filter_congr
  intro suffix hsuffix
  have hfile : Function.Injective ctx.file :=
    fun _ _ h => path_file_injective ctx (congrArg File.path h)
  have hmem : ctx.file suffix ∈ ((ctx.reports language).filter isHeader).map ctx.file ↔
      isHeader suffix = true := by
    rw [List.mem_map_of_injective hfile, List.mem_filter]
    exact and_iff_right hsuffix
  simp only [Function.comp_apply, hmem,
    extension_file (dot_mem suffix (reports_subset ctx language hsuffix))]

/-- The reports on dependencies are those on the header and those on the implementation. -/
theorem reports_jdeps :
    (((ctx.reports language).filter
        (fun suffix => substringAfterLast suffix '.' = "jdeps")).map ctx.file).Perm
      (if ctx.settings.emitJdeps then (ctx.reported language).map (·.report "jdeps") else []) := by
  have hheader : ((ctx.reports language).filter
      (fun suffix => substringAfterLast suffix '.' = "jdeps")).filter isHeader =
        (ctx.reports language).filter isHeader := by
    rw [List.filter_filter]
    apply List.filter_congr
    intro suffix _
    rw [Bool.and_eq_left_iff_imp]
    intro hheader
    rw [of_decide_eq_true hheader]
    rfl
  have himplementation : ((ctx.reports language).filter
      (fun suffix => substringAfterLast suffix '.' = "jdeps")).filter
        (fun suffix => !isHeader suffix) = (ctx.reports language).filter
          (fun suffix => substringAfterLast suffix '.' = "jdeps" ∧ ¬ isHeader suffix) := by
    rw [List.filter_filter]
    apply List.filter_congr
    intro suffix _
    rw [Bool.and_comm]
    simp
  -- the reports of headers first, then the others
  apply ((List.filter_append_perm isHeader _).map ctx.file).symm.trans
  rw [List.map_append, hheader, himplementation, reports_header, reports_implementation]
  cases ctx.settings.emitJdeps <;> simp [Context.reported]

/-- **What a target reports.**  Each jar on which Elide reports is written by an action that writes
the reports as well.  All these reports are exposed; the one on the header is advertised, and one
on the implementation if there is one class jar only that Elide writes. -/
theorem reports_advertised (h : analyze language kind ctx = .ok analysis) :
    (∀ jar ∈ ctx.reported language, ∃ action ∈ analysis.actions, ReportsOn ctx jar action) ∧
    (analysis.outputGroups.jdeps.Perm
      (if ctx.settings.emitJdeps then (ctx.reported language).map (·.report "jdeps") else [])) ∧
    (analysis.outputGroups.unusedInputs.Perm
      (if ctx.prunes then (ctx.reported language).map (·.report "unused") else [])) ∧
    (∀ report, analysis.javaInfo.compileJdeps = some report ↔ ctx.settings.emitJdeps = true ∧
      ∃ jar, ctx.header language = some jar ∧ report = jar.report "jdeps") ∧
    (∀ report, analysis.javaInfo.jdeps = some report ↔ ctx.settings.emitJdeps = true ∧
      ∃ jar, ctx.implementation language = [jar] ∧ report = jar.report "jdeps") := by
  obtain ⟨compilation, hcompile, -, hactions, hinfo, hgroups⟩ := analyze_spec h
  have hreports := reports_compile hcompile
  refine ⟨fun jar hjar => ?_, ?_, ?_, fun report => ?_, fun report => ?_⟩
  · obtain ⟨action, haction, hwrites⟩ := exists_reportsOn hcompile hjar
    refine ⟨action, ?_, hwrites⟩
    -- the actions of the compilation come first, those of the sources and the launcher follow
    rw [hactions]
    exact List.mem_append_left _ (List.mem_append_left _ (List.mem_append_left _ haction))
  · rw [hgroups, compileOutputGroups, hreports]
    dsimp only
    rw [filter_extension (reports_subset ctx language)]
    exact reports_jdeps
  · rw [hgroups, compileOutputGroups, hreports]
    dsimp only
    rw [filter_extension (reports_subset ctx language)]
    exact reports_unused
  · rw [hinfo, Context.makeJavaInfo, hreports]
    dsimp only
    rw [headerReports_eq]
    cases ctx.settings.emitJdeps <;> cases ctx.header language <;> simp [eq_comm]
  · rw [hinfo, Context.makeJavaInfo, hreports]
    dsimp only
    rw [implementationReports_eq]
    cases ctx.settings.emitJdeps with
    | false => simp
    | true =>
        rcases ctx.implementation language with _ | ⟨jar, _ | ⟨second, rest⟩⟩ <;> simp [eq_comm]

theorem reports_advertised_reporting :
    let ctx := reportingContext
    let reported := ctx.reported .kotlin
    (∀ jar ∈ reported, ∃ action ∈ reportingAnalysis.actions, ReportsOn ctx jar action) ∧
      reportingAnalysis.outputGroups.jdeps.Perm (reported.map (·.report "jdeps")) ∧
      reportingAnalysis.javaInfo.compileJdeps = some ((abiJar ctx.toTarget).report "jdeps") ∧
      reportingAnalysis.javaInfo.jdeps = some (ctx.outputJar.report "jdeps") := by
  obtain ⟨hactions, hjdeps, -, hheader, himplementation⟩ := reports_advertised analyze_reporting
  have hjars : reportingContext.header .kotlin = some (abiJar reportingContext.toTarget) ∧
      reportingContext.implementation .kotlin = [reportingContext.outputJar] := by
    decide +kernel
  exact ⟨hactions, hjdeps, (hheader _).mpr ⟨rfl, _, hjars.1, rfl⟩,
    (himplementation _).mpr ⟨rfl, _, hjars.2, rfl⟩⟩

end RulesElide.CompileCommon
