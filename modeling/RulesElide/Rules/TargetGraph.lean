import RulesElide.Rules.Targets
import RulesElide.Library.ActionGraph

/-!
# The actions of a target

`analysis_hermetic`: the rules put no files on command lines that Bazel does not know.
`workspace_reproducible`: those of many targets can be run in any order in which their inputs are
there, and the order does not matter.
-/

namespace RulesElide.CompileCommon

variable {ctx : Context} {outputJar : File} {compilation : Compilation} {language : Language}
  {kind : RuleKind} {analysis : Analysis}

/-! ## Hermetic actions -/

/-- What `java_common` registers for a target. -/
def Context.javaCommonActions (ctx : Context) : List Registered :=
  ctx.compileJavaProcessed (ctx.ktJar ctx.outputJar) ++ ctx.packSourceJar ++
    ctx.java.runIjar ctx.outputJar

/-- The actions that a target can have. -/
inductive IsAction (ctx : Context) : Registered → Prop
  | javac (outputJar : File) : IsAction ctx (ctx.elideJavac outputJar)
  | javacAbi : IsAction ctx ctx.elideJavacAbi
  | kotlincAbi : IsAction ctx ctx.elideKotlincAbi
  | kotlinc (compileOut : File) : IsAction ctx (ctx.elideKotlinc compileOut)
  | kotlinJavac (ktJar : Option File) : IsAction ctx (ctx.elideKotlinJavac ktJar)
  | merge {classJars : List File} {outputJar : File} {action : Registered}
      (h : Merges ctx classJars outputJar action) : IsAction ctx action
  | launcher : IsAction ctx ctx.writeLauncher
  | javaCommon {action : Registered} (h : action ∈ ctx.javaCommonActions) : IsAction ctx action

variable {action : Registered}

theorem isAction_kotlinActions (h : action ∈ ctx.kotlinActions outputJar) :
    IsAction ctx action := by
  unfold Context.kotlinActions at h
  rcases List.mem_append.mp h with habi | hkotlinc
  · split at habi
    · exact List.mem_singleton.mp habi ▸ .kotlincAbi
    · exact absurd habi List.not_mem_nil
  · obtain ⟨compileOut, -, rfl⟩ := List.mem_map.mp hkotlinc
    exact .kotlinc compileOut

theorem isAction_javaAux (h : action ∈ (javaAux ctx ctx.outputJar).1) : IsAction ctx action := by
  unfold javaAux at h
  split at h
  · unfold Context.compileJavaAux at h
    split at h
    · exact .javaCommon (List.mem_append_left _ (List.mem_append_left _ h))
    · exact List.mem_singleton.mp h ▸ .kotlinJavac _
  · exact absurd h List.not_mem_nil

theorem isAction_runJavac (h : ctx.runJavac outputJar = .ok compilation) :
    ∀ action ∈ compilation.actions, IsAction ctx action := by
  obtain ⟨merge, hmerge, hactions, -, -⟩ := runJavac_spec h
  rw [hactions]
  intro action haction
  rcases List.mem_append.mp haction with hmain | habi
  · rcases List.mem_cons.mp hmain with rfl | hmerged
    · exact .javac outputJar
    · exact .merge (mergeResources_spec (hmerge.of_mem hmerged))
  · split at habi
    · exact List.mem_singleton.mp habi ▸ .javacAbi
    · exact absurd habi List.not_mem_nil

theorem isAction_runKotlinc (h : ctx.runKotlinc ctx.outputJar = .ok compilation) :
    ∀ action ∈ compilation.actions, IsAction ctx action := by
  obtain ⟨merge, hmerge, hactions, -, -⟩ := runKotlinc_spec h
  rw [hactions]
  intro action haction
  simp only [List.mem_append, or_assoc] at haction
  rcases haction with hkotlin | hjava | hmerged
  · exact isAction_kotlinActions hkotlin
  · exact isAction_javaAux hjava
  · exact .merge (mergeResources_spec (hmerge.of_mem hmerged))

theorem isAction_analysis (h : analyze language kind ctx = .ok analysis) :
    ∀ action ∈ analysis.actions, IsAction ctx action := by
  obtain ⟨compilation, hcompile, -, hactions, -, -⟩ := analyze_spec h
  have hcompilation : ∀ action ∈ compilation.actions, IsAction ctx action := by
    cases language with
    | java => exact isAction_runJavac hcompile
    | kotlin => exact isAction_runKotlinc hcompile
  rw [hactions]
  intro action haction
  simp only [List.mem_append, or_assoc] at haction
  rcases haction with haction | hsources | hlauncher | hijar
  · exact hcompilation action haction
  · exact .javaCommon (List.mem_append_left _ (List.mem_append_right _ hsources))
  · split at hlauncher
    · exact absurd hlauncher List.not_mem_nil
    · exact List.mem_singleton.mp hlauncher ▸ .launcher
  · split at hijar
    · exact .javaCommon (List.mem_append_right _ hijar)
    · exact absurd hijar List.not_mem_nil

theorem IsAction.hermetic (h : IsAction ctx action) (hown : action ∉ ctx.javaCommonActions) :
    action.Hermetic := by
  cases h with
  | javac => exact hermetic_elideJavac
  | javacAbi => exact hermetic_elideJavacAbi
  | kotlincAbi => exact hermetic_elideKotlincAbi
  | kotlinc => exact hermetic_elideKotlinc
  | kotlinJavac => exact hermetic_elideKotlinJavac
  | merge h => exact h.hermetic
  | launcher => exact fun _ hpath => absurd hpath List.not_mem_nil
  | javaCommon h => exact absurd h hown

theorem IsAction.outputs_ne_nil (h : IsAction ctx action) : action.outputs ≠ [] := by
  cases h with
  | merge h => simp [h.outputs]
  | javac | javacAbi | kotlincAbi | kotlinc | kotlinJavac | launcher =>
      exact List.cons_ne_nil _ _
  | javaCommon h =>
      rcases List.mem_append.mp h with hmade | hijar
      · rcases List.mem_append.mp hmade with hcompile | hsources
        · exact (ctx.java.compile_makes _).writes action hcompile
        · exact (ctx.java.packSources_makes _ _).writes action hsources
      · exact (ctx.java.runIjar_makes _).writes action hijar

/-- **The actions of a target are hermetic.**  The rules put no file on a command line that Bazel
does not know as an input, a tool or an output of the action. -/
theorem analysis_hermetic (h : analyze language kind ctx = .ok analysis) :
    ∀ action ∈ analysis.actions, action ∉ ctx.javaCommonActions → action.Hermetic :=
  fun action haction hown => (isAction_analysis h action haction).hermetic hown

theorem analysis_hermetic_reporting :
    (reportingAnalysis.actions.take 2).map Registered.mnemonic =
        ["ElideKotlincAbi", "ElideKotlinc"] ∧
      ∀ action ∈ reportingAnalysis.actions, action ∉ reportingContext.javaCommonActions →
        action.Hermetic :=
  ⟨by decide +kernel, analysis_hermetic analyze_reporting⟩

/-! ## Any order -/

open ActionGraph

/-- What the actions of a target read that the target does not write. -/
def Context.external (ctx : Context) : List String :=
  ctx.srcPaths ++ ctx.classpath ++ ctx.pluginClasspath ++ friendPathStrs ctx.toTarget ++
    ctx.kotlinStdlibJars ++ ctx.compileToolFiles ++
    (ctx.resources ++ ctx.resourceJars).map File.path ++ ctx.java.toolFiles ++
    -- `java_common.compile` takes the plugins for dependencies
    if hasExportedProcessors ctx.deps then ctx.java.transitiveCompileTimeJars ctx.plugins else []

variable {Content : Type*}

/-- An action, with what it makes of its inputs. -/
def Registered.toAction (meaning : Registered → (String → Option Content) → String → Content)
    (action : Registered) : ActionGraph.Action String Content where
  inputs := action.inputs ++ action.tools
  outputs := action.outputs.map File.path
  write := meaning action

variable {meaning : Registered → (String → Option Content) → String → Content}

theorem outputs_toAction (actions : List Registered) :
    ActionGraph.outputs (actions.map (Registered.toAction meaning)) =
      (actions.flatMap Registered.outputs).map File.path := by
  rw [ActionGraph.outputs, List.flatMap_map, List.map_flatMap]
  rfl

theorem ordered_of_reads {files : List String} {actions : List Registered}
    (h : ∀ action ∈ actions, action.Reads files) :
    Ordered files (actions.map (Registered.toAction meaning)) := by
  induction actions generalizing files with
  | nil => trivial
  | cons action actions ih =>
      obtain ⟨hfirst, hlater⟩ := List.forall_mem_cons.mp h
      refine ⟨hfirst, ih fun other hother => ?_⟩
      exact List.Subset.trans (hlater other hother) (List.subset_append_left _ _)

/-- Actions that read what those before them write. -/
theorem ordered_of_split {files : List String} {actions : List Registered}
    (h : ∀ before action after, actions = before ++ action :: after →
      action.Reads (files ++ (before.flatMap Registered.outputs).map File.path)) :
    Ordered files (actions.map (Registered.toAction meaning)) := by
  induction actions generalizing files with
  | nil => trivial
  | cons first actions ih =>
      refine ⟨?_, ih fun before action after hactions => ?_⟩
      · have hfirst := h [] first actions rfl
        rwa [List.flatMap_nil, List.map_nil, List.append_nil] at hfirst
      · have hlater := h (first :: before) action after (by rw [hactions]; rfl)
        rwa [List.flatMap_cons, List.map_append, ← List.append_assoc] at hlater

/-- What `java_common` registers can run where its inputs and its tools are there. -/
theorem Makes.ordered {toolFiles inputs files : List String} {output : File}
    {byproducts : List File} {actions : List Registered}
    (h : Makes toolFiles inputs output byproducts actions) (hinputs : inputs ++ toolFiles ⊆ files) :
    Ordered files (actions.map (Registered.toAction meaning)) :=
  (ordered_of_split h.reads).mono hinputs

theorem reads_runElideCompile {mnemonic subcommand : String} {toolArgs : List Arg}
    {inputs files : List String} {output : File} {others : List File} {incremental : Bool}
    (hinputs : inputs ⊆ files) (htools : ctx.compileToolFiles ⊆ files) :
    (ctx.runElideCompile mnemonic subcommand toolArgs inputs output others incremental).Reads
      files := by
  refine List.append_subset.mpr ⟨hinputs, ?_⟩
  cases incremental
  · exact List.nil_subset _
  · exact htools

theorem sources_subset (extension : String) :
    (ctx.sources extension).map File.path ⊆ ctx.srcPaths :=
  List.map_subset _ (List.filter_subset_self _)

theorem compileToolFiles_subset : ctx.compileToolFiles ⊆ ctx.external := by
  intro path hpath
  simp only [Context.external, List.mem_append]
  tauto

theorem srcPaths_subset : ctx.srcPaths ⊆ ctx.external := by
  intro path hpath
  simp only [Context.external, List.mem_append]
  tauto

theorem reads_elideJavac : (ctx.elideJavac outputJar).Reads ctx.external := by
  apply reads_runElideCompile _ compileToolFiles_subset
  intro path hpath
  simp only [Context.external, List.mem_append] at hpath ⊢
  tauto

theorem reads_elideJavacAbi : ctx.elideJavacAbi.Reads ctx.external := by
  apply reads_runElideCompile _ compileToolFiles_subset
  intro path hpath
  simp only [Context.external, List.mem_append] at hpath ⊢
  tauto

theorem kotlincInputs_subset : ctx.kotlincInputs ⊆ ctx.external := by
  intro path hpath
  simp only [Context.kotlincInputs, Context.external, List.mem_append] at hpath ⊢
  tauto

theorem reads_elideKotlincAbi : ctx.elideKotlincAbi.Reads ctx.external := by
  apply reads_runElideCompile _ compileToolFiles_subset
  refine List.append_subset.mpr ⟨?_, kotlincInputs_subset⟩
  unfold Context.abiSources
  rw [List.map_append]
  exact List.append_subset.mpr ⟨List.Subset.trans (sources_subset _) srcPaths_subset,
    List.Subset.trans (sources_subset _) srcPaths_subset⟩

theorem reads_elideKotlinc {compileOut : File} :
    (ctx.elideKotlinc compileOut).Reads ctx.external := by
  apply reads_runElideCompile _ compileToolFiles_subset
  exact List.append_subset.mpr ⟨srcPaths_subset, kotlincInputs_subset⟩

theorem reads_kotlinActions (h : action ∈ ctx.kotlinActions outputJar) :
    action.Reads ctx.external := by
  unfold Context.kotlinActions at h
  rcases List.mem_append.mp h with habi | hkotlinc
  · split at habi
    · exact List.mem_singleton.mp habi ▸ reads_elideKotlincAbi
    · exact absurd habi List.not_mem_nil
  · obtain ⟨compileOut, -, rfl⟩ := List.mem_map.mp hkotlinc
    exact reads_elideKotlinc

theorem toolFiles_subset : ctx.java.toolFiles ⊆ ctx.external := by
  intro path hpath
  simp only [Context.external, List.mem_append]
  tauto

/-- The jars of the dependencies, when the target has any. -/
theorem compileTimeJars_deps (hdeps : ctx.deps ≠ []) :
    ctx.java.transitiveCompileTimeJars ctx.deps = ctx.classpath := by
  rw [ctx.classpath_eq, compileClasspath, if_neg hdeps]

/-- What `java_common.compile` reads: what the target does not write, and the Kotlin classes. -/
theorem javaCompile_inputs (ktJar : Option File)
    (hprocessors : hasExportedProcessors ctx.deps = true) :
    (ctx.javaCompile ktJar).sources.map File.path ++
        ctx.java.transitiveCompileTimeJars (ctx.javaCompile ktJar).deps ++ ctx.java.toolFiles ⊆
      ctx.external ++ ktJar.toList.map File.path := by
  have hdeps : ctx.deps ≠ [] := by
    intro hnone
    rw [hnone] at hprocessors
    cases hprocessors
  have hsources : (ctx.javaCompile ktJar).sources.map File.path ⊆ ctx.srcPaths := sources_subset _
  -- the merged providers: dependencies, plugins, and one for each single jar
  have hmerged : ctx.java.transitiveCompileTimeJars (ctx.javaCompile ktJar).deps ⊆
      ctx.classpath ++ ctx.java.transitiveCompileTimeJars ctx.plugins ++
        (ktJar.toList.map File.path ++ ctx.kotlinStdlibJars) := by
    rw [← compileTimeJars_deps hdeps]
    apply List.Subset.trans (ctx.java.compileTimeJars_append _ _)
    exact List.append_subset.mpr
      ⟨List.Subset.trans (ctx.java.compileTimeJars_append _ _) (List.subset_append_left _ _),
        List.Subset.trans (ctx.java.compileTimeJars_jars _) (List.subset_append_right _ _)⟩
  intro path hpath
  have hsource := @hsources path
  have hmerged := @hmerged path
  have htools := @toolFiles_subset ctx path
  simp only [Context.external, hprocessors, if_true, List.mem_append] at hpath hmerged htools ⊢
  tauto

/-- The Java actions of a Kotlin target stand behind the producers of the Kotlin classes. -/
theorem ordered_javaAux {files : List String}
    (hfiles : ctx.external ++ (ctx.ktJar outputJar).toList.map File.path ⊆ files) :
    Ordered files ((javaAux ctx outputJar).1.map (Registered.toAction meaning)) := by
  unfold javaAux
  split
  · unfold Context.compileJavaAux
    split
    · rename_i hprocessors
      apply (ctx.java.compile_makes _).ordered
      exact List.Subset.trans (javaCompile_inputs _ hprocessors) hfiles
    · apply ordered_of_reads
      intro action haction
      obtain rfl := List.mem_singleton.mp haction
      have hsources : ctx.javaSrcPaths ⊆ ctx.srcPaths := sources_subset _
      apply reads_runElideCompile
      · intro path hpath
        have hsource := @hsources path
        apply hfiles
        simp only [Context.external, List.mem_append] at hpath ⊢
        tauto
      · exact List.Subset.trans compileToolFiles_subset
          (List.Subset.trans (List.subset_append_left _ _) hfiles)
  · trivial

theorem reads_mergeResources {classJars : List File} {action : Registered}
    (h : ctx.mergeResources classJars outputJar = .ok action) :
    action.Reads (ctx.external ++ classJars.map File.path) := by
  have hmerge := mergeResources_spec h
  unfold Registered.Reads
  rw [hmerge.inputs, hmerge.tools]
  intro path hpath
  simp only [Context.external, List.map_append, List.mem_append, List.not_mem_nil,
    or_false] at hpath ⊢
  tauto

/-- The actions of a Java compilation stand behind the producers of what they read. -/
theorem ordered_runJavac (h : ctx.runJavac outputJar = .ok compilation) :
    Ordered ctx.external (compilation.actions.map (Registered.toAction meaning)) := by
  obtain ⟨merge, hmerge, hactions, -, -⟩ := runJavac_spec h
  rw [hactions, List.map_append]
  apply ordered_append.mpr
  refine ⟨⟨reads_elideJavac, ordered_of_reads fun action haction => ?_⟩,
    ordered_of_reads fun action haction => ?_⟩
  · apply List.Subset.trans (reads_mergeResources (hmerge.of_mem haction))
    apply List.append_subset.mpr
    refine ⟨List.subset_append_left _ _, ?_⟩
    -- the class jar is what `ElideJavac` writes
    simp [Registered.toAction, Context.elideJavac, outputs_runElideCompile]
  · split at haction
    · obtain rfl := List.mem_singleton.mp haction
      exact List.Subset.trans reads_elideJavacAbi (List.subset_append_left _ _)
    · exact absurd haction List.not_mem_nil

theorem ktJar_written :
    (ctx.ktJar outputJar).toList.map File.path ⊆
      ActionGraph.outputs ((ctx.kotlinActions outputJar).map (Registered.toAction meaning)) := by
  rw [outputs_toAction]
  apply List.map_subset
  intro file hfile
  apply List.mem_flatMap.mpr
  refine ⟨ctx.elideKotlinc file, ?_, List.mem_cons_self⟩
  unfold Context.kotlinActions
  exact List.mem_append_right _ (List.mem_map_of_mem hfile)

/-- The class jars are written by the compilers. -/
theorem classJars_written :
    (classJars ctx outputJar).map File.path ⊆
      ActionGraph.outputs ((ctx.kotlinActions outputJar).map (Registered.toAction meaning)) ++
        ActionGraph.outputs ((javaAux ctx outputJar).1.map (Registered.toAction meaning)) := by
  unfold classJars
  rw [List.map_append]
  refine List.append_subset.mpr ⟨List.Subset.trans ktJar_written (List.subset_append_left _ _), ?_⟩
  intro path hpath
  apply List.mem_append_right
  rw [outputs_toAction]
  split at hpath
  · rename_i hjava
    obtain rfl : path = ctx.javaJar.path := by simpa using hpath
    apply List.mem_map_of_mem
    rw [javaAux, if_pos hjava]
    unfold Context.compileJavaAux
    split
    · exact (ctx.java.compile_makes (ctx.javaCompile (ctx.ktJar outputJar))).outputs.mem_iff.mpr
        List.mem_cons_self
    · exact List.mem_append_left _ List.mem_cons_self
  · exact absurd hpath List.not_mem_nil

/-- The actions of a Kotlin compilation stand behind the producers of what they read. -/
theorem ordered_runKotlinc (h : ctx.runKotlinc outputJar = .ok compilation) :
    Ordered ctx.external (compilation.actions.map (Registered.toAction meaning)) := by
  obtain ⟨merge, hmerge, hactions, -, -⟩ := runKotlinc_spec h
  rw [hactions, List.map_append, List.map_append]
  apply ordered_append.mpr
  refine ⟨ordered_append.mpr ⟨ordered_of_reads fun action haction => ?_, ordered_javaAux ?_⟩,
    ordered_of_reads fun action haction => ?_⟩
  · exact reads_kotlinActions haction
  · exact List.append_subset.mpr ⟨List.subset_append_left _ _,
      List.Subset.trans ktJar_written (List.subset_append_right _ _)⟩
  · apply List.Subset.trans (reads_mergeResources (hmerge.of_mem haction))
    rw [outputs_append]
    exact List.append_subset.mpr ⟨List.subset_append_left _ _,
      List.Subset.trans classJars_written (List.subset_append_right _ _)⟩

/-- The jar of the target is written, whatever it consists of. -/
theorem jar_mem_javaSuffixes (res fused separate jdeps unused : Bool) :
    ".jar" ∈ javaSuffixes res fused separate jdeps unused := by
  cases res <;> simp [javaSuffixes]

theorem jar_mem_kotlinSuffixes (kt java res processed fused separate jdeps unused : Bool) :
    ".jar" ∈ kotlinSuffixes kt java res processed fused separate jdeps unused := by
  cases kt <;> cases java <;> cases res <;> simp [kotlinSuffixes]

theorem outputJar_written (h : language.compile ctx ctx.outputJar = .ok compilation) :
    ctx.outputJar ∈ compilation.actions.flatMap Registered.outputs := by
  apply (outputs_compile h).mem_iff.mpr
  apply List.mem_append_left
  rw [outputJar_eq]
  cases language with
  | java => exact List.mem_map_of_mem (jar_mem_javaSuffixes _ _ _ _ _)
  | kotlin => exact List.mem_map_of_mem (jar_mem_kotlinSuffixes _ _ _ _ _ _ _ _)

theorem ordered_analysis (h : analyze language kind ctx = .ok analysis) :
    Ordered ctx.external (analysis.actions.map (Registered.toAction meaning)) := by
  obtain ⟨compilation, hcompile, -, hactions, -, -⟩ := analyze_spec h
  have hcompilation : Ordered ctx.external
      (compilation.actions.map (Registered.toAction meaning)) := by
    cases language with
    | java => exact ordered_runJavac hcompile
    | kotlin => exact ordered_runKotlinc hcompile
  have htools : ctx.java.toolFiles ⊆ ctx.external := toolFiles_subset
  rw [hactions, List.map_append, List.map_append, List.map_append]
  refine ordered_append.mpr ⟨ordered_append.mpr ⟨ordered_append.mpr ⟨hcompilation, ?_⟩, ?_⟩, ?_⟩
  · apply (ctx.java.packSources_makes _ _).ordered
    apply List.Subset.trans _ (List.subset_append_left _ _)
    exact List.append_subset.mpr ⟨srcPaths_subset, htools⟩
  · split
    · trivial
    · exact ⟨List.nil_subset _, trivial⟩
  · by_cases hoverride : ctx.override language = none
    · rw [if_pos hoverride]
      apply (ctx.java.runIjar_makes ctx.outputJar).ordered
      refine List.append_subset.mpr ⟨?_, List.Subset.trans htools (List.subset_append_left _ _)⟩
      -- the jar that the interface jar is made of is written by the compilation
      have hwritten : ctx.outputJar.path ∈ ActionGraph.outputs
          (compilation.actions.map (Registered.toAction meaning)) := by
        rw [outputs_toAction]
        exact List.mem_map_of_mem (outputJar_written hcompile)
      intro path hpath
      obtain rfl := List.mem_singleton.mp hpath
      simp only [outputs_append, List.mem_append]
      exact Or.inr (Or.inl (Or.inl hwritten))
    · rw [if_neg hoverride]
      trivial

/-! ## Workspaces -/

/-- A target whose analysis succeeded.  What `java_common.compile` writes besides its jar are
files of its own. -/
structure Member where
  language : Language
  kind : RuleKind
  ctx : Context
  analysis : Analysis
  analyzed : analyze language kind ctx = .ok analysis
  byproducts_nodup : ((ctx.byproducts language).map File.path).Nodup
  byproducts_new : ∀ file ∈ ctx.byproducts language,
    file.path ∉ (ctx.files language kind).map File.path

namespace Member

/-- The paths of the files that the target writes. -/
def files (member : Member) : List String :=
  (member.ctx.files member.language member.kind ++
    member.ctx.byproducts member.language).map File.path

def actions (meaning : Registered → (String → Option Content) → String → Content)
    (member : Member) : List (ActionGraph.Action String Content) :=
  member.analysis.actions.map (Registered.toAction meaning)

variable {member : Member}

theorem outputs_actions :
    (ActionGraph.outputs (member.actions meaning)).Perm member.files := by
  rw [actions, outputs_toAction]
  exact (outputs_perm member.analyzed).map File.path

theorem nodup_files (member : Member) : member.files.Nodup := by
  unfold files
  rw [List.map_append]
  apply List.Nodup.append
  · exact CompileCommon.nodup_files member.ctx member.language member.kind
  · exact member.byproducts_nodup
  · intro path hfile hbesides
    obtain ⟨file, hfile', rfl⟩ := List.mem_map.mp hbesides
    exact member.byproducts_new file hfile' hfile

/-- The actions of a target are a graph over what the target does not write itself. -/
theorem graph (h : member.ctx.external.Disjoint member.files) :
    Graph member.ctx.external (member.actions meaning) where
  ordered := ordered_analysis member.analyzed
  nodup := outputs_actions.nodup_iff.mpr member.nodup_files
  disjoint := fun _ hexternal hwritten => h hexternal (outputs_actions.mem_iff.mp hwritten)

theorem outputs_ne_nil {action : ActionGraph.Action String Content}
    (h : action ∈ member.actions meaning) : action.outputs ≠ [] := by
  obtain ⟨registered, hregistered, rfl⟩ := List.mem_map.mp h
  have houtputs := (isAction_analysis member.analyzed registered hregistered).outputs_ne_nil
  simpa [Registered.toAction] using houtputs

end Member

/-- Targets in the order of their dependencies: each reads sources and what targets before it
write, and writes files of its own. -/
inductive Workspace (sources : List String) : List Member → Prop
  | nil : Workspace sources []
  | add {members : List Member} {member : Member} (h : Workspace sources members)
      (hreads : member.ctx.external ⊆ sources ++ members.flatMap Member.files)
      (hnew : (sources ++ members.flatMap Member.files).Disjoint member.files) :
      Workspace sources (members ++ [member])

variable {sources : List String} {members : List Member}

theorem outputs_members :
    (ActionGraph.outputs (members.flatMap (Member.actions meaning))).Perm
      (members.flatMap Member.files) := by
  induction members with
  | nil => exact List.Perm.refl _
  | cons member members ih =>
      simp only [List.flatMap_cons, outputs_append]
      exact Member.outputs_actions.append ih

theorem Workspace.graph (h : Workspace sources members) :
    Graph sources (members.flatMap (Member.actions meaning)) := by
  induction h with
  | nil => exact ⟨trivial, List.nodup_nil, fun _ _ hnone => absurd hnone List.not_mem_nil⟩
  | @add members member _ hreads hnew ih =>
      have hmember : Graph member.ctx.external (member.actions meaning) := by
        apply Member.graph
        exact fun _ hexternal hwritten => hnew (hreads hexternal) hwritten
      rw [List.flatMap_append, List.flatMap_singleton]
      apply ih.append hmember
      · intro path hpath
        rcases List.mem_append.mp (hreads hpath) with hsource | hearlier
        · exact List.mem_append_left _ hsource
        · exact List.mem_append_right _ (outputs_members.mem_iff.mpr hearlier)
      · intro path hsource hwritten
        exact hnew (List.mem_append_left _ hsource) (Member.outputs_actions.mem_iff.mp hwritten)
      · intro path hearlier hwritten
        exact hnew (List.mem_append_right _ (outputs_members.mem_iff.mp hearlier))
          (Member.outputs_actions.mem_iff.mp hwritten)

/-- **A workspace is built in any order.**  Wherever a build of Java and Kotlin targets stands, it
can go on to the end; and all builds leave the same files, whatever the actions make of their
inputs. -/
theorem workspace_reproducible (h : Workspace sources members)
    (meaning : Registered → (String → Option Content) → String → Content)
    (store : Store String Content) (hsources : ∀ path ∈ sources, (store path).isSome)
    (hfresh : ∀ path ∈ members.flatMap Member.files, store path = none) :
    Reproducible store (members.flatMap (Member.actions meaning)) := by
  apply h.graph.reproducible
  · intro action haction
    obtain ⟨member, -, hmember⟩ := List.mem_flatMap.mp haction
    exact Member.outputs_ne_nil hmember
  · exact hsources
  · exact fun path hwritten => hfresh path (outputs_members.mem_iff.mp hwritten)

/-- The sample target as a library. -/
def sampleLibrary : Member where
  language := .kotlin
  kind := .library
  ctx := sampleContext {}
  analysis := (analyze .kotlin .library (sampleContext {})).toOption.get (by decide +kernel)
  analyzed := Reader.eq_ok_get _
  byproducts_nodup := List.nodup_nil
  byproducts_new _ hfile := absurd hfile List.not_mem_nil

/-- The provider of the library. -/
def sampleProvided : Dependency where
  compileJars := ["bazel-out/bin/app/lib-ijar.jar"]
  runtimeJars := ["bazel-out/bin/app/lib.jar", "base.jar"]

/-- A program in Java of the same package that depends on the library. -/
def programContext : Context :=
  { sampleContext {} with
    label := "//app:main"
    name := "main"
    srcs := [⟨"app", "Main.java"⟩]
    deps := [sampleProvided]
    classpath := ["bazel-out/bin/app/lib-ijar.jar"]
    classpath_eq := by decide +kernel }

def sampleProgram : Member where
  language := .java
  kind := .binary
  ctx := programContext
  analysis := (analyze .java .binary programContext).toOption.get (by decide +kernel)
  analyzed := Reader.eq_ok_get _
  byproducts_nodup := List.nodup_nil
  byproducts_new _ hfile := absurd hfile List.not_mem_nil

def sampleSources : List String := ["app/A.kt", "app/Main.java", "base.jar", "tools/elide"]

theorem sample_workspace : Workspace sampleSources [sampleLibrary, sampleProgram] := by
  have hlibrary : sampleLibrary.ctx.external ⊆ sampleSources ++ [] ∧
      ∀ path ∈ sampleSources ++ [], path ∉ sampleLibrary.files := by
    decide +kernel
  have hprogram : sampleProgram.ctx.external ⊆ sampleSources ++ (sampleLibrary.files ++ []) ∧
      ∀ path ∈ sampleSources ++ (sampleLibrary.files ++ []), path ∉ sampleProgram.files := by
    decide +kernel
  have hfirst : Workspace sampleSources ([] ++ [sampleLibrary]) :=
    Workspace.nil.add hlibrary.1 fun path => hlibrary.2 path
  exact hfirst.add hprogram.1 fun path => hprogram.2 path

/-- The sources are there, and nothing else. -/
def sampleStore (path : String) : Option Unit :=
  if path ∈ sampleSources then some () else none

theorem workspace_reproducible_sample :
    Reproducible sampleStore
      ([sampleLibrary, sampleProgram].flatMap (Member.actions fun _ _ _ => ())) := by
  apply workspace_reproducible sample_workspace
  · intro path hpath
    rw [sampleStore, if_pos hpath]
    rfl
  · decide +kernel

end RulesElide.CompileCommon
